import StackMachine.Proofs.Bench
import StackMachine.Proofs.Panel

/-! Every operation announces all that it changes, so that an attached panel goes on showing the machine. -/

namespace StackMachine

namespace Watch

/-- An entry in the log does not concern the subscriber. -/
@[simp] theorem subscriber_note (watch : Watch) (entry : LogEntry) :
    (watch.note entry).subscriber = watch.subscriber := by
  unfold note
  split
  · rfl
  · rfl

/-- An entry in the log does not concern the panel. -/
@[simp] theorem panel_note (watch : Watch) (entry : LogEntry) : (watch.note entry).panel = watch.panel := by
  unfold note
  split
  · rfl
  · rfl

end Watch

/-- The panel of a watch is attached and shows a machine. -/
structure Watch.Follows (watch : Watch) (machine : Machine) (since : Memory) : Prop where
  attached : watch.subscriber = .panel
  shows : watch.panel.Shows machine since

namespace Watch.Follows

variable {watch : Watch} {machine : Machine} {since : Memory}

/-- A panel goes on following while entries are written to the log. -/
theorem note (follows : watch.Follows machine since) (entry : LogEntry) :
    (watch.note entry).Follows machine since where
  attached := by rw [subscriber_note, follows.attached]
  shows := by rw [panel_note]; exact follows.shows

/-- A verdict concerns nothing but the log. -/
theorem noteVerdict (follows : watch.Follows machine since) (verdict : Verdict) :
    (watch.noteVerdict verdict).Follows machine since := by
  cases verdict with
  | accepted => exact follows
  | failed message => exact follows.note _
  | crashed message => exact follows.note _

/-- An attached panel follows a machine that it shows after the changes of a batch. -/
theorem announce (attached : watch.subscriber = .panel) {batch : Batch}
    (shows : (watch.panel.update batch).2.Shows machine since) :
    (watch.announce batch).Follows machine since := by
  -- Faulty changes are noted in the log, which does not concern the panel.
  have updated : ({ watch with panel := (watch.panel.update batch).2 } : Watch).Follows machine since :=
    ⟨attached, shows⟩
  obtain ⟨verbose, subscriber, panel, received, log⟩ := watch
  obtain rfl : subscriber = .panel := attached
  exact updated.noteVerdict _

/-- A panel follows a change of the stack. -/
theorem stack (follows : watch.Follows machine since) (stack : Stack) :
    (watch.announce (machine.withStack stack).stackBatch).Follows (machine.withStack stack) since :=
  announce follows.attached (.stack follows.shows.pc follows.shows.memory)

/-- A panel follows a change of the program counter. -/
theorem counter (follows : watch.Follows machine since) (pc : Word) :
    (watch.announce ({ machine with pc } : Machine).pcBatch).Follows { machine with pc } since :=
  announce follows.attached ((follows.shows.counting _).counter pc)

/-- A panel follows the writing of a word. -/
theorem word (follows : watch.Follows machine since) {address : Word} {place : Address}
    (named : Address.ofWord? address = some place) (word : Word) :
    (watch.announce [⟨.memory, address, word⟩]).Follows (machine.withWord place word) since :=
  announce follows.attached ((follows.shows.counting _).word named word)

end Watch.Follows

/-- A panel follows actions one by one, because each announces what it changes. -/
theorem Micro.run_follows {since : Memory} (micro : Micro) : ∀ {watch : Watch} {machine : Machine},
    watch.Follows machine since → (watch.observeAll (micro.run machine).2).Follows (micro.run machine).1 since := by
  -- After each action the panel shows the machine that the rest of the actions starts from.
  induction micro with
  | done =>
    intro watch machine follows
    exact follows
  | push word next ih =>
    intro watch machine follows
    exact ih (follows.stack _)
  | pop next ih =>
    intro watch machine follows
    exact ih _ (follows.stack _)
  | top next ih =>
    intro watch machine follows
    exact ih _ follows
  | second next ih =>
    intro watch machine follows
    exact ih _ follows
  | read address next ih =>
    intro watch machine follows
    exact ih _ follows
  | write address word next ih =>
    intro watch machine follows
    exact ih (follows.word address.ofWord?_toWord word)
  -- The panel does not show the flags.
  | flag change next ih =>
    intro watch machine follows
    have unflagged : watch.Follows { machine with flags := change machine.flags } since :=
      ⟨follows.attached, follows.shows.slots, follows.shows.pc, follows.shows.depth, follows.shows.memory⟩
    exact ih unflagged
  | report word next ih =>
    intro watch machine follows
    exact ih (follows.note _)
  | unknown code next ih =>
    intro watch machine follows
    exact ih (follows.note _)

/-- A sound machine on the bench that an attached panel shows. -/
structure Bench.OnPanel (bench : Bench) (since : Memory) : Prop where
  sound : bench.machine.Sound
  follows : bench.watch.Follows bench.machine since

namespace Bench.OnPanel

variable {bench : Bench} {since : Memory}

/-- The panel follows an instruction, whether it is refused or runs to its end. -/
theorem execute (onPanel : bench.OnPanel since) (code : Code) : (bench.execute code).2.OnPanel since := by
  refine ⟨onPanel.sound.execute code, ?_⟩
  show (bench.watch.observeAll (bench.machine.execute code).events).Follows (bench.machine.execute code).machine since
  -- The trace entry comes first, also before a refusal.
  have traced := onPanel.follows.note (.executing bench.machine.pc code)
  rcases Machine.execute_cases onPanel.sound.formed.bounded code with ⟨cause, _, executed⟩ | ⟨_, _, executed⟩
  · rw [executed]
    exact traced
  -- The actions leave the old program counter on the panel, and the last event replaces it.
  · rw [executed]
    have ran := code.micro.run_follows traced
    simp only [Machine.completed, Watch.observeAll_append]
    exact ran.counter (bench.machine.pc + 1)

/-- A reset shows all registers anew, so that the memory words alone have to be right before it. -/
theorem reset (attached : bench.watch.subscriber = .panel)
    (shown : bench.machine.memory.Shown since bench.watch.panel.memory) : bench.reset.OnPanel since := by
  refine ⟨.reset bench.machine, ?_⟩
  -- The log entry of the reset leaves the watch as it is for the batch after it.
  have noted : (bench.watch.note .reset).subscriber = .panel := by rw [Watch.subscriber_note, attached]
  have kept : bench.machine.memory.Shown since (bench.watch.note .reset).panel.memory := by
    rw [Watch.panel_note]
    exact shown
  exact Watch.Follows.announce noted (.registers kept)

/-- The panel follows the writing of a word, also when it is refused. -/
theorem setWord (onPanel : bench.OnPanel since) (address word : Word) :
    (bench.setWord address word).2.OnPanel since := by
  refine ⟨onPanel.sound.setWord address word, ?_⟩
  show (bench.watch.observeAll (bench.machine.setWord address word).events).Follows
    (bench.machine.setWord address word).machine since
  -- A word outside memory is noted in the log, and nothing is announced.
  unfold Machine.setWord
  split
  · rename_i place named
    exact onPanel.follows.word named word
  · exact onPanel.follows.note _

end Bench.OnPanel

/-- The panel follows every operation, also one that fails or stops halfway. -/
theorem Operation.perform_onPanel (operation : Operation) (bench : Bench) {since : Memory}
    (onPanel : bench.OnPanel since) : (operation.perform bench).2.OnPanel since := by
  -- A load is a sequence of writes, so only the three kinds of primitive operation are left.
  refine perform_keeps (·.OnPanel since) ?_ ?_ ?_ operation bench onPanel
  · intro code bench onPanel
    exact onPanel.execute code
  · intro bench onPanel
    exact .reset onPanel.follows.attached onPanel.follows.shows.memory
  · intro address word bench onPanel
    exact onPanel.setWord address word

end StackMachine
