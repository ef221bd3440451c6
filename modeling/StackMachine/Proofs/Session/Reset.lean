import StackMachine.Proofs.Image.Load
import StackMachine.Proofs.Machine.Frame
import StackMachine.Proofs.Observation
import StackMachine.Proofs.Session.Run

/-! A reset forgets all but the image and the memory outside it, so that nothing later tells what was before it. -/

namespace StackMachine

/-- Two watches that both have a panel attached, and whose panels show the same. -/
structure Watch.Twins (left right : Watch) : Prop where
  attached : left.subscriber = .panel
  otherAttached : right.subscriber = .panel
  panel : left.panel = right.panel

namespace Watch

/-- What is noted of a verdict does not concern the subscriber. -/
theorem subscriber_noteVerdict (watch : Watch) (verdict : Verdict) :
    (watch.noteVerdict verdict).subscriber = watch.subscriber := by
  cases verdict <;> simp [noteVerdict]

/-- What is noted of a verdict does not concern the panel. -/
theorem panel_noteVerdict (watch : Watch) (verdict : Verdict) :
    (watch.noteVerdict verdict).panel = watch.panel := by
  cases verdict <;> simp [noteVerdict]

/-- An attached panel stays attached, and is updated by each batch. -/
theorem announce_attached {watch : Watch} (attached : watch.subscriber = .panel) (batch : Batch) :
    (watch.announce batch).subscriber = .panel ∧ (watch.announce batch).panel = (watch.panel.update batch).2 := by
  obtain ⟨verbose, subscriber, panel, received, log⟩ := watch
  obtain rfl : subscriber = .panel := attached
  -- Faulty changes end up in the log, which concerns neither the subscriber nor the panel.
  simp only [announce, subscriber_noteVerdict, panel_noteVerdict, and_self]

namespace Twins

variable {left right : Watch}

/-- Watches stay twins whatever entries are written to their logs. -/
theorem note (twins : left.Twins right) (entry other : LogEntry) : (left.note entry).Twins (right.note other) where
  attached := by rw [subscriber_note, twins.attached]
  otherAttached := by rw [subscriber_note, twins.otherAttached]
  panel := by rw [panel_note, panel_note, twins.panel]

/-- Watches stay twins when both take in the same event. -/
theorem observe (twins : left.Twins right) (event : Event) : (left.observe event).Twins (right.observe event) := by
  cases event with
  | log entry => exact twins.note entry entry
  | changes batch =>
    obtain ⟨attached, panel⟩ := announce_attached twins.attached batch
    obtain ⟨otherAttached, otherPanel⟩ := announce_attached twins.otherAttached batch
    refine ⟨attached, otherAttached, ?_⟩
    simp only [Watch.observe, panel, otherPanel, twins.panel]

/-- Watches that are told the same go on showing the same, however verbose their logs are. -/
theorem observeAll (twins : left.Twins right) (events : List Event) :
    (left.observeAll events).Twins (right.observeAll events) := by
  induction events generalizing left right with
  | nil => exact twins
  | cons event rest ih => exact ih (twins.observe event)

end Twins

end Watch

/-- Two machines that differ in their memory at most. -/
structure Machine.SameRegisters (left right : Machine) : Prop where
  pc : left.pc = right.pc
  status : left.status = right.status
  flags : left.flags = right.flags
  stack : left.stack = right.stack

/-- Machines that have the same registers and the same memory are the same. -/
theorem Machine.SameRegisters.eq {left right : Machine} (same : left.SameRegisters right)
    (memory : left.memory = right.memory) : left = right := by
  obtain ⟨pc, status, flags, stack⟩ := same
  cases left
  cases right
  simp only [Machine.mk.injEq]
  exact ⟨pc, status, flags, stack, memory⟩

/-- Two benches with the same machine, whose panels are attached and show the same. -/
structure Bench.Twins (left right : Bench) : Prop where
  machine : left.machine = right.machine
  watch : left.watch.Twins right.watch

namespace Bench.Twins

variable {left right : Bench}

/-- Benches stay twins however verbose their logs are made. -/
theorem verbose (twins : left.Twins right) (verbose other : Bool) :
    (left.rewatch ({ · with verbose })).Twins (right.rewatch ({ · with verbose := other })) :=
  ⟨twins.machine, twins.watch.attached, twins.watch.otherAttached, twins.watch.panel⟩

/-- Every operation of the machine answers alike on both benches, and leaves them alike. -/
theorem perform (twins : left.Twins right) (operation : Machine → Response) :
    (left.perform operation).1 = (right.perform operation).1 ∧
      (left.perform operation).2.Twins (right.perform operation).2 := by
  -- The response depends on the machine alone, and both watches take in its events.
  have same : operation left.machine = operation right.machine := by rw [twins.machine]
  refine ⟨congrArg Response.fault same, congrArg Response.machine same, ?_⟩
  show (left.watch.observeAll (operation left.machine).events).Twins
    (right.watch.observeAll (operation right.machine).events)
  rw [same]
  exact twins.watch.observeAll _

end Bench.Twins

namespace Bench

variable {left right : Bench}

/-- A load is refused at the same word and announces the same, whatever the memory held before. -/
theorem loadFrom_alike (words : List Word) (number : Nat) (registers : left.machine.SameRegisters right.machine)
    (watch : left.watch.Twins right.watch) :
    (left.loadFrom number words).1 = (right.loadFrom number words).1 ∧
      (left.loadFrom number words).2.machine.SameRegisters (right.loadFrom number words).2.machine ∧
      (left.loadFrom number words).2.watch.Twins (right.loadFrom number words).2.watch := by
  induction words generalizing number left right with
  | nil => exact ⟨rfl, registers, watch⟩
  | cons word rest ih =>
    by_cases inside : number < 4096
    · -- Both loads write the word, and both panels are told so.
      rw [loadFrom_inside inside, loadFrom_inside inside]
      exact ih (number + 1) ⟨registers.pc, registers.status, registers.flags, registers.stack⟩
        (watch.observe (.changes [⟨.memory, Image.place number, word⟩]))
    · -- Both loads stop at this word.
      rw [loadFrom_beyond (Nat.not_lt.mp inside), loadFrom_beyond (Nat.not_lt.mp inside)]
      exact ⟨rfl, registers, watch.note _ _⟩

/-- A load leaves the same memory, if all that differs before it lies where its words go. -/
theorem loadFrom_memory (words : List Word) (number : Nat)
    (agree : ∀ address : Address, ¬ (number ≤ address.val ∧ address.val < number + words.length) →
      left.machine.memory.read address = right.machine.memory.read address) :
    (left.loadFrom number words).2.machine.memory = (right.loadFrom number words).2.machine.memory := by
  apply Memory.eq_of_read
  intro address
  rw [read_loadFrom, read_loadFrom]
  -- A word of the image is the same in both, and any other word agrees already.
  by_cases reached : number ≤ address.val
  · rw [if_pos reached, if_pos reached]
    cases loaded : words[address.val - number]? with
    | some word => rfl
    | none =>
      have past : words.length ≤ address.val - number := List.getElem?_eq_none_iff.mp loaded
      exact agree address (by omega)
  · rw [if_neg reached, if_neg reached]
    exact agree address (by omega)

end Bench

namespace Session

/-- The bench of a session that is about to load its image: the panel, the registers and the stack are cleared. -/
def clearedBench (session : Session) : Bench :=
  (session.preparedBench.rewatch ({ · with panel := .blank })).reset

/-- A reset loads the image into the cleared bench, and notes it in the log unless the load fails. -/
theorem reset_eq (session : Session) :
    let loaded := session.clearedBench.loadFrom session.image.origin.toNat session.image.words
    session.reset = (loaded.1,
      ⟨if loaded.1.isSome then loaded.2
        else loaded.2.rewatch (·.note (.loaded session.image.words.length session.image.origin)),
        session.image, 0, session.verbose⟩) := rfl

/-- Two sessions of the same image and count on benches that are twins. -/
structure Twins (left right : Session) : Prop where
  bench : left.bench.Twins right.bench
  image : left.image = right.image
  ticks : left.ticks = right.ticks

/-- Twins hold and show the same. -/
theorem Twins.view {left right : Session} (twins : left.Twins right) : left.view = right.view := by
  simp only [Session.view, twins.bench.machine, twins.bench.watch.panel, twins.ticks]

/-- A reset makes twins of sessions with the same image whose memories agree outside it. -/
theorem reset_twins {left right : Session} (image : left.image = right.image)
    (attached : left.bench.watch.subscriber = .panel) (otherAttached : right.bench.watch.subscriber = .panel)
    (agree : ∀ address : Address,
      ¬ (left.image.origin.toNat ≤ address.val ∧
        address.val < left.image.origin.toNat + left.image.words.length) →
      left.bench.machine.memory.read address = right.bench.machine.memory.read address) :
    left.reset.1 = right.reset.1 ∧ left.reset.2.Twins right.reset.2 := by
  -- The cleared benches have blank panels and told them the same, and differ in their memories only.
  have blank : ({ left.preparedBench.watch with panel := .blank } : Watch).Twins
      { right.preparedBench.watch with panel := .blank } := ⟨attached, otherAttached, rfl⟩
  have watch : left.clearedBench.watch.Twins right.clearedBench.watch :=
    blank.observeAll left.preparedBench.machine.reset.events
  have registers : left.clearedBench.machine.SameRegisters right.clearedBench.machine := ⟨rfl, rfl, rfl, rfl⟩
  obtain ⟨faults, registersAfter, watchAfter⟩ :=
    Bench.loadFrom_alike left.image.words left.image.origin.toNat registers watch
  have loaded := registersAfter.eq (Bench.loadFrom_memory left.image.words left.image.origin.toNat agree)
  rw [left.reset_eq, right.reset_eq, ← image, ← faults]
  refine ⟨rfl, ⟨?_, ?_⟩, rfl, rfl⟩
  · split
    · exact loaded
    · exact loaded
  · split
    · exact watchAfter
    · exact watchAfter.note _ _

namespace Twins

variable {left right : Session}

/-- A tick answers alike on twins, and leaves them twins. -/
theorem tick (twins : left.Twins right) : left.tick.1 = right.tick.1 ∧ left.tick.2.Twins right.tick.2 := by
  obtain ⟨_, stepped⟩ := (twins.bench.verbose left.verbose right.verbose).perform Machine.step
  rw [left.tick_eq, right.tick_eq, twins.bench.machine, twins.ticks]
  exact ⟨rfl, stepped, twins.image, rfl⟩

/-- A run answers alike on twins, and leaves them twins. -/
theorem run (twins : left.Twins right) (limit : Nat) :
    (left.run limit).1 = (right.run limit).1 ∧ (left.run limit).2.Twins (right.run limit).2 := by
  induction limit generalizing left right with
  | zero => exact ⟨rfl, twins⟩
  | succ limit ih =>
    obtain ⟨answers, ticked⟩ := twins.tick
    rw [run_succ, run_succ]
    -- Both first ticks succeed or both fail, so that both runs go on or both stop.
    generalize left.tick = leftTick at answers ticked ⊢
    generalize right.tick = rightTick at answers ticked ⊢
    obtain ⟨fault, leftNext⟩ := leftTick
    obtain ⟨otherFault, rightNext⟩ := rightTick
    obtain rfl : fault = otherFault := answers
    cases fault with
    | none => exact ih ticked
    | some fault => exact ⟨rfl, ticked⟩

/-- Every action returns the same for twins, and leaves them twins. -/
theorem act (twins : left.Twins right) (action : Action) :
    left.fault? action = right.fault? action ∧ (left.act action).Twins (right.act action) := by
  cases action with
  | reset =>
    refine reset_twins twins.image twins.bench.watch.attached twins.bench.watch.otherAttached ?_
    intro address _
    rw [twins.bench.machine]
  | tick => exact twins.tick
  | run limit => exact twins.run limit.toNat
  | operate operation =>
    have performed := twins.bench.perform operation.respond
    simp only [fault?, Session.act, operation.perform_eq_respond]
    exact ⟨performed.1, performed.2, twins.image, twins.ticks⟩
  | insert image => exact ⟨rfl, twins.bench, rfl, twins.ticks⟩
  | setVerbose verbose => exact ⟨rfl, twins.bench, twins.image, twins.ticks⟩

/-- No sequence of actions tells twins apart. -/
theorem transcript (twins : left.Twins right) (actions : List Action) :
    left.transcript actions = right.transcript actions := by
  induction actions generalizing left right with
  | nil => rfl
  | cons action rest ih =>
    obtain ⟨answers, acted⟩ := twins.act action
    rw [Session.transcript, Session.transcript, answers, acted.view, ih acted]

end Twins

/-- A reset leaves the memory outside the image alone. -/
theorem read_reset_outside (session : Session) {address : Address}
    (outside : ¬ (session.image.origin.toNat ≤ address.val ∧
      address.val < session.image.origin.toNat + session.image.words.length)) :
    session.reset.2.bench.machine.memory.read address = session.bench.machine.memory.read address := by
  have loaded := Bench.read_loadFrom session.image.words session.image.origin.toNat session.clearedBench address
  -- The note in the log does not concern the machine.
  have memory : session.reset.2.bench.machine.memory =
      (session.clearedBench.loadFrom session.image.origin.toNat session.image.words).2.machine.memory := by
    rw [session.reset_eq]
    dsimp only
    split <;> rfl
  rw [memory, loaded]
  split
  · rw [List.getElem?_eq_none (by omega)]
    rfl
  · rfl

/--
A reset forgets everything but the image and the memory outside it.

Whatever two sessions of the same image have been through, if their memories agree outside the image, a reset returns
the same for both and leaves them with the same machine, panel and count, and no later actions tell them apart. So a
second reset changes nothing.
-/
theorem reset_forgets (left right : Session) (image : left.image = right.image)
    (attached : left.bench.watch.subscriber = .panel) (otherAttached : right.bench.watch.subscriber = .panel)
    (agree : ∀ address : Address,
      ¬ (left.image.origin.toNat ≤ address.val ∧
        address.val < left.image.origin.toNat + left.image.words.length) →
      left.bench.machine.memory.read address = right.bench.machine.memory.read address) :
    left.reset.1 = right.reset.1 ∧ left.reset.2.view = right.reset.2.view ∧
      (∀ actions : List Action, left.reset.2.transcript actions = right.reset.2.transcript actions) ∧
      left.reset.2.reset.1 = left.reset.1 ∧ left.reset.2.reset.2.view = left.reset.2.view := by
  obtain ⟨faults, twins⟩ := reset_twins image attached otherAttached agree
  -- The session after a reset and the one before it agree outside the image too.
  have again : left.reset.2.reset.1 = left.reset.1 ∧ left.reset.2.reset.2.Twins left.reset.2 :=
    reset_twins rfl (reset_onPanel attached).follows.attached attached
      fun _ outside => left.read_reset_outside outside
  exact ⟨faults, twins.view, twins.transcript, again.1, again.2.view⟩

/-- An image that overruns memory fails to load in a used session as in a fresh one, and leaves both alike. -/
theorem reset_forgets_overrun :
    let image : Image := ⟨0x0FFE, [7, 8, 9]⟩
    let fresh : Session := { initial with image }
    let used : Session :=
      { initial with
        image, ticks := 5, verbose := true
        bench := ⟨{ Machine.initial with pc := 3, flags := .carry, memory := Memory.zero.write 0x0FFE 1 },
          { Watch.idle with subscriber := .panel, panel := ⟨Vector.replicate 18 2, ∅, 6⟩ }⟩ }
    fresh.image = used.image ∧
      (∀ address : Address, ¬ (0x0FFE ≤ address.val ∧ address.val < 0x0FFE + 3) →
        fresh.bench.machine.memory.read address = used.bench.machine.memory.read address) ∧
      fresh.reset.1.isSome ∧ used.reset.1 = fresh.reset.1 ∧ used.reset.2.view = fresh.reset.2.view ∧
      used.reset.2.transcript [.tick, .run 3, .reset] = fresh.reset.2.transcript [.tick, .run 3, .reset] := by
  intro image fresh used
  have agree : ∀ address : Address, ¬ (0x0FFE ≤ address.val ∧ address.val < 0x0FFE + 3) →
      fresh.bench.machine.memory.read address = used.bench.machine.memory.read address := by
    intro address outside
    -- The only word that differs is the first of the image.
    have apart : address ≠ 0x0FFE := by
      rintro rfl
      exact outside (by decide)
    exact ((Memory.read_write .zero 0x0FFE address 1).trans (if_neg apart)).symm
  obtain ⟨faults, views, later, _⟩ := reset_forgets fresh used rfl rfl rfl agree
  exact ⟨rfl, agree, by decide +kernel, faults.symm, views.symm, (later _).symm⟩

end Session

end StackMachine
