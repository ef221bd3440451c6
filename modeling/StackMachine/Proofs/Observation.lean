import StackMachine.Proofs.Bench

/-! Watching a machine never influences it, and the reports in its log are the same whoever watches. -/

namespace StackMachine

/-- Loading an image into two states that every write keeps related ends alike in both. -/
theorem Image.load_related {σ τ : Type} (related : σ → τ → Prop)
    (write : Word → Word → StateM σ (Option Fault)) (other : Word → Word → StateM τ (Option Fault))
    (keeps : ∀ address word left right, related left right →
      ((write address word).run left).1 = ((other address word).run right).1 ∧
        related ((write address word).run left).2 ((other address word).run right).2)
    (image : Image) (left : σ) (right : τ) (before : related left right) :
    ((image.load write).run left).1 = ((image.load other).run right).1 ∧
      related ((image.load write).run left).2 ((image.load other).run right).2 := by
  -- The induction is on the words that are left, from whatever number they are to be written.
  unfold load
  generalize image.origin.toNat = number
  induction image.words generalizing number left right with
  | nil => exact ⟨rfl, before⟩
  | cons word rest ih =>
    obtain ⟨alike, after⟩ := keeps (place number) word left right before
    rw [run_loadFrom_cons, run_loadFrom_cons]
    -- Both writes have the same result, so that both loads go on or both stop.
    generalize (write (place number) word).run left = written at alike after ⊢
    generalize (other (place number) word).run right = otherWritten at alike after ⊢
    obtain ⟨fault, leftNext⟩ := written
    obtain ⟨otherFault, rightNext⟩ := otherWritten
    obtain rfl : fault = otherFault := alike
    cases fault with
    | none => exact ih leftNext rightNext after (number + 1)
    | some fault => exact ⟨rfl, after⟩

namespace Machine

/-- Writes a word, and puts the events of that behind the events collected so far. -/
def collectWord (address word : Word) : StateM (Machine × List Event) (Option Fault) :=
  fun (machine, events) =>
    let response := machine.setWord address word
    (response.fault, response.machine, events ++ response.events)

/-- The response of a machine to the loading of an image: all the writes until one is refused. -/
def load (machine : Machine) (image : Image) : Response :=
  let (fault, final, events) := (image.load collectWord).run (machine, [])
  ⟨final, fault, events⟩

end Machine

namespace Operation

/-- The response of a machine to an operation. -/
def respond : Operation → Machine → Response
  | step, machine => machine.step
  | execute code, machine => machine.execute code
  | reset, machine => machine.reset
  | setWord address word, machine => machine.setWord address word
  | load image, machine => machine.load image

/-- An operation on a bench is the response of the machine alone, with its events handed to the watch. -/
theorem perform_eq_respond (operation : Operation) (bench : Bench) :
    operation.perform bench = bench.perform operation.respond := by
  cases operation with
  | step => rfl
  | execute code => rfl
  | reset => rfl
  | setWord address word => rfl
  | load image =>
    obtain ⟨machine, watch⟩ := bench
    -- At each point of the load the watch has taken in the events that were collected so far.
    let related (bench : Bench) (collected : Machine × List Event) : Prop :=
      bench = ⟨collected.1, watch.observeAll collected.2⟩
    have keeps : ∀ address word bench collected, related bench collected →
        (bench.setWord address word).1 = ((Machine.collectWord address word).run collected).1 ∧
          related (bench.setWord address word).2 ((Machine.collectWord address word).run collected).2 := by
      intro address word bench collected same
      obtain rfl : bench = ⟨collected.1, watch.observeAll collected.2⟩ := same
      refine ⟨rfl, ?_⟩
      show Bench.mk _ _ = Bench.mk _ (watch.observeAll (collected.2 ++ _))
      rw [Watch.observeAll_append]
      rfl
    obtain ⟨fault, final⟩ := Image.load_related related (fun address word => Bench.setWord address word)
      Machine.collectWord keeps image ⟨machine, watch⟩ (machine, []) rfl
    exact Prod.ext fault final

end Operation

/-- A request to a machine: an operation, or a look at a word of its memory. -/
inductive Request where
  | operate (operation : Operation)
  | word (address : Word)

/-- What comes back from a request: a fault, the word that was asked for, or nothing where none was. -/
abbrev Answer := Except Fault (Option Word)

/-- The answer to an operation, which asks for no word. -/
def Answer.ofFault : Option Fault → Answer
  | none => .ok none
  | some fault => .error fault

namespace Request

/-- Makes a request to the machine on a bench. -/
def perform : Request → Bench → Answer × Bench
  | operate operation, bench => (.ofFault (operation.perform bench).1, (operation.perform bench).2)
  | word address, bench => ((bench.machine.word address).map some, bench)

/-- The answer of a machine to a request. -/
def answer : Request → Machine → Answer
  | operate operation, machine => .ofFault (operation.respond machine).fault
  | word address, machine => (machine.word address).map some

/-- The machine after a request. -/
def after : Request → Machine → Machine
  | operate operation, machine => (operation.respond machine).machine
  | word _, machine => machine

/-- What a request makes the machine announce. -/
def events : Request → Machine → List Event
  | operate operation, machine => (operation.respond machine).events
  | word _, _ => []

/-- A request on a bench is answered by the machine alone, and its events go to the watch. -/
theorem perform_eq (request : Request) (bench : Bench) :
    request.perform bench = (request.answer bench.machine,
      ⟨request.after bench.machine, bench.watch.observeAll (request.events bench.machine)⟩) := by
  cases request with
  | word address => rfl
  | operate operation =>
    simp only [perform, operation.perform_eq_respond bench]
    rfl

end Request

/-- Whether an entry says that a subscriber did not accept a batch. -/
def LogEntry.isComplaint : LogEntry → Bool
  | subscriberFailed _ | subscriberCrashed _ => true
  | _ => false

/-- Whether an entry is neither a trace entry nor a complaint about a subscriber. -/
def LogEntry.isReport (entry : LogEntry) : Bool :=
  !entry.isTrace && !entry.isComplaint

/-- The entry of an event, if it is a report. -/
def Event.report? : Event → Option LogEntry
  | .log entry => if entry.isReport then some entry else none
  | .changes _ => none

namespace Watch

/-- The log without trace entries and without complaints about subscribers, the earliest entry first. -/
def reports (watch : Watch) : List LogEntry :=
  watch.log.reverse.filter LogEntry.isReport

/-- Reports are written to the log however it is watched, and no other entry counts. -/
theorem reports_note (watch : Watch) (entry : LogEntry) :
    (watch.note entry).reports = watch.reports ++ [entry].filter LogEntry.isReport := by
  unfold note
  split
  · -- An entry that is left out of the log is a trace entry, and none of those is a report.
    rename_i silent
    simp [LogEntry.isReport, silent.1]
  · simp only [reports, List.reverse_cons, List.filter_append]

/-- Whatever a subscriber makes of a batch adds no report. -/
theorem reports_noteVerdict (watch : Watch) (verdict : Verdict) :
    (watch.noteVerdict verdict).reports = watch.reports := by
  cases verdict with
  | accepted => rfl
  | failed message => simp [noteVerdict, reports_note, LogEntry.isReport, LogEntry.isComplaint]
  | crashed message => simp [noteVerdict, reports_note, LogEntry.isReport, LogEntry.isComplaint]

/-- An event adds its report, if it is one, whoever watches. -/
theorem reports_observe (watch : Watch) (event : Event) :
    (watch.observe event).reports = watch.reports ++ event.report?.toList := by
  cases event with
  | log entry =>
    rw [observe, reports_note]
    cases counts : entry.isReport <;> simp [Event.report?, counts]
  | changes batch =>
    simp only [observe, announce, Event.report?, Option.toList_none, List.append_nil]
    split
    · rfl
    · rw [reports_noteVerdict]
      rfl
    · rw [reports_noteVerdict]
      rfl

/--
A watch takes in events in order.

At any moment, between two events of one instruction too, everything about it but the log may be changed: how verbose it
is, who subscribes to it, and what the subscriber remembers.
-/
inductive TakesIn : Watch → List Event → Watch → Prop where
  | finished (watch : Watch) : TakesIn watch [] watch
  | event {watch final : Watch} {event : Event} {rest : List Event}
      (taken : TakesIn (watch.observe event) rest final) : TakesIn watch (event :: rest) final
  | changed {watch other final : Watch} {events : List Event} (kept : other.log = watch.log)
      (taken : TakesIn other events final) : TakesIn watch events final

/-- A watch that is left alone takes events in. -/
theorem takesIn_observeAll (watch : Watch) (events : List Event) :
    watch.TakesIn events (watch.observeAll events) := by
  induction events generalizing watch with
  | nil => exact .finished watch
  | cons event rest ih => exact .event (ih (watch.observe event))

/-- However a watch is changed in the meantime, exactly the reports among the events are added to its own. -/
theorem TakesIn.reports {watch final : Watch} {events : List Event} (taken : watch.TakesIn events final) :
    final.reports = watch.reports ++ events.filterMap Event.report? := by
  induction taken with
  | finished watch => simp
  | @event watch final event rest taken ih =>
    rw [ih, reports_observe, List.append_assoc]
    cases found : event.report? <;> simp [found]
  | changed kept taken ih =>
    rw [ih, Watch.reports, Watch.reports, kept]

end Watch

namespace Machine

/-- The entry of an instruction that asks for a report and finds a word on top of the stack. -/
def debugEntries (machine : Machine) (code : Code) : List LogEntry :=
  match code.instruction?, machine.stack.top with
  | some (.zero .debug _), .ok top => [.debug machine.status machine.pc top]
  | _, _ => []

/-- An operation that carries an address reports nothing. -/
theorem reports_addressOp (operation : AddressOp) (address : Address) (machine : Machine) :
    ((operation.micro address).run machine).2.filterMap Event.report? = [] := by
  cases operation with
  | load => rfl
  | store => rfl

/-- An operation that carries no address reports only if it is the one that asks for a report. -/
theorem reports_zeroOp (operation : ZeroOp) (operand : UInt8) (machine : Machine) :
    ((operation.micro operand).run machine).2.filterMap Event.report? =
      if operation = .debug then [.debug machine.status machine.pc (machine.stack.peek 0)] else [] := by
  -- No other operation writes to the log, and changes are no reports.
  cases operation with
  | debug => rfl
  | _ => rfl

/-- An instruction reports what its actions report, if the stack lets them run. -/
theorem reports_execute_check (machine : Machine) (code : Code) :
    (machine.execute code).events.filterMap Event.report? =
      match machine.stack.check code.demand with
      | .ok _ => (code.micro.run machine).2.filterMap Event.report?
      | .error _ => [] := by
  -- The trace entry in front and the batch at the end are no reports.
  unfold execute
  cases machine.stack.check code.demand with
  | error cause => rfl
  | ok passed =>
    simp only [List.cons_append, List.filterMap_cons, List.filterMap_append]
    simp [Event.report?, LogEntry.isReport, LogEntry.isTrace]

/-- An instruction reports exactly when it asks for it and finds a word on top of the stack. -/
theorem reports_execute (machine : Machine) (code : Code) :
    (machine.execute code).events.filterMap Event.report? = machine.debugEntries code := by
  rw [reports_execute_check, debugEntries]
  unfold Code.demand Code.micro
  cases code.instruction? with
  | none =>
    -- An unknown operation leaves a note, which is a trace entry.
    dsimp only
    split
    · simp [Micro.run, Event.report?, LogEntry.isReport, LogEntry.isTrace]
    · rfl
  | some instruction =>
    cases instruction with
    | addressed operation address =>
      dsimp only [Instruction.micro]
      rw [reports_addressOp]
      split <;> rfl
    | zero operation operand =>
      dsimp only [Instruction.micro, Instruction.demand]
      rw [reports_zeroOp]
      cases operation with
      | debug =>
        -- The demand of the report and the check of the top word are the same.
        dsimp only [ZeroOp.demand, Stack.top]
        cases machine.stack.check ⟨1, 0⟩ <;> rfl
      | _ => split <;> rfl

/-- Writing a word reports nothing, also when it is refused. -/
theorem reports_setWord (machine : Machine) (address word : Word) :
    (machine.setWord address word).events.filterMap Event.report? = [] := by
  unfold setWord
  split <;> rfl

/-- Loading an image reports nothing. -/
theorem reports_load (machine : Machine) (image : Image) :
    (machine.load image).events.filterMap Event.report? = [] := by
  -- None of the writes adds a report to the events collected before it.
  let silent (collected : Machine × List Event) : Prop := collected.2.filterMap Event.report? = []
  have keeps : ∀ address word collected, silent collected →
      silent ((collectWord address word).run collected).2 := by
    intro address word collected before
    show (collected.2 ++ (collected.1.setWord address word).events).filterMap Event.report? = []
    rw [List.filterMap_append, before, reports_setWord]
    rfl
  have start : silent (machine, []) := rfl
  exact image.load_keeps collectWord keeps (machine, []) start

end Machine

namespace Request

/-- The reports of a request: those of the instruction that it executes, if it executes one. -/
def debugEntries : Request → Machine → List LogEntry
  | operate .step, machine => machine.debugEntries machine.fetch
  | operate (.execute code), machine => machine.debugEntries code
  | operate .reset, _ | operate (.setWord _ _), _ | operate (.load _), _ | word _, _ => []

/-- A request announces no other reports than those of its instruction. -/
theorem reports_events (request : Request) (machine : Machine) :
    (request.events machine).filterMap Event.report? = request.debugEntries machine := by
  cases request with
  | word address => rfl
  | operate operation =>
    cases operation with
    | step => exact machine.reports_execute machine.fetch
    | execute code => exact machine.reports_execute code
    | reset => rfl
    | setWord address word => exact machine.reports_setWord address word
    | load image => exact machine.reports_load image

/-- The reports of requests made one after the other, in the order in which their instructions are executed. -/
def debugLog : Machine → List Request → List LogEntry
  | _, [] => []
  | machine, request :: rest => request.debugEntries machine ++ debugLog (request.after machine) rest

end Request

namespace Bench

/-- Makes requests one after the other, and returns each answer with the machine after it. -/
def performAll (bench : Bench) : List Request → List (Answer × Machine) × Bench
  | [] => ([], bench)
  | request :: rest =>
    let (answer, next) := request.perform bench
    let (answers, final) := next.performAll rest
    ((answer, next.machine) :: answers, final)

/--
A machine on the bench answers requests one after the other, each answer given with the machine after it.

How it is watched may be changed at any moment, before, within and after a request.
-/
inductive Runs : Bench → List Request → List (Answer × Machine) → Bench → Prop where
  | finished (bench : Bench) : Runs bench [] [] bench
  | request {bench final : Bench} {between : Watch} {request : Request} {rest : List Request}
      {answers : List (Answer × Machine)}
      (taken : bench.watch.TakesIn (request.events bench.machine) between)
      (run : Runs ⟨request.after bench.machine, between⟩ rest answers final) :
      Runs bench (request :: rest) ((request.answer bench.machine, request.after bench.machine) :: answers) final

/-- A bench whose watch is left alone answers requests. -/
theorem runs_performAll (bench : Bench) (requests : List Request) :
    Runs bench requests (bench.performAll requests).1 (bench.performAll requests).2 := by
  induction requests generalizing bench with
  | nil => exact .finished bench
  | cons request rest ih =>
    simp only [performAll, request.perform_eq bench]
    exact .request (bench.watch.takesIn_observeAll _) (ih _)

namespace Runs

variable {bench final : Bench} {requests : List Request} {answers : List (Answer × Machine)}

/-- Runs that start from the same machine give the same answers and leave the same machine, request by request. -/
theorem unique (run : Runs bench requests answers final) {other otherFinal : Bench}
    {otherAnswers : List (Answer × Machine)} (otherRun : Runs other requests otherAnswers otherFinal)
    (same : other.machine = bench.machine) :
    otherAnswers = answers ∧ otherFinal.machine = final.machine := by
  induction run generalizing other otherAnswers with
  | finished bench =>
    cases otherRun
    exact ⟨rfl, same⟩
  | @request bench final between request rest answers taken run ih =>
    cases otherRun with
    | request otherTaken otherRest =>
      -- Neither the answer nor the machine after it takes the watch into account.
      have next : request.after other.machine = request.after bench.machine := by rw [same]
      obtain ⟨restSame, finalSame⟩ := ih otherRest next
      exact ⟨by rw [same, restSame], finalSame⟩

/-- The reports that a run adds to the log are those of the instructions it executes, in order. -/
theorem reports (run : Runs bench requests answers final) :
    final.watch.reports = bench.watch.reports ++ Request.debugLog bench.machine requests := by
  induction run with
  | finished bench => simp [Request.debugLog]
  | @request bench final between request rest answers taken run ih =>
    -- The watch between this request and the next holds the reports of this one.
    rw [ih, taken.reports, request.reports_events, Request.debugLog, List.append_assoc]

end Runs

/--
However two machines in the same state are watched, they answer the same requests alike.

After each request they are in the same state again, and that is how any bench answers whose watch is left alone.
Their logs, without trace entries and without complaints about subscribers, gain the same entries: those of the
instructions that asked for a report, in the order of execution.
-/
theorem runs_agree (machine : Machine) {left right : Watch} {leftFinal rightFinal : Bench}
    {requests : List Request} {leftAnswers rightAnswers : List (Answer × Machine)}
    (leftRun : Runs ⟨machine, left⟩ requests leftAnswers leftFinal)
    (rightRun : Runs ⟨machine, right⟩ requests rightAnswers rightFinal) :
    leftAnswers = rightAnswers ∧ leftFinal.machine = rightFinal.machine ∧
      (∀ watch : Watch, ((⟨machine, watch⟩ : Bench).performAll requests).1 = leftAnswers) ∧
      leftFinal.watch.reports = left.reports ++ Request.debugLog machine requests ∧
      rightFinal.watch.reports = right.reports ++ Request.debugLog machine requests := by
  obtain ⟨answers, machines⟩ := rightRun.unique leftRun rfl
  refine ⟨answers, machines, ?_, leftRun.reports, rightRun.reports⟩
  -- Leaving the watch alone is one of the ways to watch.
  intro watch
  exact (leftRun.unique (runs_performAll ⟨machine, watch⟩ requests) rfl).1

/-- A verbose log and a subscriber that breaks off and leaves do not touch a report or a load that fails. -/
theorem runs_agree_crashing :
    let loud : Watch := { Watch.idle with verbose := true, subscriber := .tap fun _ => ⟨.crashed [0x21], true⟩ }
    let requests : List Request := [.operate (.execute ⟨0x1005⟩), .operate (.execute ⟨0x0F00⟩),
      .operate (.load ⟨0x0FFF, [7, 8]⟩), .word 0x0FFF, .operate (.execute ⟨0x2000⟩)]
    let left := (⟨.initial, .idle⟩ : Bench).performAll requests
    let right := (⟨.initial, loud⟩ : Bench).performAll requests
    left.1 = right.1 ∧ left.2.watch.reports = [.debug 0 1 5] ∧ right.2.watch.reports = [.debug 0 1 5] ∧
      right.2.watch.log.length = 6 := by
  intro loud requests left right
  obtain ⟨answers, _, _, quiet, noisy⟩ := runs_agree .initial (runs_performAll ⟨.initial, .idle⟩ requests)
    (runs_performAll ⟨.initial, loud⟩ requests)
  have reported : Request.debugLog .initial requests = [.debug 0 1 5] := by decide +kernel
  refine ⟨answers, ?_, ?_, by decide +kernel⟩
  · rw [quiet, reported]
    rfl
  · rw [noisy, reported]
    rfl

end Bench

end StackMachine
