import StackMachine.Proofs.Machine.Frame
import StackMachine.Proofs.Observation
import StackMachine.Proofs.Watch

/-!
Which batches an instruction announces, in which order, and from which moment each of them is taken.

A subscriber sees the stacks in the middle of an instruction too. Each of them is well formed, and no batch of any
operation names a register that does not exist.
-/

namespace StackMachine

/-- A primitive change that an instruction makes. -/
inductive Touch where
  | push (word : Word)
  | pop
  | write (address : Address) (word : Word)
  deriving DecidableEq

/-- The changes of an operation that carries an address, in order. -/
def AddressOp.touches (address : Address) (before : Contents) : AddressOp → List Touch
  | load => [.push (before.memory address)]
  | store => [.pop, .write address (before.words.getD 0 0)]

/-- The changes of an operation that carries no address, in order. -/
def ZeroOp.touches (operand : UInt8) (before : Contents) (operation : ZeroOp) : List Touch :=
  -- An operation that finds no such word is refused, so that the zero in its place never counts.
  let top := before.words.getD 0 0
  let below := before.words.getD 1 0
  match operation with
  | nop | compare | debug => []
  | push => [.push operand.toUInt16]
  | pushHigh => [.pop, .push (operand.toNat * 256 + top.toNat % 256).toUInt16]
  | drop => [.pop]
  | dup => [.push top]
  | swap => [.pop, .pop, .push top, .push below]
  | copyBelow => [.push below]
  | add => [.pop, .pop, .push (below + top)]
  | sub => [.pop, .pop, .push (below - top)]
  | loadIndirect => [.pop, .push (before.memory (.ofWord top))]
  | storeIndirect => [.pop, .pop, .write (.ofWord top) below]

/-- The changes of a word, in order; an unknown operation makes none. -/
def Code.touches (code : Code) (before : Contents) : List Touch :=
  match code.instruction? with
  | some (.addressed operation address) => operation.touches address before
  | some (.zero operation operand) => operation.touches operand before
  | none => []

/-- How many batches an operation that carries an address announces. -/
def AddressOp.batchCount : AddressOp → Nat
  | load => 2
  | store => 3

/-- How many batches an operation that carries no address announces. -/
def ZeroOp.batchCount : ZeroOp → Nat
  | nop | compare | debug => 1
  | push | drop | dup | copyBelow => 2
  | pushHigh | loadIndirect => 3
  | add | sub | storeIndirect => 4
  | swap => 5

/-- How many batches a word announces when it is not refused. -/
def Code.batchCount (code : Code) : Nat :=
  match code.instruction? with
  | some (.addressed operation _) => operation.batchCount
  | some (.zero operation _) => operation.batchCount
  | none => 1

/-- Every change has its batch, and the program counter has the last one. -/
theorem Code.length_touches (code : Code) (before : Contents) :
    (code.touches before).length + 1 = code.batchCount := by
  unfold Code.touches Code.batchCount
  cases code.instruction? with
  | none => rfl
  | some instruction =>
    cases instruction with
    | addressed operation address => cases operation <;> rfl
    | zero operation operand => cases operation <;> rfl

/-- The sixteen slots in order, and then the stack pointer. -/
def Stack.snapshot (stack : Stack) : Batch :=
  (List.range 16).map (fun slot => ⟨.register, slot.toUInt16, stack.slots.getD slot 0⟩) ++
    [⟨.register, 17, stack.depth.toUInt16⟩]

/-- The batch that a machine announces of its stack is the snapshot of the stack. -/
theorem Machine.stackBatch_eq (machine : Machine) : machine.stackBatch = machine.stack.snapshot := by
  -- Both lists of slots have sixteen entries, and each entry is made from its index.
  have slots : (machine.stack.slots.toList.mapIdx fun slot word => (⟨.register, slot.toUInt16, word⟩ : Change)) =
      (List.range 16).map fun slot => ⟨.register, slot.toUInt16, machine.stack.slots.getD slot 0⟩ := by
    apply List.ext_getElem
    · simp
    · intro slot inside _
      have small : slot < 16 := by simpa using inside
      simp [Vector.getD, small]
  rw [stackBatch, slots]
  rfl

/-- What changes are announced of: the stack and the memory at one moment. -/
structure Moment where
  stack : Stack
  memory : Memory

/-- The stack and the memory of a machine. -/
def Machine.moment (machine : Machine) : Moment :=
  ⟨machine.stack, machine.memory⟩

/--
Changes made in order from one moment to another, and the batches that announce them.

Every push and every pop is announced by a snapshot of the stack right after it, and every write by the word just
written.
-/
inductive Announced : Moment → List Touch → List Batch → Moment → Prop where
  | finished (moment : Moment) : Announced moment [] [] moment
  | push {before after : Moment} {word : Word} {rest : List Touch} {batches : List Batch}
      (room : before.stack.depth < Stack.capacity)
      (later : Announced ⟨before.stack.pushUnchecked word, before.memory⟩ rest batches after) :
      Announced before (.push word :: rest) ((before.stack.pushUnchecked word).snapshot :: batches) after
  | pop {before after : Moment} {rest : List Touch} {batches : List Batch} (there : 1 ≤ before.stack.depth)
      (later : Announced ⟨before.stack.popUnchecked.2, before.memory⟩ rest batches after) :
      Announced before (.pop :: rest) (before.stack.popUnchecked.2.snapshot :: batches) after
  | write {before after : Moment} {address : Address} {word : Word} {rest : List Touch} {batches : List Batch}
      (later : Announced ⟨before.stack, before.memory.write address word⟩ rest batches after) :
      Announced before (.write address word :: rest) ([⟨.memory, address.toWord, word⟩] :: batches) after

namespace Announced

variable {before after : Moment} {touches : List Touch} {batches : List Batch}

/-- There is one batch for each change. -/
theorem length (announced : Announced before touches batches after) : batches.length = touches.length := by
  induction announced with
  | finished moment => rfl
  | push _ _ ih | pop _ _ ih | write _ ih => rw [List.length_cons, List.length_cons, ih]

/-- From a well-formed stack on, every batch shows a well-formed stack or a word of memory. -/
theorem shape (announced : Announced before touches batches after) (formed : before.stack.WellFormed) :
    ∀ batch ∈ batches, (∃ stack : Stack, stack.WellFormed ∧ batch = stack.snapshot) ∨
      ∃ address word : Word, address.toNat < 4096 ∧ batch = [⟨.memory, address, word⟩] := by
  induction announced with
  | finished moment => exact List.forall_mem_nil _
  | @push _ _ word _ _ room _ ih =>
    have grown := formed.pushUnchecked room word
    exact List.forall_mem_cons.mpr ⟨.inl ⟨_, grown, rfl⟩, ih grown⟩
  | pop _ _ ih =>
    -- A pop clears the slot that it leaves, so that the snapshot shows no word above the stack.
    have shrunk := formed.popUnchecked
    exact List.forall_mem_cons.mpr ⟨.inl ⟨_, shrunk, rfl⟩, ih shrunk⟩
  | @write _ _ address _ _ _ _ ih =>
    have inside : address.toWord.toNat < 4096 := by
      rw [← Address.val_of_named address.ofWord?_toWord]
      exact address.isLt
    exact List.forall_mem_cons.mpr ⟨.inr ⟨_, _, inside, rfl⟩, ih formed⟩

end Announced

/-- The changes among some actions, in order, when they meet certain contents. -/
def Micro.touches : Micro → Contents → List Touch
  | done, _ => []
  | push word next, before => .push word :: next.touches { before with words := word :: before.words }
  | pop next, before => .pop :: (next (before.words.getD 0 0)).touches { before with words := before.words.tail }
  | top next, before => (next (before.words.getD 0 0)).touches before
  | second next, before => (next (before.words.getD 1 0)).touches before
  | read address next, before => (next (before.memory address)).touches before
  | write address word next, before =>
    .write address word :: next.touches { before with memory := Contents.written before.memory address.val word }
  | flag change next, before => next.touches { before with flags := change before.flags }
  | report _ next, before => next.touches before
  | unknown _ next, before => next.touches before

/-- The actions of a word make the changes that are listed for it. -/
theorem Code.micro_touches (code : Code) (before : Contents) : code.micro.touches before = code.touches before := by
  -- A second pop finds the word that was below the top.
  have below : before.words.tail.getD 0 0 = before.words.getD 1 0 := by
    rw [List.getD_eq_getElem?_getD, List.getElem?_tail, List.getD_eq_getElem?_getD]
  unfold Code.touches Code.micro
  cases code.instruction? with
  | none => rfl
  | some instruction =>
    cases instruction with
    | addressed operation address => cases operation <;> rfl
    | zero operation operand =>
      cases operation <;> simp only [Instruction.micro, ZeroOp.micro, Micro.touches, ZeroOp.touches, below]

/-- The batch of an event, if it is one that announces changes. -/
def Event.batch? : Event → Option Batch
  | .log _ => none
  | .changes batch => some batch

/-- The batches among some events, in order. -/
def Event.batches (events : List Event) : List Batch :=
  events.filterMap Event.batch?

/-- An entry for the log is no batch. -/
@[simp] theorem Event.batches_log (entry : LogEntry) (events : List Event) :
    Event.batches (.log entry :: events) = Event.batches events := rfl

/-- Changes that are announced together are the first batch. -/
@[simp] theorem Event.batches_changes (batch : Batch) (events : List Event) :
    Event.batches (.changes batch :: events) = batch :: Event.batches events := rfl

/-- Actions that the stack allows announce their changes one by one. -/
theorem Micro.run_announced {final : Nat} (micro : Micro) :
    ∀ machine : Machine, machine.stack.depth ≤ Stack.capacity → micro.Reaches machine.stack.depth (.ok final) →
      Announced machine.moment (micro.touches machine.contents) (Event.batches (micro.run machine).2)
        (micro.run machine).1.moment := by
  -- The induction is on the actions; each leaves the moment and the contents that the rest starts from.
  induction micro with
  | done =>
    intro machine _ _
    exact .finished machine.moment
  | push word next ih =>
    intro machine _ reaches
    obtain ⟨room, reaches⟩ := reaches.push
    have rest := ih (machine.withStack (machine.stack.pushUnchecked word)) room reaches
    rw [Machine.contents_push room] at rest
    simp only [run, Event.batches_changes, Machine.stackBatch_eq]
    exact .push room rest
  | pop next ih =>
    intro machine bounded reaches
    obtain ⟨there, reaches⟩ := reaches.pop
    have rest := ih machine.stack.popUnchecked.1 (machine.withStack machine.stack.popUnchecked.2)
      (Stack.depth_popUnchecked_le bounded) (reaches _)
    rw [Machine.contents_pop bounded there]
    simp only [run, Event.batches_changes, Machine.stackBatch_eq]
    exact .pop there rest
  | top next ih =>
    intro machine bounded reaches
    obtain ⟨there, reaches⟩ := reaches.top
    -- A look at the stack announces nothing.
    have found : machine.contents.words.getD 0 0 = machine.stack.peek 0 := by
      rw [List.getD_eq_getElem?_getD, Machine.contents_peek bounded there, Option.getD_some]
    rw [touches, found]
    exact ih _ machine bounded (reaches _)
  | second next ih =>
    intro machine bounded reaches
    obtain ⟨there, reaches⟩ := reaches.second
    have found : machine.contents.words.getD 1 0 = machine.stack.peek 1 := by
      rw [List.getD_eq_getElem?_getD, Machine.contents_peek bounded there, Option.getD_some]
    rw [touches, found]
    exact ih _ machine bounded (reaches _)
  | read address next ih =>
    intro machine bounded reaches
    exact ih _ machine bounded (reaches _)
  | write address word next ih =>
    intro machine bounded reaches
    have rest := ih (machine.withWord address word) bounded reaches
    rw [Machine.contents_withWord] at rest
    exact .write rest
  | flag change next ih =>
    intro machine bounded reaches
    exact ih { machine with flags := change machine.flags } bounded reaches
  | report word next ih =>
    intro machine bounded reaches
    exact ih machine bounded reaches
  | unknown code next ih =>
    intro machine bounded reaches
    exact ih machine bounded reaches

namespace Machine

/-- A refused instruction announces nothing. -/
theorem batches_refused {machine : Machine} (bounded : machine.stack.depth ≤ Stack.capacity) {code : Code}
    {fault : Fault} (refused : (machine.execute code).fault = some fault) :
    Event.batches (machine.execute code).events = [] := by
  rcases execute_cases bounded code with ⟨cause, _, executed⟩ | ⟨_, _, executed⟩
  · rw [executed]
    rfl
  · rw [executed] at refused
    cases refused

/-- An instruction that is not refused announces its changes one by one, and at last the new program counter. -/
theorem execute_announced {machine : Machine} (bounded : machine.stack.depth ≤ Stack.capacity) {code : Code}
    (passed : (machine.execute code).fault = none) :
    ∃ batches, Event.batches (machine.execute code).events = batches ++ [[⟨.register, 16, machine.pc + 1⟩]] ∧
      Announced machine.moment (code.touches machine.contents) batches (machine.execute code).machine.moment ∧
      (machine.execute code).machine.pc = machine.pc + 1 := by
  obtain ⟨reaches, executed⟩ := execute_of_passed bounded passed
  have announced := code.micro.run_announced machine bounded reaches
  rw [code.micro_touches] at announced
  refine ⟨Event.batches (code.micro.run machine).2, ?_, ?_, ?_⟩
  · -- The trace entry comes before the actions, and the program counter after them.
    rw [executed]
    simp only [completed, List.cons_append, Event.batches_log]
    exact List.filterMap_append
  · rw [executed]
    exact announced
  · rw [executed]
    rfl

end Machine

namespace Watch

/-- An entry in the log does not concern what a tap has received. -/
@[simp] theorem received_note (watch : Watch) (entry : LogEntry) : (watch.note entry).received = watch.received := by
  unfold note
  split
  · rfl
  · rfl

/-- A tap that does not leave receives every batch and stays. -/
theorem announce_tap {watch : Watch} {reply : List Batch → Reply} (attached : watch.subscriber = .tap reply)
    (stays : ∀ received, (reply received).leaves = false) (batch : Batch) :
    (watch.announce batch).subscriber = .tap reply ∧ (watch.announce batch).received = batch :: watch.received := by
  simp only [announce, attached, stays, Bool.false_eq_true, if_false]
  -- What the tap makes of the batch ends up in the log only.
  cases (reply (batch :: watch.received)).verdict with
  | accepted => exact ⟨rfl, rfl⟩
  | failed message | crashed message => simp only [noteVerdict, subscriber_note, received_note, and_self]

/-- A tap that does not leave receives all batches in order. -/
theorem received_observeAll {reply : List Batch → Reply} (stays : ∀ received, (reply received).leaves = false)
    (events : List Event) {watch : Watch} (attached : watch.subscriber = .tap reply) :
    (watch.observeAll events).received = (Event.batches events).reverse ++ watch.received := by
  induction events generalizing watch with
  | nil => rfl
  | cons event rest ih =>
    cases event with
    | log entry =>
      have noted : (watch.note entry).subscriber = .tap reply := (watch.subscriber_note entry).trans attached
      have later := ih noted
      rw [received_note] at later
      exact later
    | changes batch =>
      obtain ⟨still, taken⟩ := announce_tap attached stays batch
      have later := ih still
      rw [taken] at later
      rw [Event.batches_changes, List.reverse_cons, List.append_assoc]
      exact later

end Watch

/-- An event that no panel complains about: its registers exist, and it is no complaint itself. -/
def Event.Proper : Event → Prop
  | .log entry => entry.isComplaint = false
  | .changes batch => ∀ change ∈ batch, Panel.changeFault? change = none

namespace Machine

/-- A batch of the stack names the slots and the stack pointer. -/
theorem stackBatch_proper (machine : Machine) : ∀ change ∈ machine.stackBatch, Panel.changeFault? change = none := by
  intro change listed
  simp only [stackBatch, List.mem_append, List.mem_mapIdx, List.mem_singleton, Vector.length_toList] at listed
  rcases listed with ⟨slot, inside, rfl⟩ | rfl
  · -- The number of a slot is below the number of registers.
    have number : slot.toUInt16.toNat = slot := UInt16.toNat_ofNat_of_lt (Nat.lt_trans inside (by decide))
    have limit : Register.count = 18 := rfl
    simp only [Panel.changeFault?, number]
    rw [if_neg (by omega)]
  · rfl

/-- A batch of the program counter names that register. -/
theorem pcBatch_proper (machine : Machine) : ∀ change ∈ machine.pcBatch, Panel.changeFault? change = none := by
  intro change listed
  rw [pcBatch, List.mem_singleton] at listed
  rw [listed]
  rfl

end Machine

/-- No action announces a register that does not exist. -/
theorem Micro.run_proper (micro : Micro) (machine : Machine) : ∀ event ∈ (micro.run machine).2, event.Proper := by
  induction micro generalizing machine with
  | done => exact List.forall_mem_nil _
  | push word next ih => exact List.forall_mem_cons.mpr ⟨Machine.stackBatch_proper _, ih _⟩
  | pop next ih => exact List.forall_mem_cons.mpr ⟨Machine.stackBatch_proper _, ih _ _⟩
  | top next ih => exact ih _ machine
  | second next ih => exact ih _ machine
  | read address next ih => exact ih _ machine
  -- A word of memory is never a register.
  | write address word next ih => exact List.forall_mem_cons.mpr ⟨List.forall_mem_singleton.mpr rfl, ih _⟩
  | flag change next ih => exact ih _
  | report word next ih => exact List.forall_mem_cons.mpr ⟨rfl, ih _⟩
  | unknown code next ih => exact List.forall_mem_cons.mpr ⟨rfl, ih _⟩

namespace Machine

/-- An instruction gives no panel a reason to complain. -/
theorem execute_proper (machine : Machine) (code : Code) : ∀ event ∈ (machine.execute code).events, event.Proper := by
  unfold execute
  cases machine.stack.check code.demand with
  | error cause => exact List.forall_mem_singleton.mpr rfl
  | ok passed =>
    intro event listed
    simp only [List.mem_append, List.mem_cons, List.not_mem_nil, or_false] at listed
    rcases listed with (rfl | ran) | rfl
    · rfl
    · exact code.micro.run_proper machine event ran
    · exact pcBatch_proper _

/-- Writing a word gives no panel a reason to complain, also when it is refused. -/
theorem setWord_proper (machine : Machine) (address word : Word) :
    ∀ event ∈ (machine.setWord address word).events, event.Proper := by
  unfold setWord
  split
  · exact List.forall_mem_singleton.mpr (List.forall_mem_singleton.mpr rfl)
  · exact List.forall_mem_singleton.mpr rfl

/-- Loading an image gives no panel a reason to complain, wherever it stops. -/
theorem load_proper (machine : Machine) (image : Image) : ∀ event ∈ (machine.load image).events, event.Proper := by
  -- Every write keeps the events collected so far and adds its own.
  let proper (collected : Machine × List Event) : Prop := ∀ event ∈ collected.2, event.Proper
  have keeps : ∀ address word collected, proper collected → proper ((collectWord address word).run collected).2 := by
    intro address word collected before event listed
    rcases List.mem_append.mp listed with earlier | added
    · exact before event earlier
    · exact collected.1.setWord_proper address word event added
  exact image.load_keeps collectWord keeps (machine, []) (List.forall_mem_nil _)

end Machine

namespace Operation

/-- No operation announces a register that does not exist. -/
theorem respond_proper (operation : Operation) (machine : Machine) :
    ∀ event ∈ (operation.respond machine).events, event.Proper := by
  cases operation with
  | step => exact machine.execute_proper machine.fetch
  | execute code => exact machine.execute_proper code
  | reset =>
    intro event listed
    simp only [respond, Machine.reset, List.mem_cons, List.not_mem_nil, or_false] at listed
    rcases listed with rfl | rfl
    · rfl
    · exact List.forall_mem_append.mpr ⟨Machine.stackBatch_proper _, Machine.pcBatch_proper _⟩
  | setWord address word => exact machine.setWord_proper address word
  | load image => exact machine.load_proper image

/-- The batches that operations announce one after the other. -/
def batches : Machine → List Operation → List Batch
  | _, [] => []
  | machine, operation :: rest =>
    Event.batches (operation.respond machine).events ++ batches (operation.respond machine).machine rest

end Operation

namespace Panel

/-- A panel takes a batch without a fault if all registers in it exist. -/
theorem update_proper (panel : Panel) {batch : Batch} (proper : ∀ change ∈ batch, changeFault? change = none) :
    (panel.update batch).1 = none := by
  -- There is nothing to join where no change has a fault.
  have silent : (batch.map changeFault?).filterMap id = [] := by
    rw [List.filterMap_eq_nil_iff]
    intro fault listed
    obtain ⟨change, within, rfl⟩ := List.mem_map.mp listed
    exact proper change within
  rw [update, Fault.join, silent]

end Panel

namespace Watch

/-- The complaints about subscribers in the log. -/
def complaints (watch : Watch) : List LogEntry :=
  watch.log.filter LogEntry.isComplaint

/-- An attached panel stays attached and complains about no proper event. -/
theorem complaints_observe {watch : Watch} (attached : watch.subscriber = .panel) {event : Event}
    (proper : event.Proper) :
    (watch.observe event).subscriber = .panel ∧ (watch.observe event).complaints = watch.complaints := by
  cases event with
  | log entry =>
    refine ⟨(watch.subscriber_note entry).trans attached, ?_⟩
    simp only [observe, note, complaints]
    split
    · rfl
    · exact List.filter_cons_of_neg (by rw [proper]; exact Bool.false_ne_true)
  | changes batch =>
    -- The panel has no fault to report, so that nothing is noted.
    simp only [observe, announce, attached, Panel.update_proper _ proper]
    exact ⟨rfl, rfl⟩

/-- An attached panel stays attached through proper events, and no complaint is added to the log. -/
theorem complaints_observeAll {watch : Watch} (attached : watch.subscriber = .panel) {events : List Event}
    (proper : ∀ event ∈ events, event.Proper) :
    (watch.observeAll events).subscriber = .panel ∧ (watch.observeAll events).complaints = watch.complaints := by
  induction events generalizing watch with
  | nil => exact ⟨attached, rfl⟩
  | cons event rest ih =>
    obtain ⟨first, later⟩ := List.forall_mem_cons.mp proper
    obtain ⟨still, silent⟩ := complaints_observe attached first
    obtain ⟨final, quiet⟩ := ih still later
    exact ⟨final, quiet.trans silent⟩

end Watch

namespace Operation

/-- Every batch of a run is one that any panel takes without a fault. -/
theorem batches_proper (operations : List Operation) (machine : Machine) :
    ∀ batch ∈ batches machine operations, ∀ panel : Panel, (panel.update batch).1 = none := by
  induction operations generalizing machine with
  | nil => exact List.forall_mem_nil _
  | cons operation rest ih =>
    intro batch listed panel
    rcases List.mem_append.mp listed with first | later
    · obtain ⟨event, within, announced⟩ := List.mem_filterMap.mp first
      cases event with
      | log entry => cases announced
      | changes own =>
        cases announced
        exact panel.update_proper (operation.respond_proper machine _ within)
    · exact ih _ batch later panel

end Operation

namespace Bench

/-- Operations add no complaint to the log of an attached panel. -/
theorem complaints_actAll (operations : List Operation) {bench : Bench}
    (attached : bench.watch.subscriber = .panel) :
    (bench.actAll (operations.map .operate)).watch.complaints = bench.watch.complaints := by
  induction operations generalizing bench with
  | nil => rfl
  | cons operation rest ih =>
    obtain ⟨still, silent⟩ := Watch.complaints_observeAll attached (operation.respond_proper bench.machine)
    -- The watch after the first operation is the one that has taken in its events.
    have performed : (bench.act (.operate operation)).watch =
        bench.watch.observeAll (operation.respond bench.machine).events := by
      rw [act, operation.perform_eq_respond]
      rfl
    rw [← performed] at still silent
    exact (ih still).trans silent

/--
What a subscriber that stays is told about an instruction.

A refused instruction announces nothing. Any other announces each push, pop and write by one batch, in the order of
execution, and at last the new program counter; each stack it shows is well formed, and each word lies in memory. The
number of batches is fixed by the operation. Over any operations no panel finds a register that does not exist, so that
an attached panel leaves no complaint in the log.
-/
theorem execute_announces (machine : Machine) (formed : machine.stack.WellFormed) (code : Code) :
    (∀ (watch : Watch) (reply : List Batch → Reply), watch.subscriber = .tap reply →
      (∀ received, (reply received).leaves = false) →
      let fault := ((⟨machine, watch⟩ : Bench).execute code).1
      let after := ((⟨machine, watch⟩ : Bench).execute code).2
      (fault.isSome → after.watch.received = watch.received) ∧
      (fault = none → ∃ batches,
        after.watch.received = (batches ++ [[⟨.register, 16, machine.pc + 1⟩]]).reverse ++ watch.received ∧
        after.machine.pc = machine.pc + 1 ∧
        Announced machine.moment (code.touches machine.contents) batches after.machine.moment ∧
        (∀ batch ∈ batches, (∃ stack : Stack, stack.WellFormed ∧ batch = stack.snapshot) ∨
          ∃ address word : Word, address.toNat < 4096 ∧ batch = [⟨.memory, address, word⟩]) ∧
        batches.length + 1 = code.batchCount)) ∧
    ∀ operations : List Operation,
      (∀ batch ∈ Operation.batches machine operations, ∀ panel : Panel, (panel.update batch).1 = none) ∧
      ∀ watch : Watch, watch.subscriber = .panel →
        ((⟨machine, watch⟩ : Bench).actAll (operations.map .operate)).watch.complaints = watch.complaints := by
  refine ⟨?_, ?_⟩
  · intro watch reply attached stays fault after
    have received := Watch.received_observeAll stays (machine.execute code).events attached
    refine ⟨?_, ?_⟩
    · intro faulted
      obtain ⟨fault, refused⟩ := Option.isSome_iff_exists.mp faulted
      rw [Machine.batches_refused formed.bounded refused] at received
      exact received
    · intro passed
      obtain ⟨batches, all, announced, pc⟩ := Machine.execute_announced formed.bounded passed
      rw [all] at received
      refine ⟨batches, received, pc, announced, announced.shape formed, ?_⟩
      rw [announced.length, code.length_touches]
  · intro operations
    refine ⟨Operation.batches_proper operations machine, ?_⟩
    intro watch attached
    exact complaints_actAll operations attached

/-- An exchange of two words is announced in five batches, also to a subscriber that fails at each of them. -/
theorem execute_announces_swap :
    let stack := (Stack.empty.pushUnchecked 7).pushUnchecked 9
    let bench : Bench :=
      ⟨Machine.initial.withStack stack, { Watch.idle with subscriber := .tap fun _ => ⟨.failed [0x21], false⟩ }⟩
    let after := (bench.execute ⟨0x1800⟩).2
    stack.WellFormed ∧ (bench.execute ⟨0x1800⟩).1 = none ∧
      ∃ batches, after.watch.received = (batches ++ [[⟨.register, 16, 1⟩]]).reverse ∧
        Announced ⟨stack, .zero⟩ [.pop, .pop, .push 9, .push 7] batches after.machine.moment ∧
        batches.length + 1 = 5 := by
  intro stack bench after
  have formed : stack.WellFormed :=
    (Stack.WellFormed.empty.pushUnchecked (by decide) 7).pushUnchecked (by decide) 9
  have passed : (bench.execute ⟨0x1800⟩).1 = none := rfl
  obtain ⟨_, told⟩ := (execute_announces (Machine.initial.withStack stack) formed ⟨0x1800⟩).1 bench.watch _ rfl
    fun _ => rfl
  obtain ⟨batches, received, _, announced, _, count⟩ := told passed
  have touches : (⟨0x1800⟩ : Code).touches (Machine.initial.withStack stack).contents =
      [.pop, .pop, .push 9, .push 7] := by decide +kernel
  rw [touches] at announced
  exact ⟨formed, passed, batches, received.trans (List.append_nil _), announced, count⟩

end Bench

end StackMachine
