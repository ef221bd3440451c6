import StackMachine.Proofs.Feed.Iterator
import StackMachine.Proofs.Machine.Tables
import StackMachine.Proofs.Observation
import StackMachine.Proofs.Panel
import StackMachine.Proofs.Panel.Loop

/-!
Operations that hand out each event where it arises, between two actions of one instruction.

Whoever listens hears an event before the machine goes on, and may by then be somebody else than for the event before.
The operations end as they do when all their events are handed out afterwards.
-/

namespace StackMachine

/-! ### Listening -/

/-- How a subscriber with a verdict ends: it returns a failure or none, or it breaks off. -/
def Verdict.settle : Verdict → ExceptT Bytes (StateM Watch) (Option Bytes)
  | accepted => return none
  | failed message => return some message
  | crashed message => throw message

namespace Watch

/-- Calls the subscriber with a batch. -/
def call (batch : Batch) : ExceptT Bytes (StateM Watch) (Option Bytes) := do
  let watch ← get
  match watch.subscriber with
  | .nobody => return none
  | .panel =>
    -- The panel returns a fault only when it has been through the whole batch.
    let (fault, panel) := watch.panel.loop batch
    set { watch with panel }
    return fault.map Fault.message
  | .tap reply =>
    let received := batch :: watch.received
    let answer := reply received
    -- A subscriber that leaves is gone also if it goes on to fail or to break off.
    set { watch with received, subscriber := if answer.leaves then .nobody else watch.subscriber }
    answer.verdict.settle

/-- Notes the failure that a call returned, if it returned one. -/
def noteFailure : Option Bytes → StateM Watch Unit
  | none => return ()
  | some message => modify (·.note (.subscriberFailed message))

/-- Catches a call that broke off, so that whoever made it goes on. -/
def recover : Except Bytes Unit → StateM Watch Unit
  | .ok () => return ()
  | .error message => modify (·.note (.subscriberCrashed message))

/-- Makes a call that may break off, and notes how it ended. -/
def attempt (calling : ExceptT Bytes (StateM Watch) (Option Bytes)) : StateM Watch Unit := do
  let telling : ExceptT Bytes (StateM Watch) Unit := do noteFailure (← calling)
  recover (← telling.run)

/-- Tells whoever subscribes at this moment about changes. -/
def notify (batch : Batch) : StateM Watch Unit := do
  -- Where nobody subscribes there is nothing to catch either.
  match (← get).subscriber with
  | .nobody => return ()
  | .panel | .tap _ => attempt (call batch)

/-- Takes in an event when it arises. -/
def hear (watch : Watch) : Event → Watch
  | .log entry => watch.note entry
  | .changes batch => ((notify batch).run watch).2

/-- However a call ends, the verdict of it is noted and nothing else. -/
theorem run_attempt_settle (verdict : Verdict) (watch : Watch) :
    (attempt verdict.settle).run watch = ((), watch.noteVerdict verdict) := by
  cases verdict with
  | accepted => rfl
  | failed message => rfl
  | crashed message => rfl

/-- The panel ends a call as a subscriber does that fails with the message of its fault. -/
theorem pure_message_eq_settle (fault : Option Fault) :
    (pure (fault.map Fault.message) : ExceptT Bytes (StateM Watch) (Option Bytes)) =
      (fault.elim .accepted fun fault => .failed fault.message : Verdict).settle := by
  cases fault with
  | none => rfl
  | some fault => rfl

/-- Telling whoever subscribes, and catching what breaks off, comes to announcing the batch. -/
theorem run_notify (batch : Batch) (watch : Watch) : (notify batch).run watch = ((), watch.announce batch) := by
  obtain ⟨verbose, subscriber, panel, received, log⟩ := watch
  cases subscriber with
  | nobody => rfl
  | panel =>
    -- The panel has shown the batch by the time its fault is noted, of which only the message matters.
    obtain ⟨shown, _, message, _⟩ := panel.loop_agrees batch
    let after : Watch := ⟨verbose, .panel, (panel.update batch).2, received, log⟩
    calc (notify batch).run ⟨verbose, .panel, panel, received, log⟩
      _ = (attempt (pure ((panel.loop batch).1.map Fault.message))).run
          ⟨verbose, .panel, (panel.loop batch).2, received, log⟩ := rfl
      _ = (attempt (pure ((panel.update batch).1.map Fault.message))).run after := by rw [message, shown]
      _ = ((), after.noteVerdict ((panel.update batch).1.elim .accepted fun fault => .failed fault.message)) := by
        rw [pure_message_eq_settle, run_attempt_settle]
  | tap reply => exact run_attempt_settle _ _

/-- What is heard of an event is what is observed of it. -/
theorem hear_eq_observe (watch : Watch) (event : Event) : watch.hear event = watch.observe event := by
  cases event with
  | log entry => rfl
  | changes batch => rw [hear, run_notify, observe]

end Watch

/-! ### Actions -/

namespace Inline

variable {ω : Type} (hear : ω → Event → ω)

/-- The machine as it is now. -/
def look : StateM (Machine × ω) Machine := fun (machine, world) =>
  (machine, machine, world)

/-- Changes the machine. -/
def alter (change : Machine → Machine) : StateM (Machine × ω) Unit := fun (machine, world) =>
  ((), change machine, world)

/-- Hands an event to whoever listens now. -/
def tell (event : Event) : StateM (Machine × ω) Unit := fun (machine, world) =>
  ((), machine, hear world event)

/-- Pushes a word and tells the stack. -/
def push (word : Word) : StateM (Machine × ω) Unit := do
  alter fun machine => machine.withStack (machine.stack.pushUnchecked word)
  tell hear (.changes (← look).stackUpdates.collect)

/-- Pops a word and tells the stack. -/
def pop : StateM (Machine × ω) Word := do
  let (word, stack) := (← look).stack.popUnchecked
  alter (·.withStack stack)
  tell hear (.changes (← look).stackUpdates.collect)
  return word

/-- Writes a word and tells it. -/
def write (address : Address) (word : Word) : StateM (Machine × ω) Unit := do
  alter (·.withWord address word)
  tell hear (.changes ((← look).wordUpdate address).collect)

/-- Notes that an operation is unknown. -/
def unknown (code : Code) : StateM (Machine × ω) Unit := do
  tell hear (.log (.unknownOpcode (← look).pc code))

/-- Sets the carry flag if a result did not fit. -/
def carryIf (lost : Prop) [Decidable lost] : StateM (Machine × ω) Unit :=
  if lost then alter fun machine => { machine with flags := machine.flags.union .carry } else return ()

/-- What the operations that carry an address do, by their numbers. -/
def addressSwitch (code : Code) : StateM (Machine × ω) Unit := do
  match code.addressOperation with
  | 0x8 => push hear ((← look).memory.read code.address)
  | 0x9 => write hear code.address (← pop hear)
  | _ => unknown hear code

/-- What the operations that carry no address do, by their numbers. -/
def zeroSwitch (code : Code) : StateM (Machine × ω) Unit := do
  match code.zeroOperation with
  | 0x00 => return ()
  | 0x01 =>
    let top := signedValue ((← look).stack.peek 0)
    let sign := if top = 0 then Flags.zero else if 0 < top then .greater else .less
    alter ({ · with flags := sign })
  | 0x0F =>
    let machine ← look
    tell hear (.log (.debug machine.status machine.pc (machine.stack.peek 0)))
  | 0x10 => push hear code.operand.toUInt16
  | 0x11 =>
    -- The operand takes the place of the high byte.
    let top ← pop hear
    push hear (code.operand.toUInt16 <<< 8 ||| top &&& 0xFF)
  | 0x14 =>
    let _ ← pop hear
  | 0x15 => push hear ((← look).stack.peek 0)
  | 0x18 =>
    let above ← pop hear
    let below ← pop hear
    push hear above
    push hear below
  | 0x19 => push hear ((← look).stack.peek 1)
  | 0x20 =>
    let above ← pop hear
    let below ← pop hear
    let sum := above.toNat + below.toNat
    carryIf (0xFFFF < sum)
    push hear sum.toUInt16
  | 0x21 =>
    -- The word that was pushed first is the one that is taken from.
    let above ← pop hear
    let below ← pop hear
    let difference : Int := below.toNat - above.toNat
    carryIf (difference < 0)
    push hear (.ofInt difference)
  | 0x44 =>
    let place ← pop hear
    push hear ((← look).memory.read (.ofWord place))
  | 0x45 =>
    let place ← pop hear
    let word ← pop hear
    write hear (.ofWord place) word
  | _ => unknown hear code

/-- What the operation of a word does, by the format of the word. -/
def switch (code : Code) : StateM (Machine × ω) Unit :=
  match code.format with
  | .address => addressSwitch hear code
  | .zero => zeroSwitch hear code

/-! ### Operations -/

/-- Executes an instruction that the stack lets run. -/
def proceed (code : Code) : StateM (Machine × ω) Unit := do
  -- Until the actions are through, notes are about the instruction itself and not about the next one.
  let following := (← look).pc + 1
  switch hear code
  alter ({ · with pc := following })
  tell hear (.changes (← look).pcUpdate.collect)

/-- Executes an instruction. -/
def execute (code : Code) : StateM (Machine × ω) (Option Fault) := do
  tell hear (.log (.executing (← look).pc code))
  match (← look).stack.check code.tableDemand with
  | .error cause => return some (.joined [.opcode code, .stack cause])
  | .ok () =>
    proceed hear code
    return none

/-- Clears the registers and the stack, and keeps the memory. -/
def reset : StateM (Machine × ω) Unit := do
  tell hear (.log .reset)
  alter fun machine => { Machine.initial with memory := machine.memory }
  tell hear (.changes (← look).registerUpdates.collect)

/-- Writes a word, if memory reaches to its address. -/
def setWord (address word : Word) : StateM (Machine × ω) (Option Fault) := do
  match Address.ofWord? address with
  | some place =>
    write hear place word
    return none
  | none =>
    tell hear (.log (.rejected address))
    return some (.address address)

end Inline

/-- Performs an operation, and hands out each of its events where it arises. -/
def Operation.inline {ω : Type} (hear : ω → Event → ω) : Operation → StateM (Machine × ω) (Option Fault)
  | step => do Inline.execute hear (← Inline.look).fetch
  | execute code => Inline.execute hear code
  | reset => do
    Inline.reset hear
    return none
  | setWord address word => Inline.setWord hear address word
  | load image => image.load fun address word => Inline.setWord hear address word

/-! ### Actions of a word -/

namespace Inline

variable {ω : Type} (hear : ω → Event → ω)

/-- A look at the machine leaves everything as it is. -/
theorem run_look (machine : Machine) (world : ω) : look.run (machine, world) = pure (machine, machine, world) := rfl

/-- Whoever listens hears an event, and the machine stays as it is. -/
theorem run_tell (event : Event) (machine : Machine) (world : ω) :
    (tell hear event).run (machine, world) = pure ((), machine, hear world event) := rfl

/-- A push is told by the batch of the stack after it. -/
theorem run_push (word : Word) (machine : Machine) (world : ω) :
    (push hear word).run (machine, world) =
      ((), machine.withStack (machine.stack.pushUnchecked word),
        hear world (.changes (machine.withStack (machine.stack.pushUnchecked word)).stackBatch)) := by
  rw [← Iterator.collect_of_yields (machine.withStack (machine.stack.pushUnchecked word)).yields_stackUpdates]
  rfl

/-- A pop is told by the batch of the stack after it. -/
theorem run_pop (machine : Machine) (world : ω) :
    (pop hear).run (machine, world) =
      (machine.stack.popUnchecked.1, machine.withStack machine.stack.popUnchecked.2,
        hear world (.changes (machine.withStack machine.stack.popUnchecked.2).stackBatch)) := by
  rw [← Iterator.collect_of_yields (machine.withStack machine.stack.popUnchecked.2).yields_stackUpdates]
  rfl

/-- A write is told by the word that was written. -/
theorem run_write (address : Address) (word : Word) (machine : Machine) (world : ω) :
    (write hear address word).run (machine, world) =
      ((), machine.withWord address word, hear world (.changes [⟨.memory, address.toWord, word⟩])) := by
  -- The word is read back from the memory that it was written to.
  have told := Iterator.collect_of_yields ((machine.withWord address word).yields_wordUpdate address)
  have read : (machine.withWord address word).memory.read address = word := by
    rw [Machine.withWord, Memory.read_write, if_pos rfl]
  rw [read] at told
  rw [← told]
  rfl

end Inline

/-- Performs actions in order, and tells each change and each note where it arises. -/
def Micro.perform {ω : Type} (hear : ω → Event → ω) : Micro → StateM (Machine × ω) Unit
  | done => return ()
  | push word next => do
    Inline.push hear word
    next.perform hear
  | pop next => do
    let word ← Inline.pop hear
    (next word).perform hear
  | top next => do (next ((← Inline.look).stack.peek 0)).perform hear
  | second next => do (next ((← Inline.look).stack.peek 1)).perform hear
  | read address next => do (next ((← Inline.look).memory.read address)).perform hear
  | write address word next => do
    Inline.write hear address word
    next.perform hear
  | flag change next => do
    Inline.alter fun machine => { machine with flags := change machine.flags }
    next.perform hear
  | report word next => do
    let machine ← Inline.look
    Inline.tell hear (.log (.debug machine.status machine.pc word))
    next.perform hear
  | unknown code next => do
    Inline.unknown hear code
    next.perform hear

/-- Actions leave the machine that they leave by themselves, and what they announce has been heard in order. -/
theorem Micro.run_perform {ω : Type} (hear : ω → Event → ω) (micro : Micro) : ∀ (machine : Machine) (world : ω),
    (micro.perform hear).run (machine, world) =
      ((), (micro.run machine).1, (micro.run machine).2.foldl hear world) := by
  -- What is heard of an action comes before what is heard of the actions after it.
  induction micro with
  | done =>
    intro machine world
    rfl
  | push word next ih =>
    intro machine world
    rw [perform, StateT.run_bind, Inline.run_push]
    exact ih _ _
  | pop next ih =>
    intro machine world
    rw [perform, StateT.run_bind, Inline.run_pop]
    exact ih _ _ _
  | top next ih =>
    intro machine world
    exact ih _ machine world
  | second next ih =>
    intro machine world
    exact ih _ machine world
  | read address next ih =>
    intro machine world
    exact ih _ machine world
  | write address word next ih =>
    intro machine world
    rw [perform, StateT.run_bind, Inline.run_write]
    exact ih _ _
  | flag change next ih =>
    intro machine world
    exact ih _ world
  | report word next ih =>
    intro machine world
    exact ih machine _
  | unknown code next ih =>
    intro machine world
    exact ih machine _

/-- The operand in the high byte and the low byte of a word make the number of both. -/
theorem highByte_eq (operand : UInt8) (word : Word) :
    operand.toUInt16 <<< 8 ||| word &&& 0xFF = (operand.toNat * 256 + word.toNat % 256).toUInt16 := by
  -- The two bytes do not share a bit, so that their union is their sum.
  have low : word.toNat % 256 < 2 ^ 8 := Nat.mod_lt _ (by decide)
  have masked : word.toNat &&& 255 = word.toNat % 256 := Nat.and_two_pow_sub_one_eq_mod word.toNat 8
  have joined : operand.toNat <<< 8 ||| word.toNat % 256 = operand.toNat * 256 + word.toNat % 256 := by
    rw [← Nat.shiftLeft_add_eq_or_of_lt low, Nat.shiftLeft_eq]
  -- The shifted operand still fits a word.
  have high := operand.toNat_lt
  have fits : operand.toNat <<< 8 % 65536 = operand.toNat <<< 8 := by
    rw [Nat.shiftLeft_eq]
    omega
  apply UInt16.toNat_inj.mp
  rw [UInt16.toNat_or, UInt16.toNat_shiftLeft, UInt16.toNat_and]
  simp only [UInt8.toNat_toUInt16, UInt16.toNat_ofNat, Nat.reduceMod, Nat.reducePow]
  rw [masked, fits, joined]
  exact (UInt16.toNat_ofNat_of_lt (by simp only [UInt16.size]; omega)).symm

namespace Inline

variable {ω : Type} (hear : ω → Event → ω)

/-- Setting the carry flag in a branch is the change of flags that sets it or leaves it. -/
theorem carryIf_eq (lost : Prop) [Decidable lost] :
    (carryIf lost : StateM (Machine × ω) Unit) =
      alter fun machine => { machine with flags := machine.flags.carryIf lost } := by
  by_cases happens : lost
  · simp only [carryIf, Flags.carryIf, happens, decide_true, if_true]
  · simp only [carryIf, Flags.carryIf, happens, decide_false, if_false, Bool.false_eq_true]
    rfl

/-- The branch of a number that an operation with an address has performs the actions of the operation. -/
theorem addressSwitch_number {code : Code} {operation : AddressOp} (number : code.addressOperation = operation.number) :
    addressSwitch hear code = (operation.micro code.address).perform hear := by
  unfold addressSwitch
  rw [number]
  cases operation with
  | load => rfl
  | store => rfl

/-- The branch of a number that an operation without an address has performs the actions of the operation. -/
theorem zeroSwitch_number {code : Code} {operation : ZeroOp} (number : code.zeroOperation = operation.number) :
    zeroSwitch hear code = (operation.micro code.operand).perform hear := by
  -- Where nothing is computed the branch and the actions are the same commands.
  unfold zeroSwitch
  rw [number]
  cases operation with
  | nop => rfl
  | compare => rfl
  | debug => rfl
  | push => rfl
  | pushHigh =>
    simp only [ZeroOp.number, highByte_eq]
    rfl
  | drop => rfl
  | dup => rfl
  | swap => rfl
  | copyBelow => rfl
  | add =>
    -- The branch adds the words up in the other order.
    simp only [ZeroOp.number, carryIf_eq, toUInt16_add_toNat]
    refine bind_congr fun above => bind_congr fun below => ?_
    rw [Nat.add_comm above.toNat below.toNat, UInt16.add_comm above below]
    rfl
  | sub =>
    simp only [ZeroOp.number, carryIf_eq, ofInt_sub_toNat, sub_toNat_neg_iff]
    rfl
  | loadIndirect => rfl
  | storeIndirect => rfl

/-- A number that no operation with an address has ends in the branch that leaves a note. -/
theorem addressSwitch_unknown {code : Code} (missing : AddressOp.ofNumber? code.addressOperation = none) :
    addressSwitch hear code = unknown hear code := by
  unfold addressSwitch
  split
  case h_3 => rfl
  all_goals
    rename_i number
    rw [number] at missing
    cases missing

/-- A number that no operation without an address has ends in the branch that leaves a note. -/
theorem zeroSwitch_unknown {code : Code} (missing : ZeroOp.ofNumber? code.zeroOperation = none) :
    zeroSwitch hear code = unknown hear code := by
  unfold zeroSwitch
  split
  case h_14 => rfl
  all_goals
    rename_i number
    rw [number] at missing
    cases missing

/-- The branches by number perform the actions of the instruction that a word decodes to. -/
theorem switch_eq_perform (code : Code) : switch hear code = code.micro.perform hear := by
  -- The format and the number lead to a branch, and decoding leads to the actions of the same operation.
  unfold switch Code.micro
  rcases code.decode_cases with ⟨operation, format, number, decoded⟩ | ⟨operation, format, number, decoded⟩ |
    ⟨decoded, ⟨format, missing⟩ | ⟨format, missing⟩⟩
  · rw [format, decoded]
    exact addressSwitch_number hear number
  · rw [format, decoded]
    exact zeroSwitch_number hear number
  · rw [format, decoded]
    exact addressSwitch_unknown hear missing
  · rw [format, decoded]
    exact zeroSwitch_unknown hear missing

end Inline

/-! ### Operations by themselves and operations that are heard -/

/-- The result of an operation whose events have been heard in order. -/
def Response.heard {ω : Type} (hear : ω → Event → ω) (world : ω) (response : Response) :
    Option Fault × Machine × ω :=
  (response.fault, response.machine, response.events.foldl hear world)

namespace Inline

variable {ω : Type} (hear : ω → Event → ω)

/-- The program counter is told last, when all actions have been heard. -/
theorem run_proceed (code : Code) (machine : Machine) (world : ω) :
    (proceed hear code).run (machine, world) =
      let ran := code.micro.run machine
      let final := { ran.1 with pc := machine.pc + 1 }
      ((), final, hear (ran.2.foldl hear world) (.changes final.pcBatch)) := by
  have acted := code.micro.run_perform hear machine world
  rw [← switch_eq_perform] at acted
  dsimp only
  rw [← Iterator.collect_of_yields (Machine.yields_pcUpdate _)]
  simp only [proceed, StateT.run_bind, run_look, pure_bind, acted]
  rfl

/-- An instruction that is heard while it runs ends as the instruction by itself. -/
theorem run_execute (code : Code) (machine : Machine) (world : ω) :
    (execute hear code).run (machine, world) = (machine.execute code).heard hear world := by
  -- The trace entry has been heard by the time the table of demands is asked.
  simp only [execute, StateT.run_bind, run_look, run_tell, pure_bind, Code.tableDemand_eq]
  unfold Machine.execute
  cases machine.stack.check code.demand with
  | error cause => rfl
  | ok passed =>
    dsimp only
    rw [StateT.run_bind, run_proceed]
    simp only [Response.heard, List.foldl_append, List.foldl_cons, List.foldl_nil]
    rfl

/-- A reset that is heard ends as the reset by itself. -/
theorem run_reset (machine : Machine) (world : ω) :
    (reset hear).run (machine, world) = ((), machine.reset.machine, machine.reset.events.foldl hear world) := by
  rw [Machine.reset_events]
  rfl

/-- A write that is heard ends as the write by itself. -/
theorem run_setWord (address word : Word) (machine : Machine) (world : ω) :
    (setWord hear address word).run (machine, world) = (machine.setWord address word).heard hear world := by
  unfold setWord Machine.setWord
  cases named : Address.ofWord? address with
  | none => rfl
  | some place =>
    rw [← Address.toWord_of_named named, StateT.run_bind, run_write]
    rfl

end Inline

namespace Operation

variable {ω : Type} (hear : ω → Event → ω)

/-- An operation that is heard while it runs ends as the response of the machine, with all its events heard in order. -/
theorem run_inline (operation : Operation) (machine : Machine) (world : ω) :
    (operation.inline hear).run (machine, world) = (operation.respond machine).heard hear world := by
  cases operation with
  | step => exact Inline.run_execute hear machine.fetch machine world
  | execute code => exact Inline.run_execute hear code machine world
  | reset =>
    rw [inline, StateT.run_bind, Inline.run_reset]
    rfl
  | setWord address word => exact Inline.run_setWord hear address word machine world
  | load image =>
    -- At each point of the load the events that were collected so far have been heard.
    let related (state : Machine × ω) (collected : Machine × List Event) : Prop :=
      state = (collected.1, collected.2.foldl hear world)
    have keeps : ∀ address word state collected, related state collected →
        ((Inline.setWord hear address word).run state).1 = ((Machine.collectWord address word).run collected).1 ∧
          related ((Inline.setWord hear address word).run state).2
            ((Machine.collectWord address word).run collected).2 := by
      intro address word state collected same
      obtain rfl : state = (collected.1, collected.2.foldl hear world) := same
      rw [Inline.run_setWord]
      refine ⟨rfl, ?_⟩
      show (_, _) = (_, (collected.2 ++ _).foldl hear world)
      rw [List.foldl_append]
      rfl
    obtain ⟨fault, final⟩ := Image.load_related related (fun address word => Inline.setWord hear address word)
      Machine.collectWord keeps image (machine, world) (machine, []) rfl
    exact Prod.ext fault final

/--
An operation that a watch hears while it runs is the operation on the bench.

Each batch reaches whoever subscribes when it arises. A subscriber that fails or breaks off is noted and goes unheeded,
so that the result, the machine and the watch are those of a bench whose watch takes all events in afterwards.
-/
theorem inline_eq_perform (operation : Operation) (machine : Machine) (watch : Watch) :
    (operation.inline Watch.hear).run (machine, watch) =
      let (fault, bench) := operation.perform ⟨machine, watch⟩
      (fault, bench.machine, bench.watch) := by
  rw [run_inline, operation.perform_eq_respond]
  have same : Watch.hear = Watch.observe := funext fun watch => funext watch.hear_eq_observe
  rw [same]
  rfl

end Operation

/-- An instruction that hands out each batch inside its pushes, pops and writes is the instruction on the bench. -/
theorem Inline.execute_eq_bench (code : Code) (machine : Machine) (watch : Watch) :
    (Inline.execute Watch.hear code).run (machine, watch) =
      let (fault, bench) := (⟨machine, watch⟩ : Bench).execute code
      (fault, bench.machine, bench.watch) :=
  Operation.inline_eq_perform (.execute code) machine watch

/-! ### Watches that are changed between two events -/

/-- A change to how a machine is watched, which leaves the log as it is. -/
structure Rewatch where
  apply : Watch → Watch
  kept : ∀ watch, (apply watch).log = watch.log

/-- A watch and the changes that are to come to it, the next of them before the next event. -/
structure Restless where
  watch : Watch
  coming : List Rewatch

namespace Restless

/-- Makes the next change, if one is to come, and lets the watch that comes of it hear an event. -/
def hear (restless : Restless) (event : Event) : Restless :=
  match restless.coming with
  | [] => ⟨restless.watch.hear event, []⟩
  | change :: later => ⟨(change.apply restless.watch).hear event, later⟩

/-- A watch that no change is to come to hears an event as it is. -/
theorem hear_nil (watch : Watch) (event : Event) : hear ⟨watch, []⟩ event = ⟨watch.hear event, []⟩ := rfl

/-- A change that is to come is made before the event is heard. -/
theorem hear_cons (watch : Watch) (change : Rewatch) (later : List Rewatch) (event : Event) :
    hear ⟨watch, change :: later⟩ event = ⟨(change.apply watch).hear event, later⟩ := rfl

/-- Events that are heard through changes are taken in by a watch that may be changed at any moment. -/
theorem takesIn (events : List Event) (restless : Restless) :
    restless.watch.TakesIn events (events.foldl hear restless).watch := by
  induction events generalizing restless with
  | nil => exact .finished restless.watch
  | cons event rest ih =>
    obtain ⟨watch, coming⟩ := restless
    cases coming with
    | nil =>
      have later := ih ⟨watch.hear event, []⟩
      rw [watch.hear_eq_observe] at later
      rw [List.foldl_cons, hear_nil, watch.hear_eq_observe]
      exact .event later
    | cons change coming =>
      -- The change comes first, and it is the changed watch that takes the event in.
      have later := ih ⟨(change.apply watch).hear event, coming⟩
      rw [Watch.hear_eq_observe] at later
      rw [List.foldl_cons, hear_cons, Watch.hear_eq_observe]
      exact .changed (change.kept watch) (.event later)

end Restless

namespace Request

variable {ω : Type} (hear : ω → Event → ω)

/-- Makes a request, and hands out each event where it arises. -/
def inline : Request → StateM (Machine × ω) Answer
  | operate operation => do return .ofFault (← operation.inline hear)
  | word address => do return ((← Inline.look).word address).map some

/-- A request that is heard while it is served is answered by the machine alone. -/
theorem run_inline (request : Request) (machine : Machine) (world : ω) :
    (request.inline hear).run (machine, world) =
      (request.answer machine, request.after machine, (request.events machine).foldl hear world) := by
  cases request with
  | operate operation =>
    rw [inline, StateT.run_bind, operation.run_inline]
    rfl
  | word address => rfl

/-- Makes requests one after the other, and returns each answer with the machine after it. -/
def inlineAll : List Request → StateM (Machine × ω) (List (Answer × Machine))
  | [] => return []
  | request :: rest => do
    let answer ← request.inline hear
    let machine ← Inline.look
    return (answer, machine) :: (← inlineAll rest)

/-- The first request is served, and the others follow on the machine that it leaves. -/
theorem run_inlineAll_cons (request : Request) (rest : List Request) (machine : Machine) (world : ω) :
    (inlineAll hear (request :: rest)).run (machine, world) =
      let (answers, final) := (inlineAll hear rest).run
        (request.after machine, (request.events machine).foldl hear world)
      ((request.answer machine, request.after machine) :: answers, final) := by
  rw [inlineAll, StateT.run_bind, run_inline]
  rfl

end Request

/--
Requests to a machine whose watch is changed between any two events are a run of the bench.

So all that holds of every run holds of these, in which a change takes effect between two actions of one instruction.
-/
theorem Bench.runs_inlineAll (requests : List Request) (machine : Machine) (restless : Restless) :
    let (answers, final, heard) := (Request.inlineAll Restless.hear requests).run (machine, restless)
    Runs ⟨machine, restless.watch⟩ requests answers ⟨final, heard.watch⟩ := by
  induction requests generalizing machine restless with
  | nil => exact .finished _
  | cons request rest ih =>
    rw [Request.run_inlineAll_cons]
    exact .request (Restless.takesIn _ restless) (ih _ _)

end StackMachine
