import StackMachine.Bench
import StackMachine.Image.Basic
import StackMachine.Proofs.Machine.Bounds
import StackMachine.Proofs.Machine.Invariant

/-! Every operation of a machine on the bench as data, and what holds after any number of them. -/

namespace StackMachine

/-- Loading keeps what every single write keeps, also when it stops at a write that is refused. -/
theorem Image.load_keeps {σ : Type} {holds : σ → Prop} (write : Word → Word → StateM σ (Option Fault))
    (keeps : ∀ address word state, holds state → holds ((write address word).run state).2)
    (image : Image) (state : σ) (before : holds state) : holds ((image.load write).run state).2 := by
  -- The induction is on the words that are left, from whatever number they are to be written.
  unfold load
  generalize image.origin.toNat = number
  induction image.words generalizing number state with
  | nil => exact before
  | cons word rest ih =>
    have after := keeps (place number) word state before
    rw [run_loadFrom_cons]
    -- The result of the write decides whether the loading goes on.
    generalize (write (place number) word).run state = written at after ⊢
    obtain ⟨_ | fault, next⟩ := written
    · exact ih next after (number + 1)
    · exact after

/-- An operation of a machine. -/
inductive Operation where
  | step
  | execute (code : Code)
  | reset
  | setWord (address word : Word)
  | load (image : Image)

namespace Operation

/-- Performs an operation on a bench. -/
def perform : Operation → Bench → Option Fault × Bench
  | step, bench => bench.step
  | execute code, bench => bench.execute code
  | reset, bench => (none, bench.reset)
  | setWord address word, bench => bench.setWord address word
  | load image, bench =>
    let loading : StateM Bench (Option Fault) := image.load fun address word => Bench.setWord address word
    loading.run bench

/-- What instructions, resets and writes keep is kept by every operation. -/
theorem perform_keeps (holds : Bench → Prop)
    (execute : ∀ code bench, holds bench → holds (bench.execute code).2)
    (reset : ∀ bench, holds bench → holds bench.reset)
    (setWord : ∀ address word bench, holds bench → holds (bench.setWord address word).2)
    (operation : Operation) (bench : Bench) (before : holds bench) :
    holds (operation.perform bench).2 := by
  cases operation with
  -- A step is the execution of the word that the program counter points at.
  | step => exact execute bench.machine.fetch bench before
  | execute code => exact execute code bench before
  | reset => exact reset bench before
  | setWord address word => exact setWord address word bench before
  | load image => exact image.load_keeps _ setWord bench before

/-- Every operation leaves a machine sound, whoever watches it. -/
theorem perform_sound (operation : Operation) (bench : Bench) (sound : bench.machine.Sound) :
    (operation.perform bench).2.machine.Sound := by
  refine perform_keeps (·.machine.Sound) ?_ ?_ ?_ operation bench sound
  · intro code bench sound
    exact sound.execute code
  · intro bench _
    exact .reset bench.machine
  · intro address word bench sound
    exact sound.setWord address word

end Operation

namespace Bench

/-- What is done to a bench: an operation of its machine, or another way of watching it. -/
inductive Action where
  | operate (operation : Operation)
  | subscribe (subscriber : Subscriber)
  | setVerbose (verbose : Bool)

/-- The bench after an action. -/
def act (bench : Bench) : Action → Bench
  | .operate operation => (operation.perform bench).2
  | .subscribe subscriber => bench.rewatch ({ · with subscriber })
  | .setVerbose verbose => bench.rewatch ({ · with verbose })

/-- The bench after actions in order. -/
def actAll (bench : Bench) (actions : List Action) : Bench :=
  actions.foldl act bench

/-- Every action leaves a machine sound. -/
theorem act_sound {bench : Bench} (sound : bench.machine.Sound) (action : Action) :
    (bench.act action).machine.Sound := by
  cases action with
  | operate operation => exact operation.perform_sound bench sound
  | subscribe subscriber => exact sound
  | setVerbose verbose => exact sound

/-- Any number of actions leave a machine sound. -/
theorem actAll_sound {bench : Bench} (sound : bench.machine.Sound) (actions : List Action) :
    (bench.actAll actions).machine.Sound := by
  induction actions generalizing bench with
  | nil => exact sound
  | cons action rest ih => exact ih (act_sound sound action)

/-- An instruction that is refused is refused because of the stack, never because of an address. -/
theorem execute_fault_stack {bench : Bench} (bounded : bench.machine.stack.depth ≤ Stack.capacity)
    {code : Code} {fault : Fault} (faulted : (bench.execute code).1 = some fault) :
    ∃ cause, fault = .joined [.opcode code, .stack cause] := by
  have faulted : (bench.machine.execute code).fault = some fault := faulted
  rcases Machine.execute_cases bounded code with ⟨cause, _, executed⟩ | ⟨_, _, executed⟩
  · rw [executed, Machine.refused] at faulted
    cases faulted
    exact ⟨cause, rfl⟩
  · rw [executed, Machine.completed] at faulted
    cases faulted

/--
After any actions on a fresh bench the registers are in order, and no instruction reaches out of bounds.

The stack is within its slots and clear above its depth, the status register is zero, and the flags are consistent.
-/
theorem actAll_safe (actions : List Action) :
    let bench := Bench.initial.actAll actions
    let machine := bench.machine
    (machine.stack.depth ≤ 16 ∧
      (∀ (slot : Nat) (inside : slot < 16), machine.stack.depth ≤ slot → machine.stack.slots[slot] = 0) ∧
      machine.status = 0 ∧ machine.flags.bits < 16 ∧
      ([Flags.zero, Flags.greater, Flags.less].filter machine.flags.has).length ≤ 1) ∧
    ∀ code,
      (∀ access ∈ machine.accesses code, access.InRange) ∧
      machine.executeInside code = some (machine.execute code) ∧
      ∀ fault, (bench.execute code).1 = some fault → fault.involves .addressInvalid = false := by
  intro bench machine
  -- Everything follows from the soundness of the machine, which every action keeps.
  have sound : machine.Sound := actAll_sound .initial actions
  have bounded := sound.formed.bounded
  refine ⟨⟨bounded, sound.formed.cleared, sound.status, sound.flags.bounded, sound.flags.single⟩, ?_⟩
  intro code
  refine ⟨machine.accesses_inRange bounded code, machine.executeInside_eq bounded code, ?_⟩
  intro fault faulted
  obtain ⟨cause, rfl⟩ := execute_fault_stack bounded faulted
  cases cause with
  | overflow => rfl
  | underflow => rfl

end Bench

end StackMachine
