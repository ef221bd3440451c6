import StackMachine.Bench
import StackMachine.Proofs.Machine.Depth

/-! Checking each stack action where it happens agrees with checking the whole instruction beforehand. -/

namespace StackMachine

/-- Performs actions in order through the checked stack operations, and stops at the first that is refused. -/
def Micro.runChecked : Micro → Machine → Except StackFault (Machine × List Event)
  | done, machine => return (machine, [])
  | push word next, machine => do
    let stack ← machine.stack.push word
    let after := machine.withStack stack
    let (final, events) ← next.runChecked after
    return (final, .changes after.stackBatch :: events)
  | pop next, machine => do
    let (word, stack) ← machine.stack.pop
    let after := machine.withStack stack
    let (final, events) ← (next word).runChecked after
    return (final, .changes after.stackBatch :: events)
  | top next, machine => do
    let word ← machine.stack.top
    (next word).runChecked machine
  | second next, machine => do
    let word ← machine.stack.second
    (next word).runChecked machine
  | read address next, machine => (next (machine.memory.read address)).runChecked machine
  | write address word next, machine => do
    let (final, events) ← next.runChecked (machine.withWord address word)
    return (final, .changes [⟨.memory, address.toWord, word⟩] :: events)
  | flag change next, machine => next.runChecked { machine with flags := change machine.flags }
  | report word next, machine => do
    let (final, events) ← next.runChecked machine
    return (final, .log (.debug machine.status machine.pc word) :: events)
  | unknown code next, machine => do
    let (final, events) ← next.runChecked machine
    return (final, .log (.unknownOpcode machine.pc code) :: events)

/-- An event announced before some actions comes first in whatever outcome they have. -/
private theorem announced_eq {outcome : Except StackFault Nat} {ran : Machine × List Event}
    {checked : Except StackFault (Machine × List Event)} (rest : checked = outcome.map fun _ => ran)
    (event : Event) :
    (do
      let (final, events) ← checked
      return (final, event :: events)) = outcome.map fun _ => (ran.1, event :: ran.2) := by
  subst rest
  cases outcome with
  | error cause => rfl
  | ok depth => rfl

/-- Where every check passes the two runs agree, and otherwise the checked one stops with the foretold fault. -/
theorem Micro.runChecked_eq {outcome : Except StackFault Nat} (micro : Micro) :
    ∀ machine : Machine, machine.stack.depth ≤ Stack.capacity →
      micro.Reaches machine.stack.depth outcome →
        micro.runChecked machine = outcome.map fun _ => micro.run machine := by
  -- An action whose check passes acts unchecked, so the actions after it start from the same machine.
  induction micro with
  | done =>
    intro machine _ reaches
    rw [reaches]
    rfl
  | push word next ih =>
    intro machine _ reaches
    simp only [runChecked, Stack.push_eq, Reaches] at reaches ⊢
    by_cases room : machine.stack.depth < Stack.capacity
    · simp only [if_pos room] at reaches ⊢
      have rest := ih (machine.withStack (machine.stack.pushUnchecked word)) room reaches
      exact announced_eq rest _
    · simp only [if_neg room] at reaches ⊢
      rw [reaches]
      rfl
  | pop next ih =>
    intro machine bounded reaches
    simp only [runChecked, Stack.pop_eq bounded, Reaches] at reaches ⊢
    by_cases there : 1 ≤ machine.stack.depth
    · simp only [if_pos there] at reaches ⊢
      have rest := ih _ (machine.withStack machine.stack.popUnchecked.2) (Stack.depth_popUnchecked_le bounded)
        (reaches machine.stack.popUnchecked.1)
      exact announced_eq rest _
    · simp only [if_neg there] at reaches ⊢
      rw [reaches]
      rfl
  | top next ih =>
    intro machine bounded reaches
    simp only [runChecked, Stack.top_eq bounded, Reaches] at reaches ⊢
    by_cases there : 1 ≤ machine.stack.depth
    · simp only [if_pos there] at reaches ⊢
      exact ih _ machine bounded (reaches _)
    · simp only [if_neg there] at reaches ⊢
      rw [reaches]
      rfl
  | second next ih =>
    intro machine bounded reaches
    simp only [runChecked, Stack.second_eq bounded, Reaches] at reaches ⊢
    by_cases there : 2 ≤ machine.stack.depth
    · simp only [if_pos there] at reaches ⊢
      exact ih _ machine bounded (reaches _)
    · simp only [if_neg there] at reaches ⊢
      rw [reaches]
      rfl
  | read address next ih =>
    intro machine bounded reaches
    exact ih _ machine bounded (reaches _)
  | write address word next ih =>
    intro machine bounded reaches
    have rest := ih (machine.withWord address word) bounded reaches
    exact announced_eq rest _
  | flag change next ih =>
    intro machine bounded reaches
    exact ih _ bounded reaches
  | report word next ih =>
    intro machine bounded reaches
    have rest := ih machine bounded reaches
    exact announced_eq rest _
  | unknown code next ih =>
    intro machine bounded reaches
    have rest := ih machine bounded reaches
    exact announced_eq rest _

namespace Machine

/-- Executes an instruction through the checked stack operations, and undoes everything at the first refusal. -/
def executeChecked (machine : Machine) (code : Code) : Response :=
  match code.micro.runChecked machine with
  | .error cause => machine.refused code cause
  | .ok ran => machine.completed code ran

/-- Checking an instruction beforehand gives the response of checking its actions one by one. -/
theorem execute_eq_executeChecked {machine : Machine} (bounded : machine.stack.depth ≤ Stack.capacity)
    (code : Code) : machine.execute code = machine.executeChecked code := by
  -- Either way the checked run ends as the demand of the word foretells.
  unfold executeChecked
  rcases execute_cases bounded code with ⟨cause, reaches, executed⟩ | ⟨depth, reaches, executed⟩
  · rw [executed, code.micro.runChecked_eq machine bounded reaches]
    rfl
  · rw [executed, code.micro.runChecked_eq machine bounded reaches]
    rfl

end Machine

namespace Bench

/--
Executing an instruction agrees with checking its actions one by one and undoing them at the first refusal.

A refusal leaves the machine as it was, names the word and the cause, and announces nothing but the trace entry.
-/
theorem execute_agrees_checked (bench : Bench) (formed : bench.machine.stack.WellFormed) (code : Code) :
    bench.execute code = bench.perform (·.executeChecked code) ∧
      match code.micro.runChecked bench.machine with
      | .ok (ran, _) =>
        (bench.execute code).1 = none ∧
          (bench.execute code).2.machine = { ran with pc := bench.machine.pc + 1 }
      | .error cause =>
        bench.execute code = (some (.joined [.opcode code, .stack cause]),
          ⟨bench.machine, bench.watch.note (.executing bench.machine.pc code)⟩) ∧
          ∀ batch, .changes batch ∉ (bench.machine.execute code).events := by
  have agrees := Machine.execute_eq_executeChecked formed.bounded code
  refine ⟨?_, ?_⟩
  · simp only [execute, perform, agrees]
  · unfold Machine.executeChecked at agrees
    cases ran : code.micro.runChecked bench.machine with
    | ok result =>
      rw [ran] at agrees
      simp only [execute, perform, agrees, Machine.completed, and_self]
    | error cause =>
      rw [ran] at agrees
      -- The trace entry is the only event of a refused instruction.
      refine ⟨?_, ?_⟩
      · simp only [execute, perform, agrees, Machine.refused]
        rfl
      · intro batch announced
        simp [agrees, Machine.refused] at announced

/-- Copying the word below the top is refused on a single word, and nothing is announced. -/
theorem execute_agrees_checked_single :
    let stack := Stack.empty.pushUnchecked 7
    let bench : Bench := ⟨Machine.initial.withStack stack, .idle⟩
    stack.WellFormed ∧
      bench.execute ⟨0x1900⟩ = (some (.joined [.opcode ⟨0x1900⟩, .stack .underflow]),
        ⟨bench.machine, bench.watch.note (.executing 0 ⟨0x1900⟩)⟩) := by
  have formed := Stack.WellFormed.empty.pushUnchecked (by decide) 7
  exact ⟨formed, (execute_agrees_checked
    ⟨Machine.initial.withStack (Stack.empty.pushUnchecked 7), .idle⟩ formed ⟨0x1900⟩).2.1⟩

end Bench

end StackMachine
