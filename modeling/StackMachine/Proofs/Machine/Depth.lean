import StackMachine.Machine.Basic

/-! How the depth of the stack moves: the checks of single actions, and the demand of a whole instruction. -/

namespace StackMachine

namespace Stack

/-- A pop leaves a stack within its slots. -/
theorem depth_popUnchecked_le {stack : Stack} (bounded : stack.depth ≤ capacity) :
    stack.popUnchecked.2.depth ≤ capacity :=
  Nat.le_trans (Nat.sub_le _ _) bounded

/-- A push is refused exactly when no slot is free. -/
theorem push_eq (stack : Stack) (word : Word) :
    stack.push word =
      if stack.depth < capacity then .ok (stack.pushUnchecked word) else .error .overflow := by
  -- A push asks for one free slot and for no word, so only the room is in question.
  have enough : ¬ stack.depth < 0 := Nat.not_lt_zero _
  by_cases room : stack.depth < capacity
  · have fits : ¬ capacity < stack.depth + 1 := by omega
    simp only [push, check, if_neg enough, if_neg fits, if_pos room]
    rfl
  · have full : capacity < stack.depth + 1 := by omega
    simp only [push, check, if_neg enough, if_pos full, if_neg room]
    rfl

/-- A demand for words alone is refused exactly when fewer are there. -/
theorem check_down {stack : Stack} (bounded : stack.depth ≤ capacity) (down : Nat) :
    stack.check ⟨down, 0⟩ = if down ≤ stack.depth then .ok () else .error .underflow := by
  -- A stack within its slots always has room for nothing more.
  have fits : ¬ capacity < stack.depth + 0 := by omega
  by_cases there : down ≤ stack.depth
  · have enough : ¬ stack.depth < down := by omega
    simp only [check, if_neg enough, if_neg fits, if_pos there]
  · have short : stack.depth < down := by omega
    simp only [check, if_pos short, if_neg there]

/-- A pop is refused exactly when no word is there. -/
theorem pop_eq {stack : Stack} (bounded : stack.depth ≤ capacity) :
    stack.pop = if 1 ≤ stack.depth then .ok stack.popUnchecked else .error .underflow := by
  rw [pop, check_down bounded]
  split <;> rfl

/-- The top word is refused exactly when no word is there. -/
theorem top_eq {stack : Stack} (bounded : stack.depth ≤ capacity) :
    stack.top = if 1 ≤ stack.depth then .ok (stack.peek 0) else .error .underflow := by
  rw [top, check_down bounded]
  split <;> rfl

/-- The word below the top is refused exactly when fewer than two words are there. -/
theorem second_eq {stack : Stack} (bounded : stack.depth ≤ capacity) :
    stack.second = if 2 ≤ stack.depth then .ok (stack.peek 1) else .error .underflow := by
  rw [second, check_down bounded]
  split <;> rfl

end Stack

/--
Whatever words they meet, actions that start at a depth end at the depth or with the fault of the outcome.

Only pushes, pops and looks at the stack can be refused, each by the rule of its checked operation.
-/
def Micro.Reaches : Micro → Nat → Except StackFault Nat → Prop
  | done, depth, outcome => outcome = .ok depth
  | push _ next, depth, outcome =>
    if depth < Stack.capacity then next.Reaches (depth + 1) outcome else outcome = .error .overflow
  | pop next, depth, outcome =>
    if 1 ≤ depth then ∀ word, (next word).Reaches (depth - 1) outcome else outcome = .error .underflow
  | top next, depth, outcome =>
    if 1 ≤ depth then ∀ word, (next word).Reaches depth outcome else outcome = .error .underflow
  | second next, depth, outcome =>
    if 2 ≤ depth then ∀ word, (next word).Reaches depth outcome else outcome = .error .underflow
  | read _ next, depth, outcome => ∀ word, (next word).Reaches depth outcome
  | write _ _ next, depth, outcome => next.Reaches depth outcome
  | flag _ next, depth, outcome => next.Reaches depth outcome
  | report _ next, depth, outcome => next.Reaches depth outcome
  | unknown _ next, depth, outcome => next.Reaches depth outcome

/-- A check that did not refuse has passed. -/
private theorem check_passed {condition rest : Prop} [Decidable condition] {final : Nat} {cause : StackFault}
    (reaches : if condition then rest else (.ok final : Except StackFault Nat) = .error cause) :
    condition ∧ rest := by
  by_cases passed : condition
  · rw [if_pos passed] at reaches
    exact ⟨passed, reaches⟩
  · rw [if_neg passed] at reaches
    cases reaches

namespace Micro.Reaches

variable {depth final : Nat}

/-- Actions that reach a depth by a push found room for it. -/
theorem push {word : Word} {next : Micro} (reaches : (Micro.push word next).Reaches depth (.ok final)) :
    depth < Stack.capacity ∧ next.Reaches (depth + 1) (.ok final) :=
  check_passed reaches

/-- Actions that reach a depth by a pop found a word for it. -/
theorem pop {next : Word → Micro} (reaches : (Micro.pop next).Reaches depth (.ok final)) :
    1 ≤ depth ∧ ∀ word, (next word).Reaches (depth - 1) (.ok final) :=
  check_passed reaches

/-- Actions that reach a depth by a look at the top found a word there. -/
theorem top {next : Word → Micro} (reaches : (Micro.top next).Reaches depth (.ok final)) :
    1 ≤ depth ∧ ∀ word, (next word).Reaches depth (.ok final) :=
  check_passed reaches

/-- Actions that reach a depth by a look below the top found a word there. -/
theorem second {next : Word → Micro} (reaches : (Micro.second next).Reaches depth (.ok final)) :
    2 ≤ depth ∧ ∀ word, (next word).Reaches depth (.ok final) :=
  check_passed reaches

end Micro.Reaches

/-- How many words more an operation that carries an address leaves on the stack. -/
def AddressOp.growth : AddressOp → Int
  | load => 1
  | store => -1

/-- How many words more an operation that carries no address leaves on the stack. -/
def ZeroOp.growth : ZeroOp → Int
  | push | dup | copyBelow => 1
  | nop | compare | debug | pushHigh | swap | loadIndirect => 0
  | drop | add | sub => -1
  | storeIndirect => -2

/-- How many words more an instruction leaves on the stack. -/
def Instruction.growth : Instruction → Int
  | addressed operation _ => operation.growth
  | zero operation _ => operation.growth

/-- How many words more a word leaves on the stack; an unknown operation leaves it alone. -/
def Code.growth (code : Code) : Int :=
  match code.instruction? with
  | some instruction => instruction.growth
  | none => 0

/-- The depth after an instruction that has its demand met at a depth, or why the demand is refused there. -/
def Demand.outcome (demand : Demand) (growth : Int) (depth : Nat) : Except StackFault Nat :=
  if depth < demand.down then .error .underflow
  else if Stack.capacity < depth + demand.up then .error .overflow
  else .ok (depth + growth).toNat

/-- The check of a demand and its outcome refuse alike. -/
theorem Stack.outcome_eq_check (stack : Stack) (demand : Demand) (growth : Int) :
    demand.outcome growth stack.depth =
      (stack.check demand).map fun _ => (stack.depth + growth).toNat := by
  -- Both compare the depth with the words asked for first, and with the room asked for second.
  unfold Demand.outcome check
  split
  · rfl
  · split <;> rfl

namespace Demand

variable {down up : Nat} {growth : Int} {depth : Nat}

/-- A demand is refused where words are missing. -/
theorem outcome_short (short : depth < down) : outcome ⟨down, up⟩ growth depth = .error .underflow :=
  if_pos short

/-- A demand that finds its words is refused where room is missing. -/
theorem outcome_full (there : down ≤ depth) (full : Stack.capacity < depth + up) :
    outcome ⟨down, up⟩ growth depth = .error .overflow := by
  rw [outcome, if_neg (Nat.not_lt.mpr there), if_pos full]

/-- A demand that is met leads to the depth that the growth leads to. -/
theorem outcome_met {final : Nat} (there : down ≤ depth) (room : depth + up ≤ Stack.capacity)
    (moved : (depth + growth).toNat = final) : outcome ⟨down, up⟩ growth depth = .ok final := by
  rw [outcome, if_neg (Nat.not_lt.mpr there), if_neg (Nat.not_lt.mpr room), moved]

end Demand

namespace Micro

variable {depth : Nat} {outcome : Except StackFault Nat}

/-- A push is refused where no slot is free, and otherwise what follows it decides. -/
theorem reaches_push {word : Word} {next : Micro} (full : Stack.capacity ≤ depth → outcome = .error .overflow)
    (rest : depth < Stack.capacity → next.Reaches (depth + 1) outcome) : (push word next).Reaches depth outcome := by
  rw [Reaches]
  split
  case isTrue room => exact rest room
  case isFalse none => exact full (Nat.not_lt.mp none)

/-- A pop is refused where no word is there, and otherwise what follows it decides. -/
theorem reaches_pop {next : Word → Micro} (short : depth < 1 → outcome = .error .underflow)
    (rest : 1 ≤ depth → ∀ word, (next word).Reaches (depth - 1) outcome) : (pop next).Reaches depth outcome := by
  rw [Reaches]
  split
  case isTrue there => exact rest there
  case isFalse none => exact short (Nat.not_le.mp none)

/-- A look at the top is refused where no word is there, and otherwise what follows it decides. -/
theorem reaches_top {next : Word → Micro} (short : depth < 1 → outcome = .error .underflow)
    (rest : 1 ≤ depth → ∀ word, (next word).Reaches depth outcome) : (top next).Reaches depth outcome := by
  rw [Reaches]
  split
  case isTrue there => exact rest there
  case isFalse none => exact short (Nat.not_le.mp none)

/-- A look below the top is refused where fewer than two words are there, and otherwise what follows it decides. -/
theorem reaches_second {next : Word → Micro} (short : depth < 2 → outcome = .error .underflow)
    (rest : 2 ≤ depth → ∀ word, (next word).Reaches depth outcome) : (second next).Reaches depth outcome := by
  rw [Reaches]
  split
  case isTrue there => exact rest there
  case isFalse none => exact short (Nat.not_le.mp none)

/-- A change of the flags is no matter of the stack, so that what follows it decides. -/
theorem reaches_flag {change : Flags → Flags} {next : Micro} (rest : next.Reaches depth outcome) :
    (flag change next).Reaches depth outcome := rest

/-- A push at the end takes the one slot that was asked for. -/
theorem reaches_growth {down : Nat} {word : Word} (there : down ≤ depth) :
    (push word done).Reaches depth (Demand.outcome ⟨down, 1⟩ 1 depth) := by
  apply reaches_push
  · intro full
    exact Demand.outcome_full there (Nat.lt_succ_of_le full)
  · intro room
    exact Demand.outcome_met there room rfl

/-- A push at the end after one pop takes the slot that the pop has left. -/
theorem reaches_refill {word : Word} (there : 1 ≤ depth) (bounded : depth ≤ Stack.capacity) :
    (push word done).Reaches (depth - 1) (Demand.outcome ⟨1, 0⟩ 0 depth) := by
  apply reaches_push (by omega)
  intro room
  exact Demand.outcome_met there bounded (by omega)

/-- Two pops need both the words that were asked for, and what follows them starts below these. -/
theorem reaches_two_pops {next : Word → Word → Micro} {growth : Int}
    (rest : 2 ≤ depth → ∀ above below, (next above below).Reaches (depth - 2) (Demand.outcome ⟨2, 0⟩ growth depth)) :
    (pop fun above => pop fun below => next above below).Reaches depth (Demand.outcome ⟨2, 0⟩ growth depth) := by
  apply reaches_pop
  · intro empty
    exact Demand.outcome_short (by omega)
  · intro one above
    apply reaches_pop
    · intro single
      exact Demand.outcome_short (by omega)
    · intro other
      exact rest (by omega) above

end Micro

/-- The demand of an operation that carries an address is what its actions need. -/
theorem AddressOp.micro_reaches (operation : AddressOp) (address : Address) {depth : Nat}
    (bounded : depth ≤ Stack.capacity) :
    (operation.micro address).Reaches depth (operation.demand.outcome operation.growth depth) := by
  cases operation with
  | load =>
    intro word
    exact Micro.reaches_growth (Nat.zero_le _)
  | store =>
    apply Micro.reaches_pop Demand.outcome_short
    intro there word
    exact Demand.outcome_met there bounded (by simp only [growth]; omega)

/-- The demand of an operation that carries no address is what its actions need. -/
theorem ZeroOp.micro_reaches (operation : ZeroOp) (operand : UInt8) {depth : Nat}
    (bounded : depth ≤ Stack.capacity) :
    (operation.micro operand).Reaches depth (operation.demand.outcome operation.growth depth) := by
  -- A push after a pop takes the room that the pop has made, so that only a push without one can overflow.
  cases operation with
  | nop => exact Demand.outcome_met (Nat.zero_le _) bounded rfl
  | compare | debug =>
    apply Micro.reaches_top Demand.outcome_short
    intro there word
    exact Demand.outcome_met there bounded rfl
  | push => exact Micro.reaches_growth (Nat.zero_le _)
  | dup =>
    apply Micro.reaches_top Demand.outcome_short
    intro there word
    exact Micro.reaches_growth there
  | copyBelow =>
    apply Micro.reaches_second Demand.outcome_short
    intro there word
    exact Micro.reaches_growth there
  | drop =>
    apply Micro.reaches_pop Demand.outcome_short
    intro there word
    exact Demand.outcome_met there bounded (by simp only [growth]; omega)
  | pushHigh =>
    apply Micro.reaches_pop Demand.outcome_short
    intro there word
    exact Micro.reaches_refill there bounded
  | loadIndirect =>
    apply Micro.reaches_pop Demand.outcome_short
    intro there place word
    exact Micro.reaches_refill there bounded
  | storeIndirect =>
    apply Micro.reaches_two_pops
    intro there place word
    exact Demand.outcome_met there bounded (by simp only [growth]; omega)
  | add | sub =>
    apply Micro.reaches_two_pops
    intro there above below
    apply Micro.reaches_flag
    apply Micro.reaches_push (by omega)
    intro room
    exact Demand.outcome_met there bounded (by simp only [growth]; omega)
  | swap =>
    apply Micro.reaches_two_pops
    intro there above below
    apply Micro.reaches_push (by omega)
    intro room
    apply Micro.reaches_push (by omega)
    intro more
    exact Demand.outcome_met there bounded (by simp only [growth]; omega)

/-- The demand of a word is what its actions need, no more and no less. -/
theorem Code.micro_reaches (code : Code) {depth : Nat} (bounded : depth ≤ Stack.capacity) :
    code.micro.Reaches depth (code.demand.outcome code.growth depth) := by
  -- The demand, the growth and the actions are all looked up by the instruction that the word decodes to.
  unfold Code.micro Code.demand Code.growth
  cases code.instruction? with
  | none =>
    -- An unknown operation asks nothing of the stack and leaves it alone.
    simp [Micro.Reaches, Demand.outcome, bounded]
  | some instruction =>
    cases instruction with
    | addressed operation address => exact operation.micro_reaches address bounded
    | zero operation operand => exact operation.micro_reaches operand bounded

/-- Actions that the stack allows leave it well formed. -/
theorem Micro.run_formed {final : Nat} (micro : Micro) :
    ∀ machine : Machine, machine.stack.WellFormed → micro.Reaches machine.stack.depth (.ok final) →
      (micro.run machine).1.stack.WellFormed := by
  -- A push has its slot free, and a pop clears the slot it leaves.
  induction micro with
  | done =>
    intro machine formed _
    exact formed
  | push word next ih =>
    intro machine formed reaches
    obtain ⟨room, rest⟩ := reaches.push
    exact ih (machine.withStack _) (formed.pushUnchecked room word) rest
  | pop next ih =>
    intro machine formed reaches
    exact ih _ (machine.withStack _) formed.popUnchecked (reaches.pop.2 _)
  | top next ih =>
    intro machine formed reaches
    exact ih _ machine formed (reaches.top.2 _)
  | second next ih =>
    intro machine formed reaches
    exact ih _ machine formed (reaches.second.2 _)
  | read address next ih =>
    intro machine formed reaches
    exact ih _ machine formed (reaches _)
  | write address word next ih =>
    intro machine formed reaches
    exact ih (machine.withWord address word) formed reaches
  | flag change next ih =>
    intro machine formed reaches
    exact ih { machine with flags := change machine.flags } formed reaches
  | report word next ih =>
    intro machine formed reaches
    exact ih machine formed reaches
  | unknown code next ih =>
    intro machine formed reaches
    exact ih machine formed reaches

/-- Actions that the stack allows end at the depth that was foretold. -/
theorem Micro.depth_run {final : Nat} (micro : Micro) :
    ∀ machine : Machine, micro.Reaches machine.stack.depth (.ok final) →
      (micro.run machine).1.stack.depth = final := by
  -- Only pushes and pops move the depth, and both move it as foretold.
  induction micro with
  | done =>
    intro machine reaches
    cases reaches
    rfl
  | push word next ih =>
    intro machine reaches
    exact ih (machine.withStack _) reaches.push.2
  | pop next ih =>
    intro machine reaches
    exact ih _ (machine.withStack _) (reaches.pop.2 _)
  | top next ih =>
    intro machine reaches
    exact ih _ machine (reaches.top.2 _)
  | second next ih =>
    intro machine reaches
    exact ih _ machine (reaches.second.2 _)
  | read address next ih =>
    intro machine reaches
    exact ih _ machine (reaches _)
  | write address word next ih =>
    intro machine reaches
    exact ih (machine.withWord address word) reaches
  | flag change next ih =>
    intro machine reaches
    exact ih { machine with flags := change machine.flags } reaches
  | report word next ih =>
    intro machine reaches
    exact ih machine reaches
  | unknown code next ih =>
    intro machine reaches
    exact ih machine reaches

/-- No action touches the status register. -/
@[simp] theorem Micro.status_run (micro : Micro) (machine : Machine) :
    (micro.run machine).1.status = machine.status := by
  -- The stack, the memory and the flags are all that an action changes.
  induction micro generalizing machine with
  | done => rfl
  | push word next ih => exact ih (machine.withStack _)
  | pop next ih => exact ih _ (machine.withStack _)
  | top next ih => exact ih _ machine
  | second next ih => exact ih _ machine
  | read address next ih => exact ih _ machine
  | write address word next ih => exact ih (machine.withWord address word)
  | flag change next ih => exact ih { machine with flags := change machine.flags }
  | report word next ih => exact ih machine
  | unknown code next ih => exact ih machine

namespace Machine

/-- The response to an instruction that the stack refuses. -/
def refused (machine : Machine) (code : Code) (cause : StackFault) : Response :=
  ⟨machine, some (.joined [.opcode code, .stack cause]), [.log (.executing machine.pc code)]⟩

/-- The response to an instruction whose actions ran to their end. -/
def completed (machine : Machine) (code : Code) (ran : Machine × List Event) : Response :=
  let final := { ran.1 with pc := machine.pc + 1 }
  ⟨final, none, .log (.executing machine.pc code) :: ran.2 ++ [.changes final.pcBatch]⟩

/-- An instruction is refused for a fault its actions would meet, or its actions run to their end. -/
theorem execute_cases {machine : Machine} (bounded : machine.stack.depth ≤ Stack.capacity) (code : Code) :
    (∃ cause, code.micro.Reaches machine.stack.depth (.error cause) ∧
      machine.execute code = machine.refused code cause) ∨
    (∃ depth, code.micro.Reaches machine.stack.depth (.ok depth) ∧
      machine.execute code = machine.completed code (code.micro.run machine)) := by
  -- The check decides, and by the demand of the word it decides as the actions would.
  have reaches := code.micro_reaches bounded
  rw [machine.stack.outcome_eq_check] at reaches
  cases checked : machine.stack.check code.demand with
  | error cause =>
    rw [checked] at reaches
    refine .inl ⟨cause, reaches, ?_⟩
    simp only [execute, checked, refused]
  | ok passed =>
    rw [checked] at reaches
    refine .inr ⟨_, reaches, ?_⟩
    simp only [execute, checked, completed]

/-- An instruction leaves the stack well formed, whether it is refused or runs to its end. -/
theorem formed_execute {machine : Machine} (formed : machine.stack.WellFormed) (code : Code) :
    (machine.execute code).machine.stack.WellFormed := by
  rcases execute_cases formed.bounded code with ⟨cause, _, executed⟩ | ⟨final, reaches, executed⟩
  · rw [executed]
    exact formed
  · rw [executed]
    exact code.micro.run_formed machine formed reaches

end Machine

end StackMachine
