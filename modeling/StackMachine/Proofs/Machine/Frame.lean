import StackMachine.Proofs.Machine.Simulation

/-! Words below the stack of a run do not matter: it does the same on top of them, as long as they leave it room. -/

namespace StackMachine

/-- Memories that read alike everywhere are the same. -/
theorem Memory.eq_of_read {left right : Memory} (alike : ∀ address, left.read address = right.read address) :
    left = right := by
  obtain ⟨leftWords⟩ := left
  obtain ⟨rightWords⟩ := right
  -- Every index of the words is an address that can be read.
  have same : leftWords = rightWords := by
    apply Vector.ext
    intro index inside
    exact alike ⟨index, inside⟩
  rw [same]

/-- The room that an operation asks for is the room that it takes. -/
theorem Code.demand_up (code : Code) : code.demand.up = code.growth.toNat := by
  unfold Code.demand Code.growth
  cases code.instruction? with
  | none => rfl
  | some instruction =>
    cases instruction with
    | addressed operation address => cases operation <;> rfl
    | zero operation operand => cases operation <;> rfl

namespace Machine

/-- An instruction succeeds exactly when the words it asks for and the room it asks for are there. -/
theorem fault_execute_eq_none (machine : Machine) (code : Code) :
    (machine.execute code).fault = none ↔
      code.demand.down ≤ machine.stack.depth ∧ machine.stack.depth + code.demand.up ≤ Stack.capacity := by
  -- The check compares the depth with both numbers, and nothing else can fail.
  unfold execute Stack.check
  by_cases short : machine.stack.depth < code.demand.down
  · simp only [if_pos short, reduceCtorEq, false_iff]
    omega
  · by_cases full : Stack.capacity < machine.stack.depth + code.demand.up
    · simp only [if_neg short, if_pos full, reduceCtorEq, false_iff]
      omega
    · simp only [if_neg short, if_neg full, true_iff]
      omega

/-- An instruction that succeeds lets its actions run to their end, and they reach the depth it grows to. -/
theorem execute_of_passed {machine : Machine} (bounded : machine.stack.depth ≤ Stack.capacity) {code : Code}
    (passed : (machine.execute code).fault = none) :
    code.micro.Reaches machine.stack.depth (.ok (machine.stack.depth + code.growth).toNat) ∧
      machine.execute code = machine.completed code (code.micro.run machine) := by
  -- With the demand met, the outcome that the word foretells is a depth.
  obtain ⟨enough, room⟩ := (machine.fault_execute_eq_none code).mp passed
  have reaches := code.micro_reaches bounded
  rw [Demand.outcome, if_neg (by omega), if_neg (by omega)] at reaches
  refine ⟨reaches, ?_⟩
  rcases execute_cases bounded code with ⟨cause, _, executed⟩ | ⟨_, _, executed⟩
  · rw [executed] at passed
    cases passed
  · exact executed

/-- An instruction that succeeds changes the depth by its growth. -/
theorem depth_execute {machine : Machine} (bounded : machine.stack.depth ≤ Stack.capacity) {code : Code}
    (passed : (machine.execute code).fault = none) :
    (machine.execute code).machine.stack.depth = (machine.stack.depth + code.growth).toNat := by
  obtain ⟨reaches, executed⟩ := execute_of_passed bounded passed
  rw [executed]
  exact code.micro.depth_run machine reaches

end Machine

/-- Contents with further words below all of their own. -/
def Contents.over (contents : Contents) (base : List Word) : Contents :=
  { contents with words := contents.words ++ base }

/-- Actions that are defined on contents do the same to them on top of further words, wherever these leave room. -/
theorem Micro.runListed_over {base : List Word} (micro : Micro) {before after other : Contents}
    (ran : micro.runListed before = some after) (deeper : micro.runListed (before.over base) = some other) :
    other = after.over base := by
  -- No action that is defined on the words alone reaches down to the words below them.
  induction micro generalizing before after other with
  | done =>
    cases ran
    cases deeper
    rfl
  | push word next ih =>
    simp only [runListed, Option.ite_none_right_eq_some] at ran deeper
    exact ih ran.2 deeper.2
  | pop next ih | top next ih =>
    obtain ⟨flags, _ | ⟨word, rest⟩, memory⟩ := before
    · cases ran
    · exact ih word ran deeper
  | second next ih =>
    obtain ⟨flags, _ | ⟨word, _ | ⟨below, rest⟩⟩, memory⟩ := before
    · cases ran
    · cases ran
    · exact ih below ran deeper
  | read address next ih => exact ih _ ran deeper
  | write address word next ih => exact ih ran deeper
  | flag change next ih => exact ih ran deeper
  | report word next ih => exact ih ran deeper
  | unknown code next ih => exact ih ran deeper

/-- A machine that equals another one, but for the words of `base` that lie below the other's stack. -/
structure Machine.Framed (base : List Word) (machine deep : Machine) : Prop where
  pc : deep.pc = machine.pc
  status : deep.status = machine.status
  flags : deep.flags = machine.flags
  memory : deep.memory = machine.memory
  formed : deep.stack.WellFormed
  stack : deep.stack.live = base ++ machine.stack.live

namespace Machine.Framed

variable {base : List Word} {machine deep : Machine}

/-- The table sees the same on a framed stack, with the words of the frame at the far end. -/
theorem contents (framed : Framed base machine deep) : deep.contents = machine.contents.over base.reverse := by
  simp only [Machine.contents, Contents.over, framed.flags, framed.memory, framed.stack, List.reverse_append]

/-- The frame adds its own length to the depth. -/
theorem depth (framed : Framed base machine deep) (bounded : machine.stack.depth ≤ Stack.capacity) :
    deep.stack.depth = base.length + machine.stack.depth := by
  have lengths := congrArg List.length framed.stack
  rw [List.length_append, Stack.length_live framed.formed.bounded, Stack.length_live bounded] at lengths
  exact lengths

/-- A machine is framed by what the table sees at the far end of its stack. -/
theorem of_contents (pc : deep.pc = machine.pc) (status : deep.status = machine.status)
    (formed : deep.stack.WellFormed) (same : deep.contents = machine.contents.over base.reverse) :
    Framed base machine deep := by
  simp only [Machine.contents, Contents.over, Contents.mk.injEq] at same
  obtain ⟨flags, words, memory⟩ := same
  refine ⟨pc, status, flags, Memory.eq_of_read (congrFun memory), formed, ?_⟩
  -- Seen from the bottom, the frame comes first.
  have turned := congrArg List.reverse words
  rw [List.reverse_reverse, List.reverse_append, List.reverse_reverse, List.reverse_reverse] at turned
  exact turned

/-- An instruction that succeeds does so on a frame that leaves room for its result, and the frame stays below. -/
theorem execute (framed : Framed base machine deep) (formed : machine.stack.WellFormed) {code : Code}
    (passed : (machine.execute code).fault = none)
    (room : base.length + machine.stack.depth ≤ Stack.capacity)
    (roomAfter : base.length + (machine.execute code).machine.stack.depth ≤ Stack.capacity) :
    (deep.execute code).fault = none ∧
      Framed base (machine.execute code).machine (deep.execute code).machine := by
  have depth := framed.depth formed.bounded
  -- The words asked for are there without the frame, and the room asked for is the room taken.
  have passedDeep : (deep.execute code).fault = none := by
    have enough := (machine.fault_execute_eq_none code).mp passed
    rw [depth_execute formed.bounded passed] at roomAfter
    rw [fault_execute_eq_none, depth, code.demand_up]
    omega
  refine ⟨passedDeep, ?_⟩
  obtain ⟨reaches, executed⟩ := execute_of_passed formed.bounded passed
  obtain ⟨reachesDeep, executedDeep⟩ := execute_of_passed framed.formed.bounded passedDeep
  -- On lists the actions do the same with the frame as without it, and the machines follow the lists.
  have listed := code.micro.runListed_run machine formed.bounded reaches
  have listedDeep := code.micro.runListed_run deep framed.formed.bounded reachesDeep
  rw [framed.contents] at listedDeep
  have same := code.micro.runListed_over listed listedDeep
  rw [executed, executedDeep]
  refine .of_contents ?_ ?_ ?_ same
  · simp only [completed, framed.pc]
  · simp only [completed, Micro.status_run, framed.status]
  · exact code.micro.run_formed deep framed.formed reachesDeep

end Machine.Framed

namespace Bench

/-- The largest depth of the stack in a run of a number of steps, its first and its last state included. -/
def peakDepth : Nat → Bench → Nat
  | 0, bench => bench.machine.stack.depth
  | more + 1, bench => max bench.machine.stack.depth (peakDepth more bench.step.2)

/-- A run starts no deeper than its peak. -/
theorem depth_le_peakDepth (count : Nat) (bench : Bench) : bench.machine.stack.depth ≤ bench.peakDepth count := by
  cases count with
  | zero => exact Nat.le_refl _
  | succ count => exact Nat.le_max_left _ _

/--
A run that succeeds does so on top of any words that leave room for its deepest state.

After each step the two runs agree on everything but those words, which stay where they are.
-/
theorem steps_framed (bench deep : Bench) (base : List Word) (count : Nat)
    (formed : bench.machine.stack.WellFormed)
    (succeeds : ∀ taken < count, (bench.afterSteps taken).step.1 = none)
    (room : base.length + bench.peakDepth count ≤ 16)
    (framed : Machine.Framed base bench.machine deep.machine) :
    (∀ taken < count, (deep.afterSteps taken).step.1 = none) ∧
      ∀ taken ≤ count, Machine.Framed base (bench.afterSteps taken).machine (deep.afterSteps taken).machine := by
  -- The induction is on the steps that are left; the first of them is made from the states at hand.
  induction count generalizing bench deep with
  | zero =>
    refine ⟨fun taken before => absurd before (Nat.not_lt_zero _), ?_⟩
    intro taken within
    obtain rfl := Nat.le_zero.mp within
    exact framed
  | succ count ih =>
    have passed : bench.step.1 = none := succeeds 0 (Nat.succ_pos _)
    have next := depth_le_peakDepth count bench.step.2
    simp only [peakDepth] at room
    have roomNow : base.length + bench.machine.stack.depth ≤ 16 := by omega
    have roomNext : base.length + bench.step.2.machine.stack.depth ≤ 16 := by omega
    -- Both runs fetch the same word, because the frame lies outside the memory.
    have fetched : deep.machine.fetch = bench.machine.fetch := by
      rw [Machine.fetch, Machine.fetch, framed.pc, framed.memory]
    have stepped : deep.step.1 = none ∧ Machine.Framed base bench.step.2.machine deep.step.2.machine := by
      show (deep.machine.execute deep.machine.fetch).fault = none ∧
        Machine.Framed base bench.step.2.machine (deep.machine.execute deep.machine.fetch).machine
      rw [fetched]
      exact framed.execute formed passed roomNow roomNext
    have formedNext : bench.step.2.machine.stack.WellFormed := Machine.formed_execute formed bench.machine.fetch
    have rest := ih bench.step.2 deep.step.2 formedNext (fun taken before => succeeds (taken + 1) (by omega))
      (by omega) stepped.2
    refine ⟨?_, ?_⟩
    · intro taken before
      cases taken with
      | zero => exact stepped.1
      | succ taken => exact rest.1 taken (by omega)
    · intro taken within
      cases taken with
      | zero => exact framed
      | succ taken => exact rest.2 taken (by omega)

/-- A sum on top of fourteen words fills the stack on its way, and leaves those words where they are. -/
theorem steps_framed_full :
    let memory := ((Memory.zero.write 0 0x1003).write 1 0x1004).write 2 0x2000
    let base : List Word := List.replicate 14 9
    let bench : Bench := ⟨{ Machine.initial with memory }, .idle⟩
    let deep : Bench := ⟨{ Machine.initial with memory, stack := (Stack.empty.pushAll base).2 }, .idle⟩
    (∀ taken < 3, (bench.afterSteps taken).step.1 = none) ∧ base.length + bench.peakDepth 3 = 16 ∧
      (∀ taken < 3, (deep.afterSteps taken).step.1 = none) ∧
      (deep.afterSteps 3).machine.stack.live = base ++ [7] := by
  intro memory base bench deep
  have succeeds : ∀ taken < 3, (bench.afterSteps taken).step.1 = none := by decide +kernel
  have peak : base.length + bench.peakDepth 3 = 16 := by decide +kernel
  have formed : deep.machine.stack.WellFormed := ⟨by decide +kernel, by decide +kernel⟩
  have framed : Machine.Framed base bench.machine deep.machine :=
    ⟨rfl, rfl, rfl, rfl, formed, by decide +kernel⟩
  have sum : (bench.afterSteps 3).machine.stack.live = [7] := by decide +kernel
  obtain ⟨passed, frames⟩ := steps_framed bench deep base 3 .empty succeeds (Nat.le_of_eq peak) framed
  refine ⟨succeeds, peak, passed, ?_⟩
  rw [(frames 3 (Nat.le_refl _)).stack, sum]

end Bench

end StackMachine
