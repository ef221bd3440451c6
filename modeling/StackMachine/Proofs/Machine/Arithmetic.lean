import StackMachine.Proofs.FlagHistory
import StackMachine.Proofs.Machine.Encoding
import StackMachine.Proofs.Machine.Forecast
import StackMachine.Proofs.Machine.Likeness
import StackMachine.Proofs.Machine.StackList

/-!
Sums, differences and comparisons as they are on whole numbers.

What some words leave is told from the list machine: where their actions are defined on what the table sees, the machine
accepts the words and shows the same afterwards.
-/

namespace StackMachine

/-- The word of an operation that carries no address. -/
def ZeroOp.code (operation : ZeroOp) (operand : UInt8) : Code :=
  .ofZeroFields operation.number operand

namespace ZeroOp

/-- An operation is found under its own number. -/
theorem ofNumber?_number (operation : ZeroOp) : ofNumber? operation.number = some operation := by
  cases operation <;> rfl

/-- The number of an operation leaves the top bit of its word clear. -/
theorem number_lt (operation : ZeroOp) : operation.number < 128 := by
  cases operation <;> decide

/-- The word of an operation performs the actions of that operation. -/
theorem micro_code (operation : ZeroOp) (operand : UInt8) :
    (operation.code operand).micro = operation.micro operand := by
  have small := operation.number_lt
  have number : ((operation.number : Int) % 128).toNat = operation.number := by omega
  have decoded : (operation.code operand).instruction? = some (.zero operation operand) := by
    simp only [code, Code.instruction?, Code.format_ofZeroFields, Code.zeroOperation_ofZeroFields, number,
      ofNumber?_number, Code.operand_ofZeroFields, Option.map_some]
  simp only [Code.micro, decoded, Instruction.micro]

end ZeroOp

/-- What the actions of some words, one word after the other, make of contents. -/
def Contents.afterCodes (before : Contents) : List Code → Option Contents
  | [] => some before
  | code :: rest => (code.micro.runListed before).bind (·.afterCodes rest)

/-- No instruction touches the status register. -/
theorem Machine.status_execute {machine : Machine} (bounded : machine.stack.depth ≤ Stack.capacity) (code : Code) :
    (machine.execute code).machine.status = machine.status := by
  rcases execute_cases bounded code with ⟨cause, _, executed⟩ | ⟨_, _, executed⟩
  · rw [executed]
    rfl
  · rw [executed]
    exact code.micro.status_run machine

/-- A stack is given by its words in use, because every other slot is clear. -/
theorem Stack.eq_of_live {left right : Stack} (leftFormed : left.WellFormed) (rightFormed : right.WellFormed)
    (same : left.live = right.live) : left = right := by
  have bounded : left.live.reverse.length ≤ capacity := by
    rw [List.length_reverse, length_live leftFormed.bounded]
    exact leftFormed.bounded
  have leftHolds : left.Holds ⟨left.live.reverse, bounded⟩ := ⟨leftFormed, (List.reverse_reverse _).symm⟩
  have rightHolds : right.Holds ⟨left.live.reverse, bounded⟩ :=
    ⟨rightFormed, same.symm.trans (List.reverse_reverse _).symm⟩
  exact leftHolds.unique rightHolds

namespace Bench

/-- A bench on which words have been executed: none was refused, and the machine shows these contents. -/
structure Shows (bench : Bench) (codes : List Code) (after : Contents) : Prop where
  accepted : bench.Accepts codes
  formed : (bench.afterCodes codes).machine.stack.WellFormed
  status : (bench.afterCodes codes).machine.status = bench.machine.status
  contents : (bench.afterCodes codes).machine.contents = after

/-- Words whose actions are defined on what the table sees are accepted, and the table sees their result. -/
theorem shows_of_listed {codes : List Code} {after : Contents} {bench : Bench}
    (formed : bench.machine.stack.WellFormed) (listed : bench.machine.contents.afterCodes codes = some after) :
    bench.Shows codes after := by
  -- The induction is on the words, each of which starts from what the one before it has left.
  induction codes generalizing bench with
  | nil =>
    have nothing : bench.Accepts [] := fun before code rest split => absurd split (by simp)
    exact ⟨nothing, formed, rfl, Option.some.inj listed⟩
  | cons code rest ih =>
    obtain ⟨next, ran, later⟩ := Option.bind_eq_some_iff.mp listed
    -- The actions of the first word are defined only where the machine does not refuse it.
    rw [Machine.runListed_execute formed.bounded, Option.ite_none_right_eq_some, Option.some.injEq] at ran
    obtain ⟨passed, shown⟩ := ran
    rw [← shown] at later
    have others : (bench.execute code).2.Shows rest after := ih (Machine.formed_execute formed code) later
    exact ⟨accepts_cons.mpr ⟨passed, others.accepted⟩, others.formed,
      others.status.trans (Machine.status_execute formed.bounded code), others.contents⟩

namespace Shows

variable {bench : Bench} {codes : List Code} {after : Contents}

/-- The words on the stack are those of the contents that the machine shows. -/
theorem live (shows : bench.Shows codes after) :
    (bench.afterCodes codes).machine.stack.live = after.words.reverse := by
  rw [← shows.contents, Machine.contents, List.reverse_reverse]

/-- The flags are those of the contents that the machine shows. -/
theorem flags (shows : bench.Shows codes after) : (bench.afterCodes codes).machine.flags = after.flags := by
  rw [← shows.contents, Machine.contents]

/-- The memory is given by what the table sees of it. -/
theorem memory (shows : bench.Shows codes after) {memory : Memory} (same : after.memory = memory.read) :
    (bench.afterCodes codes).machine.memory = memory := by
  apply Memory.eq_of_read
  intro address
  rw [← same, ← shows.contents, Machine.contents]

end Shows

end Bench

namespace Word

/-- The low byte of a word and then its high byte put the word together. -/
theorem of_bytes (word : Word) :
    ((word.toNat / 256).toUInt8.toNat * 256 + word.toUInt8.toUInt16.toNat % 256).toUInt16 = word := by
  have small := word.toNat_lt
  apply UInt16.toNat_inj.mp
  simp only [Nat.toUInt16, Nat.toUInt8, UInt16.toNat_ofNat', UInt8.toNat_ofNat', UInt8.toNat_toUInt16,
    UInt16.toNat_toUInt8]
  omega

/-- Where a sum is too large for a word, what is left of it is short by exactly the number of words. -/
theorem toNat_sum (next top : Word) :
    top.toNat + next.toNat = (next + top).toNat + 65536 * (decide (0xFFFF < next.toNat + top.toNat)).toNat := by
  have nextSmall := next.toNat_lt
  have topSmall := top.toNat_lt
  rw [UInt16.toNat_add]
  by_cases lost : 0xFFFF < next.toNat + top.toNat
  · rw [decide_eq_true lost, Bool.toNat_true]
    omega
  · rw [decide_eq_false lost, Bool.toNat_false]
    omega

/-- Where a difference is below zero, the word for it is too large by exactly the number of words. -/
theorem toNat_difference (next top : Word) :
    (next.toNat : Int) - top.toNat = (next - top).toNat - 65536 * (decide (next < top)).toNat := by
  have nextSmall := next.toNat_lt
  have topSmall := top.toNat_lt
  rw [UInt16.toNat_sub]
  by_cases lost : next < top
  · rw [decide_eq_true lost, Bool.toNat_true]
    rw [UInt16.lt_iff_toNat_lt] at lost
    omega
  · rw [decide_eq_false lost, Bool.toNat_false]
    rw [UInt16.lt_iff_toNat_lt] at lost
    omega

end Word

/-- Only the zero word stands for zero, so a difference stands for zero between equal words only. -/
theorem signedValue_sub_eq_zero (next top : Word) : signedValue (next - top) = 0 ↔ top = next := by
  have zero : signedValue 0 = 0 := rfl
  rw [← zero, signedValue, signedValue, BitVec.toInt_inj, UInt16.toBitVec_inj, UInt16.sub_eq_iff_eq_add,
    UInt16.zero_add, eq_comm]

/-- A difference of signed numbers that fits a word is what the difference of the words stands for. -/
theorem signedValue_sub {next top : Word} (low : -32768 ≤ signedValue next - signedValue top)
    (high : signedValue next - signedValue top ≤ 32767) :
    signedValue (next - top) = signedValue next - signedValue top := by
  unfold signedValue at *
  rw [UInt16.toBitVec_sub, BitVec.toInt_sub]
  apply Int.bmod_eq_of_le
  · exact low
  · exact Int.lt_of_le_of_lt high (by decide)

/-- One word stands where two were. The carry is set if one was lost, and otherwise the flags are as before. -/
structure Machine.Replaces (before after : Machine) (below : List Word) (result : Word) (carry : Nat) : Prop where
  formed : after.stack.WellFormed
  live : after.stack.live = below ++ [result]
  flags : after.flags = if carry = 1 then before.flags.union .carry else before.flags
  memory : after.memory = before.memory
  status : after.status = before.status

namespace Bench

variable {bench : Bench} {below : List Word} {next top : Word}

/-- What the table sees of two words on top is enough to tell what words leave. -/
theorem shows_of_pair {codes : List Code} {after : Contents} (formed : bench.machine.stack.WellFormed)
    (held : bench.machine.stack.live = below ++ [next, top])
    (listed : below.length + 1 < Stack.capacity →
      Contents.afterCodes ⟨bench.machine.flags, top :: next :: below.reverse, bench.machine.memory.read⟩ codes =
        some after) : bench.Shows codes after := by
  have counted := Stack.length_live formed.bounded
  rw [held, List.length_append, List.length_cons, List.length_singleton] at counted
  have bounded := formed.bounded
  have seen : bench.machine.contents =
      ⟨bench.machine.flags, top :: next :: below.reverse, bench.machine.memory.read⟩ := by
    simp [Machine.contents, held]
  apply shows_of_listed formed
  rw [seen]
  exact listed (by omega)

/-- The sum of the two top words takes their place, and the carry is set if it did not fit. -/
theorem shows_add (formed : bench.machine.stack.WellFormed)
    (held : bench.machine.stack.live = below ++ [next, top]) (operand : UInt8) :
    bench.Shows [ZeroOp.add.code operand]
      ⟨bench.machine.flags.carryIf (0xFFFF < next.toNat + top.toNat), (next + top) :: below.reverse,
        bench.machine.memory.read⟩ := by
  apply shows_of_pair formed held
  intro room
  simp [Contents.afterCodes, ZeroOp.micro_code, ZeroOp.micro, Micro.runListed, Nat.lt_of_succ_lt room]

/-- The lower of the two top words less the top one takes their place, and the carry is set if it had to borrow. -/
theorem shows_sub (formed : bench.machine.stack.WellFormed)
    (held : bench.machine.stack.live = below ++ [next, top]) (operand : UInt8) :
    bench.Shows [ZeroOp.sub.code operand]
      ⟨bench.machine.flags.carryIf (next < top), (next - top) :: below.reverse, bench.machine.memory.read⟩ := by
  apply shows_of_pair formed held
  intro room
  simp [Contents.afterCodes, ZeroOp.micro_code, ZeroOp.micro, Micro.runListed, Nat.lt_of_succ_lt room]

/-- An exchange turns the two words round, and a sum does not depend on their order. -/
theorem shows_swap_add (formed : bench.machine.stack.WellFormed)
    (held : bench.machine.stack.live = below ++ [next, top]) (unused operand : UInt8) :
    bench.Shows [ZeroOp.swap.code unused, ZeroOp.add.code operand]
      ⟨bench.machine.flags.carryIf (0xFFFF < next.toNat + top.toNat), (next + top) :: below.reverse,
        bench.machine.memory.read⟩ := by
  apply shows_of_pair formed held
  intro room
  simp [Contents.afterCodes, ZeroOp.micro_code, ZeroOp.micro, Micro.runListed, room, Nat.lt_of_succ_lt room,
    Nat.add_comm top.toNat, UInt16.add_comm top]

/-- A word that was added is pushed in its two halves and taken away again. -/
theorem shows_add_push_sub (formed : bench.machine.stack.WellFormed)
    (held : bench.machine.stack.live = below ++ [next, top]) (adding subtracting : UInt8) :
    bench.Shows
      [ZeroOp.add.code adding, ZeroOp.push.code top.toUInt8, ZeroOp.pushHigh.code (top.toNat / 256).toUInt8,
        ZeroOp.sub.code subtracting]
      ⟨(bench.machine.flags.carryIf (0xFFFF < next.toNat + top.toNat)).carryIf (next + top < top),
        next :: below.reverse, bench.machine.memory.read⟩ := by
  apply shows_of_pair formed held
  intro room
  -- The halves are left as they stand, because together they are the word.
  simp only [Contents.afterCodes, ZeroOp.micro_code, ZeroOp.micro, Micro.runListed, List.length_cons,
    List.length_reverse, room, Nat.lt_of_succ_lt room, if_true, Option.bind_some, Word.of_bytes,
    UInt16.add_sub_cancel]

/-- A difference is compared with zero. -/
theorem shows_sub_compare (formed : bench.machine.stack.WellFormed)
    (held : bench.machine.stack.live = below ++ [next, top]) (operand unused : UInt8) :
    bench.Shows [ZeroOp.sub.code operand, ZeroOp.compare.code unused]
      ⟨.ofSign (signedValue (next - top)), (next - top) :: below.reverse, bench.machine.memory.read⟩ := by
  apply shows_of_pair formed held
  intro room
  simp [Contents.afterCodes, ZeroOp.micro_code, ZeroOp.micro, Micro.runListed, Nat.lt_of_succ_lt room]

/-- A bench that shows a result over the words below, with a carry where it was lost, has replaced two words by it. -/
theorem Shows.replaces {codes : List Code} {lost : Bool} {result : Word}
    (shows : bench.Shows codes
      ⟨bench.machine.flags.carryIf lost, result :: below.reverse, bench.machine.memory.read⟩) :
    bench.machine.Replaces (bench.afterCodes codes).machine below result lost.toNat where
  formed := shows.formed
  live := by rw [shows.live, List.reverse_cons, List.reverse_reverse]
  flags := by
    rw [shows.flags]
    cases lost <;> rfl
  memory := shows.memory rfl
  status := shows.status

/-- Sums and differences are exact up to the carry, a sum does not depend on the order of its words and is undone by a
difference, and a compared difference orders the words. -/
theorem arithmetic_exact (bench : Bench) (formed : bench.machine.stack.WellFormed) (below : List Word)
    (next top : Word) (held : bench.machine.stack.live = below ++ [next, top]) (spare : ZeroOp → UInt8) :
    let word (operation : ZeroOp) : Code := operation.code (spare operation)
    let after (codes : List Code) : Machine := (bench.afterCodes codes).machine
    let pushTop : List Code := [ZeroOp.push.code top.toUInt8, ZeroOp.pushHigh.code (top.toNat / 256).toUInt8]
    (∃ (result : Word) (carry : Nat), carry ≤ 1 ∧ top.toNat + next.toNat = result.toNat + 65536 * carry ∧
      bench.Accepts [word .add] ∧ bench.machine.Replaces (after [word .add]) below result carry) ∧
    (∃ (result : Word) (carry : Nat), carry ≤ 1 ∧
      (next.toNat : Int) - top.toNat = result.toNat - 65536 * carry ∧
      bench.Accepts [word .sub] ∧ bench.machine.Replaces (after [word .sub]) below result carry) ∧
    (bench.Accepts [word .swap, word .add] ∧
      (after [word .swap, word .add]).stack = (after [word .add]).stack ∧
      (after [word .swap, word .add]).flags = (after [word .add]).flags ∧
      (after [word .swap, word .add]).memory = (after [word .add]).memory) ∧
    (∀ pushed : Bench, pushed.machine.stack.WellFormed →
      pushed.machine.stack.live = (after [word .add]).stack.live ++ [top] →
      pushed.Accepts [word .sub] ∧ (pushed.afterCodes [word .sub]).machine.stack.live = below ++ [next]) ∧
    (bench.Accepts ([word .add] ++ pushTop ++ [word .sub]) ∧
      (after ([word .add] ++ pushTop ++ [word .sub])).stack.live = below ++ [next]) ∧
    bench.Accepts [word .sub, word .compare] ∧
      ((after [word .sub, word .compare]).flags.has .zero ↔ top = next) ∧
      (-32768 ≤ signedValue next - signedValue top → signedValue next - signedValue top ≤ 32767 →
        ((after [word .sub, word .compare]).flags.has .less ↔ signedValue next < signedValue top) ∧
        ((after [word .sub, word .compare]).flags.has .greater ↔ signedValue top < signedValue next)) := by
  intro word after pushTop
  have sum := shows_add formed held (spare .add)
  have difference := shows_sub formed held (spare .sub)
  have swapped := shows_swap_add formed held (spare .swap) (spare .add)
  have undone := shows_add_push_sub formed held (spare .add) (spare .sub)
  have compared := shows_sub_compare formed held (spare .sub) (spare .compare)
  refine ⟨⟨next + top, _, Bool.toNat_le _, Word.toNat_sum next top, sum.accepted, sum.replaces⟩,
    ⟨next - top, _, Bool.toNat_le _, Word.toNat_difference next top, difference.accepted, difference.replaces⟩,
    ⟨swapped.accepted, ?_, swapped.flags.trans sum.flags.symm, (swapped.memory rfl).trans (sum.memory rfl).symm⟩,
    ?_, ⟨undone.accepted, ?_⟩, compared.accepted, ?_⟩
  · exact Stack.eq_of_live swapped.formed sum.formed (swapped.live.trans sum.live.symm)
  · -- However the word came on top of the sum, it is taken from it again.
    intro pushed pushedFormed pushedHeld
    rw [sum.replaces.live, List.append_assoc, List.singleton_append] at pushedHeld
    have taken := shows_sub pushedFormed pushedHeld (spare .sub)
    rw [UInt16.add_sub_cancel] at taken
    exact ⟨taken.accepted, taken.live.trans (by simp)⟩
  · exact undone.live.trans (by simp)
  · -- The flags are those of the difference, whose sign is the order of the words where it fits.
    obtain ⟨zero, greater, less⟩ := Flags.has_ofSign (signedValue (next - top))
    have flags : (after [word .sub, word .compare]).flags = .ofSign (signedValue (next - top)) := compared.flags
    rw [flags]
    refine ⟨zero.trans (signedValue_sub_eq_zero next top), ?_⟩
    intro low high
    rw [signedValue_sub low high] at greater less ⊢
    exact ⟨less.trans (by omega), greater.trans (by omega)⟩

/-- The difference of 32766 and minus one is the largest that fits: the words borrow, and the comparison still orders
them as signed numbers. -/
theorem arithmetic_exact_border :
    let stack : Stack := ((Stack.empty.pushUnchecked 5).pushUnchecked 0x7FFE).pushUnchecked 0xFFFF
    let bench : Bench := ⟨{ Machine.initial with flags := .less, stack := stack }, .idle⟩
    bench.machine.stack.WellFormed ∧ bench.machine.stack.live = [5] ++ [0x7FFE, 0xFFFF] ∧
      bench.machine.Replaces (bench.afterCodes [⟨0x2000⟩]).machine [5] 0x7FFD 1 ∧
      bench.machine.Replaces (bench.afterCodes [⟨0x2100⟩]).machine [5] 0x7FFF 1 ∧
      (bench.afterCodes [⟨0x2000⟩, ⟨0x10FF⟩, ⟨0x11FF⟩, ⟨0x2100⟩]).machine.stack.live = [5] ++ [0x7FFE] ∧
      signedValue 0x7FFE - signedValue 0xFFFF = 32767 ∧
      (bench.afterCodes [⟨0x2100⟩, ⟨0x0100⟩]).machine.flags.has .greater := by
  intro stack bench
  have formed : bench.machine.stack.WellFormed :=
    ((Stack.WellFormed.empty.pushUnchecked (by decide) 5).pushUnchecked (by decide) 0x7FFE).pushUnchecked (by decide)
      0xFFFF
  have held : bench.machine.stack.live = [5] ++ [0x7FFE, 0xFFFF] := rfl
  obtain ⟨⟨sum, carry, carrySmall, whole, _, summed⟩, ⟨difference, borrow, borrowSmall, short, _, taken⟩, _, _, undone,
    _, _, ordered⟩ := arithmetic_exact bench formed [5] 0x7FFE 0xFFFF held (fun _ => 0)
  -- The whole numbers leave one choice for each result and its carry.
  have topValue : (0xFFFF : Word).toNat = 65535 := rfl
  have nextValue : (0x7FFE : Word).toNat = 32766 := rfl
  have sumSmall := sum.toNat_lt
  have differenceSmall := difference.toNat_lt
  rw [topValue, nextValue] at whole short
  have sumIs : sum = 0x7FFD := UInt16.toNat_inj.mp (by change sum.toNat = 32765; omega)
  have carryIs : carry = 1 := by omega
  have differenceIs : difference = 0x7FFF := UInt16.toNat_inj.mp (by change difference.toNat = 32767; omega)
  have borrowIs : borrow = 1 := by omega
  subst sumIs carryIs differenceIs borrowIs
  exact ⟨formed, held, summed, taken, undone.2, by decide,
    (ordered (by decide) (by decide)).2.mpr (by decide)⟩

end Bench

end StackMachine
