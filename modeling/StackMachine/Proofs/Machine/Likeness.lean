import Mathlib.Data.List.FinRange
import StackMachine.Proofs.Machine.Disassembly
import StackMachine.Proofs.Machine.Frame

/-!
Words that act alike are those with the same disassembly, where data counts as the operation that does nothing.

In one direction the text keeps every operand that matters. In the other, three trials tell all instructions apart.
-/

namespace StackMachine

namespace Instruction

/-- An operand that the operation makes nothing of does not matter to its actions. -/
theorem micro_plain (instruction : Instruction) : instruction.plain.micro = instruction.micro := by
  cases instruction with
  | addressed operation address => rfl
  | zero operation operand => cases operation <;> rfl

/-- The operand does not matter to what an instruction asks of the stack. -/
theorem demand_plain (instruction : Instruction) : instruction.plain.demand = instruction.demand := by
  cases instruction with
  | addressed operation address => rfl
  | zero operation operand => rfl

/-- An instruction without a needless operand has none to lose. -/
theorem plain_plain (instruction : Instruction) : instruction.plain.plain = instruction.plain := by
  cases instruction with
  | addressed operation address => rfl
  | zero operation operand => cases operation <;> rfl

end Instruction

namespace Code

/-- A word asks of the stack what the instruction asks that it amounts to. -/
theorem demand_effect (code : Code) : code.effect.demand = code.demand := by
  unfold effect demand
  cases code.instruction? with
  | none => rfl
  | some instruction => exact instruction.demand_plain

/-- A word does what the instruction it amounts to does, but for the note on an unknown operation. -/
theorem micro_effect (code : Code) :
    code.effect.micro = code.micro ∨ code.effect.micro = .done ∧ code.micro = .unknown code .done := by
  unfold effect micro
  cases code.instruction? with
  | none => exact .inr ⟨rfl, rfl⟩
  | some instruction => exact .inl instruction.micro_plain

/-- A word leaves the machine that the instruction leaves that it amounts to. -/
theorem run_effect (code : Code) (machine : Machine) :
    (code.effect.micro.run machine).1 = (code.micro.run machine).1 := by
  rcases code.micro_effect with same | ⟨nothing, noted⟩
  · rw [same]
  · rw [nothing, noted]
    rfl

/-- A word makes of contents what the instruction makes of them that it amounts to. -/
theorem runListed_effect (code : Code) (before : Contents) :
    code.effect.micro.runListed before = code.micro.runListed before := by
  rcases code.micro_effect with same | ⟨nothing, noted⟩
  · rw [same]
  · rw [nothing, noted]
    rfl

/-- The instruction that a word amounts to has no needless operand. -/
theorem plain_effect (code : Code) : code.effect.plain = code.effect := by
  unfold effect
  cases code.instruction? with
  | none => rfl
  | some instruction => exact instruction.plain_plain

end Code

/-- The kind of a refusal is the fault of the stack, whichever word is refused. -/
theorem Fault.involves_refusal (code : Code) (cause asked : StackFault) :
    (Fault.joined [.opcode code, .stack cause]).involves (.stack asked) = decide (cause = asked) := by
  cases cause <;> cases asked <;> rfl

/-- Two words act alike: they leave the same machine, and pass or fail alike, whatever well-formed machine they meet. -/
def Code.ActsLike (left right : Code) : Prop :=
  ∀ bench : Bench, bench.machine.stack.WellFormed →
    (bench.execute left).2.machine = (bench.execute right).2.machine ∧
      ((bench.execute left).1 = none ↔ (bench.execute right).1 = none) ∧
      ∀ cause, Fault.optionInvolves (bench.execute left).1 (some (.stack cause)) =
        Fault.optionInvolves (bench.execute right).1 (some (.stack cause))

namespace Code.ActsLike

variable {left right : Code}

/-- Words that amount to the same instruction act alike. -/
theorem of_effect (same : left.effect = right.effect) : left.ActsLike right := by
  intro bench _
  show (bench.machine.execute left).machine = (bench.machine.execute right).machine ∧
    ((bench.machine.execute left).fault = none ↔ (bench.machine.execute right).fault = none) ∧
    ∀ cause, Fault.optionInvolves (bench.machine.execute left).fault (some (.stack cause)) =
      Fault.optionInvolves (bench.machine.execute right).fault (some (.stack cause))
  have demands : left.demand = right.demand := by rw [← left.demand_effect, same, right.demand_effect]
  have runs : (left.micro.run bench.machine).1 = (right.micro.run bench.machine).1 := by
    rw [← left.run_effect, same, right.run_effect]
  unfold Machine.execute
  rw [demands]
  -- The stack passes both words or refuses both, and then for the same cause.
  cases bench.machine.stack.check right.demand with
  | ok passed =>
    simp only [runs, and_self, implies_true]
  | error cause =>
    refine ⟨rfl, by simp, ?_⟩
    intro asked
    simp only [Fault.optionInvolves, Fault.involves_refusal]

end Code.ActsLike

/-- Every list of words that fits the stack is held by a well-formed stack, the head on top. -/
theorem Stack.exists_live (words : List Word) (fits : words.length ≤ capacity) :
    ∃ stack : Stack, stack.WellFormed ∧ stack.live = words.reverse := by
  induction words with
  | nil => exact ⟨.empty, .empty, rfl⟩
  | cons word rest ih =>
    obtain ⟨stack, formed, live⟩ := ih (Nat.le_of_succ_le fits)
    have room : stack.depth < capacity := by
      rw [← length_live formed.bounded, live, List.length_reverse]
      exact fits
    refine ⟨stack.pushUnchecked word, formed.pushUnchecked room word, ?_⟩
    rw [live_pushUnchecked room, live, List.reverse_cons]

namespace Machine

/-- Whatever contents fit the stack are seen in some machine. -/
theorem exists_contents (before : Contents) (fits : before.words.length ≤ Stack.capacity) :
    ∃ machine : Machine, machine.stack.WellFormed ∧ machine.contents = before := by
  obtain ⟨stack, formed, live⟩ := Stack.exists_live before.words fits
  refine ⟨⟨0, 0, before.flags, stack, ⟨Vector.ofFn before.memory⟩⟩, formed, ?_⟩
  have memory : Memory.read ⟨Vector.ofFn before.memory⟩ = before.memory := by
    funext address
    simp [Memory.read]
  rw [contents, live, List.reverse_reverse, memory]

/-- The actions of a word on a list show the machine that the word leaves, or that it is refused. -/
theorem runListed_execute {machine : Machine} (bounded : machine.stack.depth ≤ Stack.capacity) (code : Code) :
    code.micro.runListed machine.contents =
      if (machine.execute code).fault = none then some (machine.execute code).machine.contents else none := by
  rcases execute_cases bounded code with ⟨cause, reaches, executed⟩ | ⟨final, reaches, executed⟩
  · rw [← length_contents bounded] at reaches
    rw [executed, code.micro.runListed_refused _ reaches]
    rfl
  · rw [executed, code.micro.runListed_run machine bounded reaches]
    rfl

end Machine

/-- Words that act alike do the same to all contents that fit the stack. -/
theorem Code.ActsLike.runListed {left right : Code} (alike : left.ActsLike right) (before : Contents)
    (fits : before.words.length ≤ Stack.capacity) : left.micro.runListed before = right.micro.runListed before := by
  obtain ⟨machine, formed, rfl⟩ := Machine.exists_contents before fits
  obtain ⟨machines, passes, _⟩ := alike ⟨machine, .idle⟩ formed
  have after : (machine.execute left).machine = (machine.execute right).machine := machines
  have faults : (machine.execute left).fault = none ↔ (machine.execute right).fault = none := passes
  rw [Machine.runListed_execute formed.bounded, Machine.runListed_execute formed.bounded, after]
  simp only [faults]

namespace Contents

/-- The memory of the trials, in which no two addresses hold the same word. -/
def trialMemory (address : Address) : Word :=
  (0x1001 + address.val).toUInt16

/-- What a trial starts from, with some words on the stack. -/
def trial (words : List Word) : Contents :=
  ⟨.none, words, trialMemory⟩

/-- The first address that holds a word. -/
def find? (memory : Address → Word) (word : Word) : Option Address :=
  (List.finRange 4096).find? (memory · = word)

/-- The instruction that leaves a word less, by the top word and the place where the lost word turns up. -/
def shrunk (top : Word) (stored : Option Address) : Instruction :=
  -- The sum and the difference of the two words are neither of them.
  if top = 0x7000 then .zero .add 0
  else if top = 0xF000 then .zero .sub 0
  else
    match stored with
    | some address => .addressed .store address
    | none => .zero .drop 0

/-- The instruction that leaves as many words, by what it leaves of the words, and whether it leaves the flags. -/
def level (passes : Bool) (flags : Flags) (top below : Word) (high : List Word) : Instruction :=
  if below = 0x4000 then .zero .swap 0
  else if flags ≠ .none then .zero .compare 0
  -- A high byte may happen to be the one that is there already, but not in both trials.
  else if top = 0x4000 ∧ high = [0x5000, 0x3000] then .zero (if passes then .nop else .debug) 0
  -- The low twelve bits of either top word are the first address.
  else if top = 0x1001 then .zero .loadIndirect 0
  else .zero .pushHigh (top.toNat / 256).toUInt8

/-- The instruction that leaves a word more, by the top word. -/
def grown (top : Word) : Instruction :=
  if top.toNat < 256 then .zero .push top.toUInt8
  else if top = 0x4000 then .zero .dup 0
  else if top = 0x3000 then .zero .copyBelow 0
  -- Any other word comes from memory, where it tells its address.
  else .addressed .load (.ofNumber (top.toNat - 0x1001))

/--
The instruction that three trials show.

The first one tells whether it passes on an empty stack. The others tell what it leaves of the words 0x3000 and
0x4000, and of 0x3000 and 0x5000.
-/
def recognise (passes : Bool) (low high : Contents) : Instruction :=
  match low.words with
  | [] => .zero .storeIndirect 0
  | [top] => shrunk top (find? low.memory 0x4000)
  | [top, below] => level passes low.flags top below high.words
  | top :: _ => grown top

/-- A trial that leaves a single word is recognised by that word and by where the lost one turned up. -/
theorem recognise_shrunk (passes : Bool) (flags : Flags) (top : Word) (memory : Address → Word) (high : Contents) :
    recognise passes ⟨flags, [top], memory⟩ high = shrunk top (find? memory 0x4000) := rfl

/-- A trial that leaves both words is recognised by what it leaves of them and of the flags. -/
theorem recognise_level (passes : Bool) (flags : Flags) (top below : Word) (memory : Address → Word)
    (high : Contents) :
    recognise passes ⟨flags, [top, below], memory⟩ high = level passes flags top below high.words := rfl

/-- A word that no address holds is not found. -/
theorem find?_eq_none {memory : Address → Word} {word : Word} (absent : ∀ address, memory address ≠ word) :
    find? memory word = none := by
  rw [find?, List.find?_eq_none]
  intro address _ held
  exact absent address (of_decide_eq_true held)

/-- A word that a single address holds is found there. -/
theorem find?_eq_some {memory : Address → Word} {word : Word} {place : Address}
    (only : ∀ address, memory address = word ↔ address = place) : find? memory word = some place := by
  cases found : find? memory word with
  | none =>
    -- The place itself is among the addresses that are searched.
    have absent := List.find?_eq_none.mp found place (List.mem_finRange place)
    exact absurd (decide_eq_true ((only place).mpr rfl)) absent
  | some address =>
    have held := List.find?_some found
    rw [(only address).mp (of_decide_eq_true held)]

/-- The words of the trials count up with their addresses. -/
theorem toNat_trialMemory (address : Address) : (trialMemory address).toNat = 0x1001 + address.val :=
  UInt16.toNat_ofNat_of_lt (Nat.lt_trans (Nat.add_lt_add_left address.isLt 0x1001) (by decide))

/-- Memory holds no word that a trial has on the stack. -/
theorem trialMemory_ne {word : Word} (above : 0x2000 < word.toNat) (address : Address) :
    trialMemory address ≠ word := by
  intro held
  have number := toNat_trialMemory address
  have bound := address.isLt
  rw [held] at number
  omega

/-- A word that only the stack had is found where it is stored. -/
theorem find?_written {word : Word} (above : 0x2000 < word.toNat) (address : Address) :
    find? (written trialMemory address.val word) word = some address := by
  apply find?_eq_some
  intro asked
  simp only [written, Address.ofNumber_val]
  split
  case isTrue same => exact ⟨fun _ => same, fun _ => rfl⟩
  case isFalse other =>
    exact ⟨fun held => absurd held (trialMemory_ne above asked), fun same => absurd same other⟩

/-- A word from memory shows its address. -/
theorem grown_trialMemory (address : Address) : grown (trialMemory address) = .addressed .load address := by
  have number := toNat_trialMemory address
  have large : ¬ (trialMemory address).toNat < 256 := by omega
  rw [grown, if_neg large, if_neg (trialMemory_ne (by decide) address), if_neg (trialMemory_ne (by decide) address),
    number, Nat.add_sub_cancel_left, Address.ofNumber_val]

/-- A pushed operand is too small for any other word. -/
theorem grown_operand (operand : UInt8) : grown operand.toUInt16 = .zero .push operand := by
  have small : operand.toUInt16.toNat < 256 := by
    rw [UInt8.toNat_toUInt16]
    exact operand.toNat_lt
  rw [grown, if_pos small, UInt8.toUInt8_toUInt16]

/-- An operand in the high byte shows, because it gives the same word in both trials. -/
theorem level_operand (passes : Bool) (operand : UInt8) :
    level passes .none (operand.toNat * 256 + (0x4000 : Word).toNat % 256).toUInt16 0x3000
        [(operand.toNat * 256 + (0x5000 : Word).toNat % 256).toUInt16, 0x3000] =
      .zero .pushHigh operand := by
  have clear : (0x4000 : Word).toNat % 256 = 0 ∧ (0x5000 : Word).toNat % 256 = 0 := by decide
  rw [clear.1, clear.2, Nat.add_zero]
  have number : (operand.toNat * 256).toUInt16.toNat = operand.toNat * 256 :=
    UInt16.toNat_ofNat_of_lt (Nat.mul_lt_mul_of_pos_right operand.toNat_lt (by decide))
  generalize (operand.toNat * 256).toUInt16 = top at number
  have changed : ¬ (top = 0x4000 ∧ [top, 0x3000] = [0x5000, 0x3000]) := by
    rintro ⟨rfl, same⟩
    exact absurd same (by decide)
  -- No word of memory that an indirect load finds here has a low byte of zero.
  have direct : ¬ top = 0x1001 := by
    rintro rfl
    have odd : (0x1001 : Word).toNat = 0x1001 := rfl
    omega
  rw [level, if_neg (by decide), if_neg (by decide), if_neg changed, if_neg direct, number,
    Nat.mul_div_cancel _ (by decide)]
  exact congrArg _ (UInt8.ofNat_toNat)

end Contents

/-- The instruction that was tried is recognised, with nothing lost but an operand that makes no difference. -/
theorem Instruction.recognise_trials (instruction : Instruction) :
    ∃ low high, instruction.micro.runListed (.trial [0x4000, 0x3000]) = some low ∧
      instruction.micro.runListed (.trial [0x5000, 0x3000]) = some high ∧
      Contents.recognise (instruction.micro.runListed (.trial [])).isSome low high = instruction.plain := by
  cases instruction with
  | addressed operation address =>
    cases operation with
    | load => exact ⟨_, _, rfl, rfl, Contents.grown_trialMemory address⟩
    | store =>
      have stored : (addressed .store address).micro.runListed (.trial [0x4000, 0x3000]) =
          some ⟨.none, [0x3000], Contents.written Contents.trialMemory address.val 0x4000⟩ := rfl
      refine ⟨_, _, stored, rfl, ?_⟩
      rw [Contents.recognise_shrunk, Contents.find?_written (by decide)]
      rfl
  | zero operation operand =>
    cases operation with
    | push => exact ⟨_, _, rfl, rfl, Contents.grown_operand operand⟩
    | pushHigh =>
      have raised (top : Word) : (zero .pushHigh operand).micro.runListed (.trial [top, 0x3000]) =
          some ⟨.none, [(operand.toNat * 256 + top.toNat % 256).toUInt16, 0x3000], Contents.trialMemory⟩ := rfl
      refine ⟨_, _, raised _, raised _, ?_⟩
      rw [Contents.recognise_level, Contents.level_operand]
      rfl
    | drop =>
      have dropped : (zero .drop operand).micro.runListed (.trial [0x4000, 0x3000]) =
          some ⟨.none, [0x3000], Contents.trialMemory⟩ := rfl
      refine ⟨_, _, dropped, rfl, ?_⟩
      rw [Contents.recognise_shrunk, Contents.find?_eq_none (Contents.trialMemory_ne (by decide))]
      rfl
    -- The words that the others leave are the same for every operand.
    | _ => exact ⟨_, _, rfl, rfl, rfl⟩

/-- Words that act alike amount to the same instruction. -/
theorem Code.ActsLike.effect {left right : Code} (alike : left.ActsLike right) : left.effect = right.effect := by
  have outcomes (words : List Word) (few : words.length ≤ 2) :
      left.effect.micro.runListed (.trial words) = right.effect.micro.runListed (.trial words) := by
    rw [left.runListed_effect, right.runListed_effect]
    exact alike.runListed (.trial words) (Nat.le_trans few (by decide))
  obtain ⟨low, high, leftLow, leftHigh, leftShown⟩ := left.effect.recognise_trials
  obtain ⟨otherLow, otherHigh, rightLow, rightHigh, rightShown⟩ := right.effect.recognise_trials
  -- Both words give the same in each trial, so that the same is recognised.
  rw [outcomes _ (by decide), rightLow] at leftLow
  rw [outcomes _ (by decide), rightHigh] at leftHigh
  cases leftLow
  cases leftHigh
  rw [outcomes _ (by decide), rightShown, left.plain_effect, right.plain_effect] at leftShown
  exact leftShown.symm

namespace Code

/-- The operation field decides the format of a word, because it holds the top bit. -/
theorem format_eq_zero_iff (code : Code) : code.format = .zero ↔ code.zeroOperation < 128 := by
  have below : ¬ 0x8000 ≤ code.word ↔ code.zeroOperation < 128 := by
    rw [UInt16.le_iff_toNat_le, zeroOperation]
    show ¬ 0x8000 ≤ code.word.toNat ↔ _
    omega
  unfold format
  split
  case isTrue high => exact ⟨fun zero => absurd zero (by decide), fun small => absurd high (below.mpr small)⟩
  case isFalse low => exact ⟨fun _ => below.mp low, fun _ => rfl⟩

/-- Without an operand that matters, the operation field alone decides the instruction. -/
theorem plain_of_zeroOperation {left right : Code} (zero : left.format = .zero)
    (same : left.zeroOperation = right.zeroOperation)
    (unused : ∀ operation, ZeroOp.ofNumber? left.zeroOperation = some operation → operation.usesOperand = false) :
    left.instruction?.map Instruction.plain = right.instruction?.map Instruction.plain := by
  have other : right.format = .zero := by
    rw [format_eq_zero_iff, ← same, ← format_eq_zero_iff]
    exact zero
  simp only [instruction?, zero, other, ← same]
  cases found : ZeroOp.ofNumber? left.zeroOperation with
  | none => rfl
  | some operation =>
    simp only [Option.map_some, Instruction.plain, unused operation found]
    rfl

/-- An unknown operation is passed over on every machine. -/
theorem execute_unknown {code : Code} (unknown : code.instruction? = none) {machine : Machine}
    (bounded : machine.stack.depth ≤ Stack.capacity) :
    (machine.execute code).fault = none ∧
      (machine.execute code).machine = { machine with pc := machine.pc + 1 } := by
  have nothing : code.demand = ⟨0, 0⟩ := by rw [demand, unknown]
  have passed : (machine.execute code).fault = none := by
    rw [Machine.fault_execute_eq_none, nothing]
    exact ⟨Nat.zero_le _, bounded⟩
  have noted : code.micro = .unknown code .done := by rw [micro, unknown]
  refine ⟨passed, ?_⟩
  rw [(Machine.execute_of_passed bounded passed).2, noted]
  rfl

/--
Words act alike exactly when their texts agree or both are among the two that do nothing.

In particular, data is every word of an unknown operation and moves the program counter only, and a byte that the text
leaves out has no influence.
-/
theorem actsLike_iff_text (left right : Code) :
    (left.ActsLike right ↔
      left.text = right.text ∨
        (left.text = "NOP" ∨ left.text = "DATA") ∧ (right.text = "NOP" ∨ right.text = "DATA")) ∧
      (left.text = "DATA" ↔ left.isKnown = false) ∧
      (left.text = "DATA" → ∀ bench : Bench, bench.machine.stack.WellFormed →
        (bench.execute left).1 = none ∧
          (bench.execute left).2.machine = { bench.machine with pc := bench.machine.pc + 1 }) ∧
      (left.format = .zero → left.zeroOperation = right.zeroOperation →
        (∀ operation, ZeroOp.ofNumber? left.zeroOperation = some operation →
          operation ≠ .push ∧ operation ≠ .pushHigh) →
          left.text = right.text ∧ left.ActsLike right) := by
  have unknown : left.isKnown = false ↔ left.instruction? = none :=
    Option.isSome_eq_false_iff.trans Option.isNone_iff_eq_none
  refine ⟨?_, ?_, ?_, ?_⟩
  · rw [← effect_eq_iff]
    exact ⟨ActsLike.effect, ActsLike.of_effect⟩
  · rw [text_eq_data_iff, unknown]
  · intro data bench formed
    exact execute_unknown (left.text_eq_data_iff.mp data) formed.bounded
  · intro zero same other
    -- All but the two operations that are excluded make nothing of their operand.
    have plain := plain_of_zeroOperation zero same fun operation found => by
      obtain ⟨notPush, notPushHigh⟩ := other operation found
      cases operation with
      | push => exact absurd rfl notPush
      | pushHigh => exact absurd rfl notPushHigh
      | _ => rfl
    have text : left.text = right.text := (text_eq_iff left right).mpr plain
    exact ⟨text, .of_effect ((effect_eq_iff left right).mpr (.inl text))⟩

/-- Two sums with different bytes act alike, data acts like a word that does nothing, and a report does not. -/
theorem actsLike_iff_text_sum :
    ((⟨0x20AB⟩ : Code).text = (⟨0x20FF⟩ : Code).text ∧ (⟨0x20AB⟩ : Code).ActsLike ⟨0x20FF⟩) ∧
      (⟨0x4000⟩ : Code).ActsLike ⟨0x0012⟩ ∧ ¬ (⟨0x0F00⟩ : Code).ActsLike ⟨0x0012⟩ ∧
      (⟨0x4000⟩ : Code).text = "DATA" ∧ (Bench.initial.execute ⟨0x4000⟩).1 = none := by
  have data : (⟨0x4000⟩ : Code).text = "DATA" := by decide
  have sum : ∀ operation, ZeroOp.ofNumber? (⟨0x20AB⟩ : Code).zeroOperation = some operation →
      operation ≠ .push ∧ operation ≠ .pushHigh := by
    rintro operation ⟨⟩
    exact ⟨by decide, by decide⟩
  refine ⟨(actsLike_iff_text ⟨0x20AB⟩ ⟨0x20FF⟩).2.2.2 (by decide) (by decide) sum, ?_, ?_, data, ?_⟩
  · exact (actsLike_iff_text ⟨0x4000⟩ ⟨0x0012⟩).1.mpr (.inr ⟨.inr data, .inl (by decide)⟩)
  · intro alike
    exact absurd ((actsLike_iff_text ⟨0x0F00⟩ ⟨0x0012⟩).1.mp alike) (by decide)
  · exact ((actsLike_iff_text ⟨0x4000⟩ ⟨0x4000⟩).2.2.1 data .initial .empty).1

end Code

end StackMachine
