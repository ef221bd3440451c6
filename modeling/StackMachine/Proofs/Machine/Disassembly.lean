import StackMachine.Proofs.Machine.Simulation
import StackMachine.Proofs.Text.Numeral

/-! Reading a disassembly back: the text of a word tells its operation, and its operand where that matters. -/

namespace StackMachine

namespace AddressOp

/-- The operation of a mnemonic, if there is one. -/
def ofMnemonic? (name : String) : Option AddressOp :=
  [load, store].find? (·.mnemonic = name)

/-- An operation that carries an address is found under its mnemonic. -/
theorem ofMnemonic?_mnemonic (operation : AddressOp) : ofMnemonic? operation.mnemonic = some operation := by
  cases operation <;> decide

end AddressOp

namespace ZeroOp

/-- The operation of a mnemonic, if there is one. -/
def ofMnemonic? (name : String) : Option ZeroOp :=
  [nop, compare, debug, push, pushHigh, drop, dup, swap, copyBelow, add, sub, loadIndirect, storeIndirect].find?
    (·.mnemonic = name)

/-- An operation that carries no address is found under its mnemonic. -/
theorem ofMnemonic?_mnemonic (operation : ZeroOp) : ofMnemonic? operation.mnemonic = some operation := by
  cases operation <;> decide

/-- No mnemonic belongs to operations of both kinds. -/
theorem addressOp_ofMnemonic?_mnemonic (operation : ZeroOp) : AddressOp.ofMnemonic? operation.mnemonic = none := by
  cases operation <;> decide

/-- Whether the operation makes anything of its operand. -/
def usesOperand : ZeroOp → Bool
  | push | pushHigh => true
  | _ => false

end ZeroOp

namespace Instruction

/-- The mnemonic of the operation. -/
def mnemonic : Instruction → String
  | addressed operation _ => operation.mnemonic
  | zero operation _ => operation.mnemonic

/-- The operand as the text shows it, after a space. -/
def operandText : Instruction → String
  | addressed _ address => " " ++ Numeral.upperHex 3 address.val
  | zero operation operand => if operation.usesOperand then " " ++ Numeral.upperHex 2 operand.toNat else ""

/-- The number that the text shows as the operand, or zero if it shows none. -/
def operandNumber : Instruction → Nat
  | addressed _ address => address.val
  | zero operation operand => if operation.usesOperand then operand.toNat else 0

/-- The instruction with the operand zero where the operation makes nothing of it. -/
def plain : Instruction → Instruction
  | addressed operation address => addressed operation address
  | zero operation operand => zero operation (if operation.usesOperand then operand else 0)

/-- The text is the mnemonic and the operand that is shown. -/
theorem text_eq (instruction : Instruction) : instruction.text = instruction.mnemonic ++ instruction.operandText := by
  cases instruction with
  | addressed operation address => exact String.append_assoc
  | zero operation operand =>
    cases operation <;> simp [text, mnemonic, operandText, ZeroOp.usesOperand, String.append_assoc]

/-- An operand that makes no difference does not show. -/
theorem text_plain (instruction : Instruction) : instruction.plain.text = instruction.text := by
  cases instruction with
  | addressed operation address => rfl
  | zero operation operand => cases operation <;> rfl

/-- A mnemonic holds no space, so that the first space of a text ends it. -/
theorem space_notMem_mnemonic (instruction : Instruction) : ' ' ∉ instruction.mnemonic.toList := by
  cases instruction with
  | addressed operation address =>
    show ' ' ∉ operation.mnemonic.toList
    cases operation <;> decide
  | zero operation operand =>
    show ' ' ∉ operation.mnemonic.toList
    cases operation <;> decide

/-- Where an operand is shown, it is its number in hexadecimal after a space. -/
theorem operandText_cases (instruction : Instruction) :
    (instruction.operandText.toList = [] ∧ instruction.operandNumber = 0) ∨
      ∃ width, instruction.operandText.toList = ' ' :: (Numeral.upperHex width instruction.operandNumber).toList := by
  cases instruction with
  | addressed operation address => exact .inr ⟨3, String.toList_append⟩
  | zero operation operand =>
    cases uses : operation.usesOperand with
    | false => exact .inl (by simp [operandText, operandNumber, uses])
    | true => exact .inr ⟨2, by simp [operandText, operandNumber, uses]⟩

/-- Reads an instruction from a text: a mnemonic up to a space, and behind it an operand in hexadecimal. -/
def ofText? (text : String) : Option Instruction :=
  let name := String.ofList (text.toList.takeWhile (· ≠ ' '))
  let number := Radix.hexadecimal.value ((text.toList.dropWhile (· ≠ ' ')).filterMap digitValue?)
  match AddressOp.ofMnemonic? name with
  | some operation => some (.addressed operation (.ofNumber number))
  | none => (ZeroOp.ofMnemonic? name).map (.zero · number.toUInt8)

/-- The text of an instruction is read back, with nothing lost but an operand that makes no difference. -/
theorem ofText?_text (instruction : Instruction) : ofText? instruction.text = some instruction.plain := by
  -- The mnemonic ends where the operand begins, or with the text.
  have solid : ∀ char ∈ instruction.mnemonic.toList, decide (char ≠ ' ') = true := by
    intro char within
    exact decide_eq_true fun space => instruction.space_notMem_mnemonic (space ▸ within)
  have name : instruction.text.toList.takeWhile (· ≠ ' ') = instruction.mnemonic.toList := by
    rw [text_eq, String.toList_append, List.takeWhile_append_of_pos solid]
    rcases instruction.operandText_cases with ⟨nothing, _⟩ | ⟨width, shown⟩
    · rw [nothing, List.takeWhile_nil, List.append_nil]
    · rw [shown, List.takeWhile_cons_of_neg (by decide), List.append_nil]
  have number : Radix.hexadecimal.value ((instruction.text.toList.dropWhile (· ≠ ' ')).filterMap digitValue?) =
      instruction.operandNumber := by
    rw [text_eq, String.toList_append, List.dropWhile_append_of_pos solid]
    rcases instruction.operandText_cases with ⟨nothing, zero⟩ | ⟨width, shown⟩
    · rw [nothing, zero]
      rfl
    · rw [shown, List.dropWhile_cons_of_neg (by decide), List.filterMap_cons_none (by decide)]
      exact Numeral.value_padded .hexadecimal .upper width instruction.operandNumber
  simp only [ofText?, name, number, String.ofList_toList]
  cases instruction with
  | addressed operation address =>
    simp only [mnemonic, AddressOp.ofMnemonic?_mnemonic, operandNumber, Address.ofNumber_val, plain]
  | zero operation operand =>
    simp only [mnemonic, ZeroOp.addressOp_ofMnemonic?_mnemonic, ZeroOp.ofMnemonic?_mnemonic, operandNumber, plain,
      Option.map_some]
    cases operation.usesOperand with
    | false => rfl
    | true => simp

end Instruction

namespace Code

/-- The instruction that a word amounts to: an unknown operation does no more than the one that does nothing. -/
def effect (code : Code) : Instruction :=
  (code.instruction?.map Instruction.plain).getD (.zero .nop 0)

/-- The text of a word is read back as its instruction, and data as none. -/
theorem ofText?_text (code : Code) : Instruction.ofText? code.text = code.instruction?.map Instruction.plain := by
  unfold text
  cases code.instruction? with
  | none => decide
  | some instruction => exact instruction.ofText?_text

/-- What a word amounts to is read from its text. -/
theorem effect_eq_ofText? (code : Code) : code.effect = (Instruction.ofText? code.text).getD (.zero .nop 0) := by
  rw [ofText?_text, effect]

/-- Two words have the same text exactly when their instructions differ in nothing that matters. -/
theorem text_eq_iff (left right : Code) :
    left.text = right.text ↔ left.instruction?.map Instruction.plain = right.instruction?.map Instruction.plain := by
  have shown (code : Code) :
      code.text = ((code.instruction?.map Instruction.plain).map Instruction.text).getD "DATA" := by
    unfold text
    cases code.instruction? with
    | none => rfl
    | some instruction => exact instruction.text_plain.symm
  constructor
  · intro same
    rw [← left.ofText?_text, same, right.ofText?_text]
  · intro same
    rw [shown left, same, ← shown right]

/-- Only an unknown operation is data. -/
theorem text_eq_data_iff (code : Code) : code.text = "DATA" ↔ code.instruction? = none := by
  refine ⟨fun data => ?_, fun unknown => by rw [text, unknown]⟩
  -- There is no such mnemonic.
  have read := code.ofText?_text
  rw [data] at read
  exact Option.map_eq_none_iff.mp (read.symm.trans (by decide))

/-- A known operation is shown as the instruction that the word amounts to. -/
theorem text_of_known {code : Code} {instruction : Instruction} (found : code.instruction? = some instruction) :
    code.text = code.effect.text := by
  simp only [text, effect, found, Option.map_some, Option.getD_some, instruction.text_plain]

/-- The two texts of words that do nothing. -/
theorem effect_eq_nop_iff (code : Code) :
    code.effect = .zero .nop 0 ↔ code.text = "NOP" ∨ code.text = "DATA" := by
  constructor
  · intro nothing
    cases found : code.instruction? with
    | none => exact .inr (code.text_eq_data_iff.mpr found)
    | some instruction =>
      left
      rw [text_of_known found, nothing]
      rfl
  · rw [effect_eq_ofText?]
    rintro (named | data)
    · rw [named]
      decide
    · rw [data]
      decide

/-- Two words amount to the same instruction exactly when their texts agree or both do nothing. -/
theorem effect_eq_iff (left right : Code) :
    left.effect = right.effect ↔
      left.text = right.text ∨
        (left.text = "NOP" ∨ left.text = "DATA") ∧ (right.text = "NOP" ∨ right.text = "DATA") := by
  rw [← effect_eq_nop_iff, ← effect_eq_nop_iff]
  constructor
  · intro same
    by_cases nothing : left.effect = .zero .nop 0
    · exact .inr ⟨nothing, same ▸ nothing⟩
    · -- A word that does something has a known operation.
      have shown (code : Code) (active : code.effect ≠ .zero .nop 0) : code.text = code.effect.text := by
        cases found : code.instruction? with
        | none => exact absurd (by rw [effect, found]; rfl) active
        | some instruction => exact text_of_known found
      left
      rw [shown left nothing, shown right (same ▸ nothing), same]
  · rintro (same | ⟨left, right⟩)
    · rw [left.effect_eq_ofText?, same, right.effect_eq_ofText?]
    · rw [left, right]

end Code

end StackMachine
