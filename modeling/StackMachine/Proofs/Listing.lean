import StackMachine.Listing
import StackMachine.Proofs.Text.Numeral

/-! The columns of a listing: the second one holds the words, each with four digits. -/

namespace StackMachine

/-- The disassembly of an instruction stays on its line. -/
theorem Instruction.newline_notMem_text (instruction : Instruction) : '\n' ∉ instruction.text.toList := by
  have digits (width number : Nat) : '\n' ∉ (Numeral.upperHex width number).toList := Numeral.notMem_padded (.inl rfl)
  cases instruction with
  | addressed operation address =>
    have name : '\n' ∉ operation.mnemonic.toList := by cases operation <;> decide
    simp [text, name, digits]
  | zero operation operand =>
    -- Two operations show their operand.
    cases operation <;> simp [text, ZeroOp.mnemonic, digits]

/-- The disassembly of a word stays on one line. -/
theorem Code.newline_notMem_text (code : Code) : '\n' ∉ code.text.toList := by
  rw [text]
  split
  · exact Instruction.newline_notMem_text _
  · decide

namespace Listing

/-- Characters that are digits as a listing writes them. -/
def Written (digits : List Char) : Prop :=
  ∀ digit ∈ digits, ∃ value < 16, digit = LetterCase.upper.digitChar value

/-- The fields at one position of the lines of a text, where a blank stands between two fields. -/
def column (position : Nat) (text : String) : List (List Char) :=
  (text.toList.splitOn '\n').filterMap fun line => (line.splitOn ' ')[position]?

/-- The bits of a word stay on one line. -/
theorem newline_notMem_bits (word : Word) : '\n' ∉ (bits word).toList := by
  have digits (number : Nat) : '\n' ∉ (Numeral.padded .binary .lower 4 number).toList :=
    Numeral.notMem_padded (.inl rfl)
  simp [bits, digits]

/-- The four digits of a word, place by place. -/
theorem toList_upperHex (word : Word) :
    (Numeral.upperHex 4 word.toNat).toList =
      (Radix.hexadecimal.places 4 word.toNat).map LetterCase.upper.digitChar := by
  have small : word.toNat < Radix.hexadecimal.base ^ 4 := word.toNat_lt
  rw [Numeral.upperHex, Numeral.toList_padded, Radix.leftpad_digits (by decide) small]

/-- A word is written in four digits of hexadecimal. -/
theorem length_upperHex (word : Word) : (Numeral.upperHex 4 word.toNat).toList.length = 4 := by
  rw [toList_upperHex]
  rfl

/-- The row of one word: its line without the newline. -/
def row (address : Nat) (word : Word) : List Char :=
  (Numeral.upperHex 3 address).toList ++ ' ' ::
    ((Numeral.upperHex 4 word.toNat).toList ++ ' ' :: ((bits word).toList ++ ' ' :: (Code.mk word).text.toList))

/-- The line of a word is its row with a newline behind it. -/
theorem toList_line (address : Nat) (word : Word) : (line address word).toList = row address word ++ ['\n'] := by
  simp [line, row, toString]

/-- The row of a word holds no newline. -/
theorem newline_notMem_row (address : Nat) (word : Word) : '\n' ∉ row address word := by
  have digits (width number : Nat) : '\n' ∉ (Numeral.upperHex width number).toList := Numeral.notMem_padded (.inl rfl)
  simp [row, digits, newline_notMem_bits, Code.newline_notMem_text]

/-- A line in front of other lines gives the field in front of their fields. -/
theorem column_line_append (address : Nat) (word : Word) (rest : String) :
    column 1 (line address word ++ rest) = (Numeral.upperHex 4 word.toNat).toList :: column 1 rest := by
  have solid (width number : Nat) : ' ' ∉ (Numeral.upperHex width number).toList := Numeral.notMem_padded (.inr rfl)
  -- The line is its row up to the newline, and the row has the address and the word in front.
  have spelled : (line address word ++ rest).toList = row address word ++ '\n' :: rest.toList := by
    rw [String.toList_append, toList_line, List.append_assoc, List.singleton_append]
  have second : ((row address word).splitOn ' ')[1]? = some (Numeral.upperHex 4 word.toNat).toList := by
    rw [row, List.splitOn_append_cons_self_of_not_mem (solid 3 address),
      List.splitOn_append_cons_self_of_not_mem (solid 4 word.toNat)]
    rfl
  rw [column, spelled, List.splitOn_append_cons_self_of_not_mem (newline_notMem_row address word),
    List.filterMap_cons, second]
  rfl

/-- The second column of a listing is its words in upper-case hexadecimal. -/
theorem column_text (origin : Word) (words : List Word) :
    column 1 (text origin words) = words.map fun word => (Numeral.upperHex 4 word.toNat).toList := by
  -- The induction is on the words, from whatever address they start at.
  rw [text]
  generalize origin.toNat = address
  induction words generalizing address with
  | nil => simp [lines, column]
  | cons word rest ih => rw [lines, String.join_cons, column_line_append, ih, List.map_cons]

/-- A field of the second column is a word of the listing. -/
theorem exists_word_of_mem_column {origin : Word} {words : List Word} {field : List Char}
    (within : field ∈ column 1 (text origin words)) :
    ∃ word ∈ words, (Numeral.upperHex 4 word.toNat).toList = field := by
  rw [column_text] at within
  exact List.mem_map.mp within

/-- The words of a listing, read down their column, are digits as a listing writes them. -/
theorem written_column (origin : Word) (words : List Word) : Written (column 1 (text origin words)).flatten := by
  intro digit within
  obtain ⟨field, member, inField⟩ := List.mem_flatten.mp within
  obtain ⟨word, _, rfl⟩ := exists_word_of_mem_column member
  exact Numeral.exists_digit_of_mem_padded inField

end Listing

end StackMachine
