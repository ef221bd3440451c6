import StackMachine.Proofs.Bench
import StackMachine.Proofs.Text.Rows

/-!
Reading the text of a machine: a row for each register, and one for the words on the stack.

The text tells everything about a machine but its memory, as long as no flag without a meaning is set.
-/

namespace StackMachine

namespace Flags

/-- The flags whose letters are shown. -/
def ofLetters (letters : List Char) : Flags :=
  [(zero, 'Z'), (carry, 'C'), (greater, 'G'), (less, 'L')].foldl
    (fun flags (flag, letter) => if letter ∈ letters then flags.union flag else flags) none

/-- Flags that all have a meaning are read back from their letters. -/
theorem ofLetters_text {flags : Flags} (meaningful : flags.bits < 16) : ofLetters flags.text.toList = flags := by
  -- There are sixteen ways to set four flags.
  have all : ∀ bits : Fin 16, ofLetters (Flags.mk (UInt8.ofNat bits)).text.toList = ⟨UInt8.ofNat bits⟩ := by decide
  have small : flags.bits.toNat < 16 := meaningful
  have read := all ⟨flags.bits.toNat, small⟩
  rw [UInt8.ofNat_toNat] at read
  exact read

/-- The letters of the flags stay in their row. -/
theorem newline_notMem_text (flags : Flags) : '\n' ∉ flags.text.toList := by
  intro within
  rw [text, String.toList_ofList] at within
  obtain ⟨⟨flag, letter⟩, listed, same⟩ := List.mem_map.mp within
  -- What is written for a flag is its letter or a dash.
  have letters : ∀ pair ∈ [(zero, 'Z'), (carry, 'C'), (greater, 'G'), (less, 'L')], pair.2 ≠ '\n' := by decide
  simp only at same
  split at same
  · exact letters _ listed same
  · exact absurd same (by decide)

end Flags

namespace Machine

/-- The words on the stack are the numbers in their row, where dashes are none. -/
theorem numbers_stackText (machine : Machine) :
    Text.numbers machine.stackText.toList = machine.stack.live.map (·.toNat) := by
  have solid (word : Word) : ' ' ∉ (Numeral.upperHex 4 word.toNat).toList := Numeral.notMem_padded (.inr rfl)
  have read (word : Word) : Numeral.read? .hexadecimal (Numeral.upperHex 4 word.toNat).toList = some word.toNat :=
    Numeral.read?_padded .hexadecimal .upper 4 word.toNat
  unfold stackText
  generalize machine.stack.live = words
  cases words with
  -- A dash is no digit, so that an empty stack shows no number.
  | nil => decide
  | cons word rest =>
    -- Between two words there is a blank, and within a word there is none.
    have fields : Text.fields (" ".intercalate ((word :: rest).map fun word => Numeral.upperHex 4 word.toNat)).toList =
        (word :: rest).map fun word => (Numeral.upperHex 4 word.toNat).toList := by
      rw [String.toList_intercalate, List.map_map]
      apply List.splitOn_intercalate
      · intro field within
        obtain ⟨word, _, rfl⟩ := List.mem_map.mp within
        exact solid word
      · simp
    rw [Text.numbers, fields, List.filterMap_map]
    simp only [Function.comp_def, read, List.filterMap_eq_map']

/-- The words on the stack stay in their row. -/
theorem newline_notMem_stackText (machine : Machine) : '\n' ∉ machine.stackText.toList := by
  unfold stackText
  generalize machine.stack.live = words
  cases words with
  | nil => decide
  | cons word rest =>
    rw [String.toList_intercalate, List.map_map]
    apply Text.notMem_intercalate (by decide)
    intro field within
    obtain ⟨word, _, rfl⟩ := List.mem_map.mp within
    exact Numeral.notMem_padded (.inl rfl)

/-- The five rows of the text, each with the name of what it shows in front. -/
theorem rows_text (machine : Machine) :
    Text.rows machine.text =
      ["   pc: 0x".toList ++ (Numeral.upperHex 4 machine.pc.toNat).toList,
        "   st: 0x".toList ++ (Numeral.upperHex 2 machine.status.toNat).toList,
        "flags: ".toList ++ machine.flags.text.toList,
        "   sp: ".toList ++ (Numeral.decimal 1 machine.stack.depth).toList,
        "stack: ".toList ++ machine.stackText.toList] := by
  have plain (radix : Radix) (letters : LetterCase) (width number : Nat) :
      '\n' ∉ (Numeral.padded radix letters width number).toList := Numeral.notMem_padded (.inl rfl)
  -- Nothing that is shown has a newline in it.
  apply Text.rows_eq
  · simp [text, toString]
  · simp [Numeral.upperHex, Numeral.decimal, plain, Flags.newline_notMem_text, newline_notMem_stackText]

/-- The text tells the registers and the words on the stack. -/
theorem text_eq_iff {left right : Machine} (leftFlags : left.flags.bits < 16) (rightFlags : right.flags.bits < 16) :
    left.text = right.text ↔
      left.pc = right.pc ∧ left.status = right.status ∧ left.flags = right.flags ∧
        left.stack.depth = right.stack.depth ∧ left.stack.live = right.stack.live := by
  constructor
  · intro same
    -- Both texts have the same five rows, which begin alike.
    have rows := congrArg Text.rows same
    simp only [rows_text, List.cons.injEq, List.append_cancel_left_eq, and_true] at rows
    obtain ⟨pc, status, flags, depth, stack⟩ := rows
    refine ⟨UInt16.toNat_inj.mp (Numeral.padded_inj pc), UInt8.toNat_inj.mp (Numeral.padded_inj status), ?_,
      Numeral.padded_inj depth, ?_⟩
    · rw [← Flags.ofLetters_text leftFlags, flags, Flags.ofLetters_text rightFlags]
    · have words := left.numbers_stackText
      rw [stack, right.numbers_stackText] at words
      exact (List.map_injective_iff.mpr fun _ _ => UInt16.toNat_inj.mp) words.symm
  · -- Nothing else of a machine goes into its text.
    rintro ⟨pc, status, flags, depth, live⟩
    have stack : left.stackText = right.stackText := by rw [stackText, stackText, live]
    rw [text, text, pc, status, flags, depth, stack]

end Machine

/--
The text of a machine tells its registers, its flags and the words on its stack, and nothing else.

Neither the memory nor who watches the machine makes a difference. Whatever is done to a fresh machine, only flags with
a meaning are ever set.
-/
theorem Bench.text_tells_registers (left right : Bench) (leftFlags : left.machine.flags.bits < 16)
    (rightFlags : right.machine.flags.bits < 16) :
    (left.machine.text = right.machine.text ↔
      left.machine.pc = right.machine.pc ∧ left.machine.status = right.machine.status ∧
        left.machine.flags = right.machine.flags ∧ left.machine.stack.depth = right.machine.stack.depth ∧
        left.machine.stack.live = right.machine.stack.live) ∧
    (∀ (memory : Memory) (watch : Watch),
      (⟨{ left.machine with memory }, watch⟩ : Bench).machine.text = left.machine.text) ∧
    ∀ actions : List Action,
      (Bench.initial.actAll actions).machine.stack.WellFormed ∧
        (Bench.initial.actAll actions).machine.flags.bits < 16 := by
  refine ⟨Machine.text_eq_iff leftFlags rightFlags, fun _ _ => rfl, ?_⟩
  intro actions
  have sound : (Bench.initial.actAll actions).machine.Sound := actAll_sound .initial actions
  exact ⟨sound.formed, sound.flags.bounded⟩

/-- One word less on the stack shows, but neither another memory word nor another watch does. -/
theorem Bench.text_tells_registers_held :
    let held := (Stack.empty.pushUnchecked 7).pushUnchecked 0xFFFF
    let left : Bench := ⟨⟨5, 0, .carry, held, .zero⟩, .idle⟩
    let fewer : Bench := ⟨⟨5, 0, .carry, Stack.empty.pushUnchecked 7, .zero⟩, .idle⟩
    let other : Bench :=
      ⟨⟨5, 0, .carry, held, Memory.zero.write 3 9⟩, { Watch.idle with verbose := true, subscriber := .panel }⟩
    (left.machine.flags.bits < 16 ∧ fewer.machine.flags.bits < 16 ∧ other.machine.flags.bits < 16) ∧
      left.machine.text ≠ fewer.machine.text ∧ left.machine.text = other.machine.text := by
  intro held left fewer other
  have small : Flags.carry.bits < 16 := by decide
  refine ⟨⟨small, small, small⟩, ?_, (text_tells_registers left other small small).1.mpr ⟨rfl, rfl, rfl, rfl, rfl⟩⟩
  intro same
  have depth := ((text_tells_registers left fewer small small).1.mp same).2.2.2.1
  exact absurd depth (by decide)

end StackMachine
