import StackMachine.Proofs.Panel.Update
import StackMachine.Proofs.Text.Rows

/-!
Reading the text of a panel: five rows of registers, then a row for each memory word, by ascending address.

The text tells the registers and the memory words, so that two panels with the same text show the same.
-/

namespace StackMachine

namespace Panel

open Change

/-- The numbers of the registers in the rows of the text. -/
def registerNumbers : List (List Nat) :=
  [[16, 17], [0, 1, 2, 3], [4, 5, 6, 7], [8, 9, 10, 11], [12, 13, 14, 15]]

/-- The address and the word that a row shows. -/
def pair? (row : List Char) : Option (Nat × Nat) :=
  match row.splitOn ':' with
  | [address, ' ' :: word] => do
    return (← Numeral.read? .hexadecimal address, ← Numeral.read? .hexadecimal word)
  | _ => none

/-- The panel after batches that were announced one after the other. -/
def updateAll (panel : Panel) (batches : List Batch) : Panel :=
  batches.foldl (fun panel batch => (panel.update batch).2) panel

/-! ### Rows of registers -/

/-- The name of a register with the colon behind it. -/
def label (number : Nat) : List Char :=
  (Register.name number).toList ++ [':']

/-- The digits of a register. -/
def digits (panel : Panel) (number : Nat) : List Char :=
  (Numeral.upperHex 4 (panel.registers.getD number 0).toNat).toList

/-- Some registers in a row. -/
def registerRow (panel : Panel) (numbers : List Nat) : List Char :=
  (" ".intercalate (numbers.map panel.registerText)).toList

/-- The text of a register is its name and its digits, with a blank between them. -/
theorem toList_registerText (panel : Panel) (number : Nat) :
    (panel.registerText number).toList = label number ++ ' ' :: panel.digits number := by
  simp [registerText, label, digits, toString]

/-- A register's name is one field of one row. -/
theorem notMem_name {separator : Char} (other : separator = '\n' ∨ separator = ' ') (number : Nat) :
    separator ∉ (Register.name number).toList := by
  have spelled : Numeral.signed Numeral.decimal 2 (number : Int) = Numeral.padded .decimal .lower 2 number := rfl
  have slot : separator ∉ (Numeral.padded .decimal .lower 2 number).toList := Numeral.notMem_padded other
  -- Only the slots are named by their number.
  unfold Register.name
  split
  · rcases other with rfl | rfl <;> decide
  · split
    · rcases other with rfl | rfl <;> decide
    · rw [spelled, String.toList_append, List.mem_append, not_or]
      refine ⟨?_, slot⟩
      rcases other with rfl | rfl <;> decide

/-- The name of a register holds neither a newline nor a blank. -/
theorem notMem_label {separator : Char} (other : separator = '\n' ∨ separator = ' ') (number : Nat) :
    separator ∉ label number := by
  rw [label, List.mem_append, not_or]
  refine ⟨notMem_name other number, ?_⟩
  rcases other with rfl | rfl <;> decide

/-- A row of registers goes on behind its first one with the row of the others. -/
theorem registerRow_cons_cons (panel : Panel) (number next : Nat) (rest : List Nat) :
    panel.registerRow (number :: next :: rest) =
      label number ++ ' ' :: (panel.digits number ++ ' ' :: panel.registerRow (next :: rest)) := by
  simp only [registerRow, String.toList_intercalate, List.map_cons, List.intercalate_cons_cons, toList_registerText]
  simp

/-- Neither the labels nor the values end a row of registers. -/
theorem newline_notMem_registerRow (panel : Panel) (numbers : List Nat) : '\n' ∉ panel.registerRow numbers := by
  have plain (number : Nat) : '\n' ∉ panel.digits number := Numeral.notMem_padded (.inl rfl)
  rw [registerRow, String.toList_intercalate]
  apply Text.notMem_intercalate (by decide)
  intro field within
  simp only [List.map_map, List.mem_map, Function.comp_apply, toList_registerText] at within
  obtain ⟨number, _, rfl⟩ := within
  simp [notMem_label (.inl rfl), plain]

/-- A row of registers shows their values; the colon of a label is no digit. -/
theorem numbers_registerRow (panel : Panel) (numbers : List Nat) :
    Text.numbers (panel.registerRow numbers) = numbers.map fun number => (panel.registers.getD number 0).toNat := by
  have solid (number : Nat) : ' ' ∉ panel.digits number := Numeral.notMem_padded (.inr rfl)
  have named (number : Nat) : Numeral.read? .hexadecimal (label number) = none :=
    Numeral.read?_eq_none (List.mem_append_right _ (List.mem_singleton_self ':')) (by decide)
  have read (number : Nat) : Numeral.read? .hexadecimal (panel.digits number) =
      some (panel.registers.getD number 0).toNat := Numeral.read?_padded .hexadecimal .upper 4 _
  -- The last register has no blank behind it, and is read on its own.
  induction numbers with
  | nil => rfl
  | cons number rest ih =>
    cases rest with
    | nil =>
      rw [registerRow, List.map_cons, List.map_nil, String.intercalate_singleton, toList_registerText,
        Text.numbers_append (notMem_label (.inr rfl) number), Text.numbers_single (solid number), named, read]
      rfl
    | cons next rest =>
      rw [registerRow_cons_cons, Text.numbers_append (notMem_label (.inr rfl) number),
        Text.numbers_append (solid number), named, read, ih]
      rfl

/-! ### Rows of memory words -/

/-- A memory word in a row. -/
def memoryRow (entry : Word × Word) : List Char :=
  (Numeral.upperHex 3 entry.1.toNat).toList ++ ':' :: ' ' :: (Numeral.upperHex 4 entry.2.toNat).toList

/-- The line of a memory word is its row with a newline behind it. -/
theorem toList_memoryLine (entry : Word × Word) : (memoryLine entry).toList = memoryRow entry ++ ['\n'] := by
  simp [memoryLine, memoryRow, toString]

/-- The row of a memory word holds no newline. -/
theorem newline_notMem_memoryRow (entry : Word × Word) : '\n' ∉ memoryRow entry := by
  have plain (width number : Nat) : '\n' ∉ (Numeral.upperHex width number).toList := Numeral.notMem_padded (.inl rfl)
  simp [memoryRow, plain]

/-- A row tells its address, with three digits or four, and its word. -/
theorem pair?_memoryRow (entry : Word × Word) : pair? (memoryRow entry) = some (entry.1.toNat, entry.2.toNat) := by
  have colon (width number : Nat) : ':' ∉ (Numeral.upperHex width number).toList :=
    Numeral.notMem_padded_of_no_digit (by decide)
  -- The colon between the two numbers is the only one.
  have parts : (memoryRow entry).splitOn ':' =
      [(Numeral.upperHex 3 entry.1.toNat).toList, ' ' :: (Numeral.upperHex 4 entry.2.toNat).toList] := by
    rw [memoryRow, List.splitOn_append_cons_self_of_not_mem (colon 3 _), List.splitOn_eq_singleton]
    simp [colon]
  rw [pair?, parts]
  simp only [Numeral.upperHex, Numeral.read?_padded]
  rfl

/-- The memory words are shown by ascending address. -/
theorem ascending_toList (memory : Std.TreeMap Word Word) :
    memory.toList.Pairwise fun lower higher => lower.1 < higher.1 :=
  Std.TreeMap.ordered_keys_toList.imp Std.compare_eq_lt.mp

/-! ### The whole text -/

/-- The rows of registers, and behind them those of the memory words. -/
theorem rows_text (panel : Panel) :
    Text.rows panel.text = registerNumbers.map panel.registerRow ++ panel.memory.toList.map memoryRow := by
  -- The first five lines are written one by one, and the others by going through the memory.
  have registers : (s!"{panel.registerText 16} {panel.registerText 17}\n" ++
      String.join ((List.range 4).map panel.slotLine)).toList =
      (registerNumbers.map panel.registerRow).flatMap (· ++ ['\n']) := by
    simp [registerNumbers, registerRow, slotLine, List.range_succ, toString]
  apply Text.rows_eq
  · rw [text, String.toList_append, registers, String.toList_join, List.flatMap_append]
    simp only [List.flatMap_map, toList_memoryLine]
  · intro row within
    rcases List.mem_append.mp within with registers | words
    · obtain ⟨numbers, _, rfl⟩ := List.mem_map.mp registers
      exact panel.newline_notMem_registerRow numbers
    · obtain ⟨entry, _, rfl⟩ := List.mem_map.mp words
      exact newline_notMem_memoryRow entry

/-- What the rows of a panel show. -/
theorem read_rows_text (panel : Panel) :
    ((Text.rows panel.text).take 5).map Text.numbers =
        (registerNumbers.map fun numbers => numbers.map fun number => (panel.registers.getD number 0).toNat) ∧
      ((Text.rows panel.text).drop 5).map pair? =
        panel.memory.toList.map fun entry => some (entry.1.toNat, entry.2.toNat) := by
  -- There are five rows of registers, whatever they hold.
  have five : (registerNumbers.map panel.registerRow).length = 5 := rfl
  rw [rows_text, ← five, List.take_left, List.drop_left]
  simp only [List.map_map, Function.comp_def, numbers_registerRow, pair?_memoryRow, and_self]

/-- Every register is in one of the rows. -/
theorem registers_eq_of_numbers {left right : Panel}
    (same : (registerNumbers.map fun numbers => numbers.map fun number => (left.registers.getD number 0).toNat) =
      registerNumbers.map fun numbers => numbers.map fun number => (right.registers.getD number 0).toNat) :
    left.registers = right.registers := by
  have all : ∀ number < 18, ∃ numbers ∈ registerNumbers, number ∈ numbers := by decide
  apply Vector.ext
  intro number inside
  obtain ⟨numbers, listed, within⟩ := all number inside
  have value := List.map_inj_left.mp (List.map_inj_left.mp same numbers listed) number within
  simpa [Vector.getD, inside] using UInt16.toNat_inj.mp value

/-- The memory words in order tell the word at every address. -/
theorem toList_eq_iff (left right : Std.TreeMap Word Word) :
    left.toList = right.toList ↔ ∀ address : Word, left[address]? = right[address]? := by
  rw [← Std.TreeMap.equiv_iff_toList_eq]
  constructor
  · intro same address
    exact same.getElem?_eq
  · exact Std.TreeMap.Equiv.of_forall_constGet?_eq

/-- The text tells the registers and the memory words. -/
theorem text_eq_iff (left right : Panel) :
    left.text = right.text ↔
      left.registers = right.registers ∧ ∀ address : Word, left.memory[address]? = right.memory[address]? := by
  rw [← toList_eq_iff]
  constructor
  · intro same
    obtain ⟨leftRegisters, leftWords⟩ := left.read_rows_text
    obtain ⟨rightRegisters, rightWords⟩ := right.read_rows_text
    rw [same] at leftRegisters leftWords
    refine ⟨registers_eq_of_numbers (leftRegisters.symm.trans rightRegisters), ?_⟩
    -- A row tells its address and its word.
    have injective : Function.Injective fun entry : Word × Word => some (entry.1.toNat, entry.2.toNat) := by
      intro first second told
      simp only [Option.some.injEq, Prod.mk.injEq, UInt16.toNat_inj] at told
      exact Prod.ext told.1 told.2
    exact injective.list_map (leftWords.symm.trans rightWords)
  · -- The count of the updates is not shown.
    rintro ⟨registers, words⟩
    have register (number : Nat) : left.registerText number = right.registerText number := by
      rw [registerText, registerText, registers]
    have slots : left.slotLine = right.slotLine := by
      funext row
      simp only [slotLine, register]
    simp only [text, register, slots, words]

/-! ### Any batches -/

/-- Batches one after the other show what all their changes show. -/
theorem updateAll_shows (batches : List Batch) (panel : Panel) :
    (panel.updateAll batches).registers = (batches.flatten.foldl apply panel).registers ∧
      (panel.updateAll batches).memory = (batches.flatten.foldl apply panel).memory := by
  induction batches generalizing panel with
  | nil => exact ⟨rfl, rfl⟩
  | cons batch rest ih =>
    -- The first batch is counted, which is no matter to any of the changes.
    have whole : rest.flatten.foldl apply (panel.update batch).2 =
        { (batch :: rest).flatten.foldl apply panel with updates := panel.updates + 1 } := by
      rw [update, ← List.foldl_append, ← List.flatten_cons, foldl_counting]
    have later := ih (panel.update batch).2
    rw [whole] at later
    exact later

/-- The registers of a panel that was blank before. -/
theorem registers_get_updateAll_blank (batches : List Batch) (number : Fin 18) :
    (blank.updateAll batches).registers.get number = (lastValue? batches.flatten .register number).getD 0 := by
  have zero : blank.registers.get number = 0 := Vector.getElem_replicate number.isLt
  rw [(updateAll_shows batches blank).1, registers_get_foldl, zero]

/-- The memory words of a panel that was blank before. -/
theorem memory_updateAll_blank (batches : List Batch) (address : Word) :
    (blank.updateAll batches).memory[address]? = lastValue? batches.flatten .memory address.toNat := by
  have none : blank.memory[address]? = none := Std.TreeMap.getElem?_emptyc
  rw [(updateAll_shows batches blank).2, memory_foldl, none, Option.or_none]

/--
The text of a panel tells what it shows and no more.

Two panels have the same text exactly when their registers and memory words are the same. Behind five rows of registers
there is a row for each memory word, by ascending address. After any batches the text depends on nothing but the last
value of each place, in whatever order these were announced.
-/
theorem text_tells_places :
    (∀ left right : Panel, left.text = right.text ↔
      left.registers = right.registers ∧ ∀ address : Word, left.memory[address]? = right.memory[address]?) ∧
    (∀ panel : Panel, ∃ entries : List (Word × Word),
      (entries.Pairwise fun lower higher => lower.1 < higher.1) ∧
      (∀ address word, (address, word) ∈ entries ↔ panel.memory[address]? = some word) ∧
      ((Text.rows panel.text).take 5).map Text.numbers =
        (registerNumbers.map fun numbers => numbers.map fun number => (panel.registers.getD number 0).toNat) ∧
      ((Text.rows panel.text).drop 5).map pair? =
        entries.map fun entry => some (entry.1.toNat, entry.2.toNat)) ∧
    ∀ first second : List Batch, (blank.updateAll first).text = (blank.updateAll second).text ↔
      (∀ number : Fin 18, (lastValue? first.flatten .register number).getD 0 =
        (lastValue? second.flatten .register number).getD 0) ∧
      ∀ address : Word, lastValue? first.flatten .memory address.toNat =
        lastValue? second.flatten .memory address.toNat := by
  refine ⟨text_eq_iff, ?_, ?_⟩
  · intro panel
    refine ⟨panel.memory.toList, ascending_toList panel.memory, ?_, panel.read_rows_text⟩
    intro address word
    exact Std.TreeMap.mem_toList_iff_getElem?_eq_some
  · -- A place without a change is as it was on the blank panel.
    intro first second
    have registers : (blank.updateAll first).registers = (blank.updateAll second).registers ↔
        ∀ number : Fin 18, (blank.updateAll first).registers.get number =
          (blank.updateAll second).registers.get number := by
      refine ⟨fun same number => by rw [same], fun same => ?_⟩
      apply Vector.ext
      intro number inside
      exact same ⟨number, inside⟩
    rw [text_eq_iff, registers]
    simp only [registers_get_updateAll_blank, memory_updateAll_blank]

end Panel

end StackMachine
