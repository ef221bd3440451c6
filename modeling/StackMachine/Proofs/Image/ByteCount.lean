import StackMachine.Proofs.Image.Parts

/-!
How many bytes the reading of an image counts.

Each line counts with one byte for its end, whatever that end is. The count therefore misses every carriage return that
was dropped from a line, and has one byte too many for a last line without a newline.
-/

namespace StackMachine

namespace Bytes

/-- How many carriage returns stand at the end of a line, that is in front of a newline or at the end of the text. -/
def endingReturns : Bytes → Nat
  | [] => 0
  | byte :: rest =>
    endingReturns rest + if byte = carriageReturn ∧ (rest = [] ∨ rest.head? = some newline) then 1 else 0

/-- How many lines are not ended by a newline: one, if there is anything behind the last newline. -/
def openLines (text : Bytes) : Nat :=
  if text = [] ∨ text.getLast? = some newline then 0 else 1

/-- A single byte leaves a line open unless it is a newline. -/
theorem openLines_singleton (byte : UInt8) : openLines [byte] = if byte = newline then 0 else 1 := by
  simp [openLines]

/-- What stands in front of a text that is not empty does not end its last line. -/
theorem openLines_cons {rest : Bytes} (more : rest ≠ []) (byte : UInt8) :
    openLines (byte :: rest) = openLines rest := by
  obtain ⟨next, later, rfl⟩ := List.exists_cons_of_ne_nil more
  simp only [openLines, List.getLast?_cons_cons, reduceCtorEq, false_or]

end Bytes

namespace Lines

open Bytes (newline carriageReturn)

/-- A newline at the start of a text ends an empty piece. -/
theorem pieces_newline (rest : Bytes) : pieces (newline :: rest) = [] :: pieces rest := by
  rw [pieces, List.splitOn_cons_eq_if_modifyHead, beq_self_eq_true, if_pos rfl,
    withoutEmptyEnd_cons [] (List.splitOn_ne_nil newline rest), pieces]

/-- A text without a newline in it is its own only row. -/
theorem eq_of_splitOn_singleton {text row : Bytes} (single : text.splitOn newline = [row]) : text = row := by
  have joined : [newline].intercalate (text.splitOn newline) = text := List.intercalate_splitOn newline
  rw [single, List.intercalate_singleton] at joined
  exact joined.symm

/-- Any other byte in front of a text goes to its first row. -/
theorem splitOn_byte {byte : UInt8} (inside : byte ≠ newline) (rest : Bytes) :
    (byte :: rest).splitOn newline = (rest.splitOn newline).modifyHead (byte :: ·) := by
  rw [List.splitOn_cons_eq_if_modifyHead, if_neg (by simpa using inside)]

/-- It goes to the first piece as well, unless the text has none. -/
theorem pieces_byte {byte : UInt8} (inside : byte ≠ newline) {rest : Bytes} (more : rest ≠ []) :
    pieces (byte :: rest) = (pieces rest).modifyHead (byte :: ·) := by
  obtain ⟨row, later, rows⟩ := List.exists_cons_of_ne_nil (List.splitOn_ne_nil newline rest)
  rw [pieces, splitOn_byte inside, pieces, rows]
  cases later with
  | cons next later =>
    -- Rows follow, so that the first one stays whatever it holds.
    simp only [List.modifyHead_cons, withoutEmptyEnd_cons _ (List.cons_ne_nil next later)]
  | nil =>
    -- The only row is the whole text, in which there is something.
    rw [eq_of_splitOn_singleton rows] at more
    simp [withoutEmptyEnd, more]

/-- A text that is not empty has a first piece, in which there is nothing exactly if the text starts with a newline. -/
theorem exists_first_piece {text : Bytes} (filled : text ≠ []) :
    ∃ piece later, pieces text = piece :: later ∧ (piece = [] ↔ text.head? = some newline) := by
  obtain ⟨byte, rest, rfl⟩ := List.exists_cons_of_ne_nil filled
  by_cases ends : byte = newline
  · exact ⟨[], pieces rest, by rw [ends, pieces_newline], by simp [ends]⟩
  · obtain ⟨row, later, rows⟩ := List.exists_cons_of_ne_nil (List.splitOn_ne_nil newline rest)
    obtain ⟨others, kept⟩ := withoutEmptyEnd_head (List.cons_ne_nil byte row) later
    refine ⟨byte :: row, others, ?_, by simp [ends]⟩
    rw [pieces, splitOn_byte ends, rows]
    exact kept

/-- A byte in front of a piece counts, unless it is a carriage return with nothing behind it. -/
theorem length_withoutReturn_cons (byte : UInt8) (piece : Bytes) :
    (withoutReturn (byte :: piece)).length + (if byte = carriageReturn ∧ piece = [] then 1 else 0) =
      (withoutReturn piece).length + 1 := by
  cases piece with
  | nil => by_cases dropped : byte = carriageReturn <;> simp [withoutReturn, dropped]
  | cons next rest =>
    -- Whether the last byte is dropped does not depend on the first one.
    simp only [withoutReturn, List.getLast?_cons_cons, reduceCtorEq, and_false, if_false, Nat.add_zero]
    split
    · rw [List.dropLast_cons_of_ne_nil (List.cons_ne_nil next rest), List.length_cons]
    · rw [List.length_cons]

/--
The lines of a text count as many bytes as the text has, but for the carriage returns that were dropped and for a last
line that is counted as if it were ended.
-/
theorem byteCount_pieces (text : Bytes) :
    Reader.byteCount ((pieces text).map withoutReturn) + text.endingReturns = text.length + text.openLines := by
  -- The induction takes off the first byte, which ends an empty piece or belongs to the first one.
  induction text with
  | nil => rfl
  | cons byte rest ih =>
    by_cases ends : byte = newline
    · -- The newline is the one byte that its empty line counts.
      have kept : ¬ byte = carriageReturn := by rw [ends]; decide
      have closed : Bytes.openLines (byte :: rest) = Bytes.openLines rest := by
        by_cases last : rest = []
        · rw [last, Bytes.openLines_singleton, if_pos ends]
          rfl
        · exact Bytes.openLines_cons last byte
      simp only [Bytes.endingReturns, kept, false_and, if_false, closed, List.length_cons]
      rw [ends, pieces_newline, List.map_cons, Reader.byteCount]
      have nothing : (withoutReturn []).length = 0 := rfl
      omega
    · by_cases last : rest = []
      · -- A single byte is an open line, which a carriage return leaves empty.
        have counted := length_withoutReturn_cons byte []
        subst last
        have single : pieces [byte] = [[byte]] := by
          simp [pieces, splitOn_byte ends, withoutEmptyEnd]
        simp only [single, List.map_cons, List.map_nil, Reader.byteCount, Bytes.endingReturns,
          Bytes.openLines_singleton, if_neg ends, true_or, and_true, List.length_singleton] at counted ⊢
        have nothing : (withoutReturn []).length = 0 := rfl
        omega
      · -- The byte is one more of the first piece, unless it is a carriage return that is dropped from it.
        obtain ⟨piece, later, first, empty_iff⟩ := exists_first_piece last
        have counted := length_withoutReturn_cons byte piece
        rw [first, List.map_cons, Reader.byteCount] at ih
        rw [pieces_byte ends last, first, List.modifyHead_cons, List.map_cons, Reader.byteCount,
          Bytes.openLines_cons last, List.length_cons]
        simp only [Bytes.endingReturns, last, false_or, ← empty_iff]
        omega

end Lines

namespace Image

/-- A reading without a fault counts the bytes of every line of the text. -/
theorem bytes_of_passed {image : Image} {source : Source} (passed : (image.read source).1.2 = none) :
    (image.read source).1.1 = Reader.byteCount ((Lines.pieces source.text).map Lines.withoutReturn) := by
  -- Every line fits the buffer, so that all of them reach the reader.
  have short := (accepted_of_read passed).short
  have all : source.lines = (Lines.pieces source.text).map Lines.withoutReturn := by
    rw [Source.lines, List.takeWhile_eq_self_iff.mpr short]
  have reading := image.reading_read source
  generalize image.read source = result at reading passed
  cases reading with
  | badLine => cases passed
  | cleanLines => rw [all]

/--
How many bytes a reading without a fault counts.

The count and the carriage returns at the ends of lines make up the length of the text, with one more for a last line
that no newline ends. So the count is within one of the length, and exact for a text that is ended, exactly where no
carriage return is dropped, or a single one from a text that is not ended.
-/
theorem read_bytes (image : Image) (source : Source) (passed : (image.read source).1.2 = none) :
    let text := source.text
    let bytes := (image.read source).1.1
    let ended := text = [] ∨ text.getLast? = some Bytes.newline
    (ended → bytes + text.endingReturns = text.length) ∧
      (¬ ended → bytes + text.endingReturns = text.length + 1) ∧
      ((text.length ≤ bytes ∧ bytes ≤ text.length + 1 ∧ (ended → bytes = text.length)) ↔
        text.endingReturns = 0 ∨ ¬ ended ∧ text.endingReturns = 1) := by
  intro text bytes ended
  have total : bytes + text.endingReturns = text.length + text.openLines := by
    rw [← Lines.byteCount_pieces text, ← bytes_of_passed passed]
  by_cases closed : ended
  · have none : text.openLines = 0 := if_pos closed
    simp only [closed, not_true_eq_false, false_implies, true_and, true_implies, false_and, or_false]
    omega
  · have one : text.openLines = 1 := if_neg closed
    simp only [closed, not_false_eq_true, false_implies, true_and, true_implies, and_true]
    omega

/-- Of two lines with carriage returns and an open third one, the reading counts one byte less than there are. -/
theorem read_bytes_open :
    let text := utf8 "1005\r\n;\r\n20\t00"
    (empty.read ⟨text, none⟩).1.2 = none ∧ text.length = 14 ∧ (empty.read ⟨text, none⟩).1.1 = 13 := by
  intro text
  have passed : (empty.read ⟨text, none⟩).1.2 = none := Option.isNone_iff_eq_none.mp (by decide +kernel)
  have counted := (read_bytes empty ⟨text, none⟩ passed).2.1 (by decide +kernel)
  have length : text.length = 14 := by decide +kernel
  have returns : text.endingReturns = 2 := by decide +kernel
  rw [returns, length] at counted
  exact ⟨passed, length, Nat.add_right_cancel counted⟩

/-- A line with a carriage return at its end is read without a fault, but counts less than its bytes. -/
theorem read_bytes_short :
    let text := utf8 "1005\r\n"
    (empty.read ⟨text, none⟩).1.2 = none ∧ text.length = 6 ∧ (empty.read ⟨text, none⟩).1.1 = 5 ∧
      ¬ text.length ≤ (empty.read ⟨text, none⟩).1.1 := by
  intro text
  have passed : (empty.read ⟨text, none⟩).1.2 = none := Option.isNone_iff_eq_none.mp (by decide +kernel)
  exact ⟨passed, by decide +kernel, by decide +kernel, by decide +kernel⟩

end Image

end StackMachine
