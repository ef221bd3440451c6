import StackMachine.Proofs.Image.Reader
import StackMachine.Proofs.Listing

/-!
Digits laid out as text are read as the words that they spell, whatever stands between them.

The words of a listing are spelled by its second column, so that a listing can be read back from it.
-/

namespace StackMachine

/--
The texts in which some digits stand in order.

A digit may be a letter of either case. White space, which the ends of lines are too, and comments up to the end of
their line may stand in front of every digit and behind the last.
-/
inductive Layout : List Char → Bytes → Prop where
  | ended : Layout [] []
  | digit {digit : Char} {digits : List Char} {rest : Bytes} (char : Char)
      (either : char = digit ∨ char = digit.toLower) (more : Layout digits rest) :
      Layout (digit :: digits) (String.utf8EncodeChar char ++ rest)
  | blank {digits : List Char} {rest : Bytes} (char : Char) (white : CharClass.blank.contains char)
      (more : Layout digits rest) : Layout digits (String.utf8EncodeChar char ++ rest)
  | comment {digits : List Char} {rest : Bytes} (remark : Bytes) (inside : Bytes.newline ∉ remark)
      (more : Layout digits rest) : Layout digits (Reader.commentMark :: remark ++ Bytes.newline :: rest)

namespace Reader

/-- A character at the start of a line counts, unless it opens a comment. -/
theorem lineChars_encode_append {char : Char} (other : char ≠ ';') (line : Bytes) :
    lineChars (String.utf8EncodeChar char ++ line) = char :: lineChars line := by
  -- The mark is a character of one byte, which no other character has among its own.
  have inside : commentMark ∉ String.utf8EncodeChar char := Utf8.notMem_encode other rfl (by decide)
  have all : ∀ byte ∈ String.utf8EncodeChar char, decide (byte ≠ commentMark) = true := by
    intro byte within
    exact decide_eq_true fun same => inside (same ▸ within)
  rw [lineChars, List.takeWhile_append_of_pos all, Utf8.decode_encode_append, lineChars]

/-- Nothing counts in a line that starts with a comment. -/
theorem lineChars_comment (remark : Bytes) : lineChars (commentMark :: remark) = [] := by
  simp [lineChars, Utf8.decode_nil]

/-- The carriage return that is cut off a line was white space at the end of it, or part of a comment. -/
theorem lineChars_withoutReturn (line : Bytes) :
    lineChars line = lineChars (Lines.withoutReturn line) ∨
      lineChars line = lineChars (Lines.withoutReturn line) ++ ['\r'] := by
  unfold Lines.withoutReturn
  split
  case isTrue ends =>
    -- The line ends in the encoding of the character.
    obtain ⟨front, rfl⟩ := List.getLast?_eq_some_iff.mp ends
    rw [List.dropLast_concat, lineChars, lineChars, List.takeWhile_append]
    split
    case isTrue whole =>
      -- No comment starts in front of it, so that it is a character of its own.
      right
      have all := (List.takeWhile_prefix (fun byte => decide (byte ≠ commentMark))).eq_of_length whole
      rw [all]
      have ascii : '\r'.toNat < 0x80 := by decide
      exact Utf8.decode_append_ascii front ascii
    case isFalse => exact .inl rfl
  case isFalse => exact .inl rfl

/-- A carriage return at the end of a line does not matter to whether the line is clean. -/
theorem isClean_withoutReturn (line : Bytes) : isClean (Lines.withoutReturn line) = isClean line := by
  rcases lineChars_withoutReturn line with same | ended
  · rw [isClean, isClean, same]
  · -- The character that is lost may stand anywhere.
    have readable : isReadable '\r' = true := by decide
    rw [isClean, isClean, ended, List.all_append, List.all_cons, readable, List.all_nil, Bool.and_true, Bool.and_true]

/-- A carriage return at the end of a line adds no digit to it. -/
theorem lineDigits_withoutReturn (line : Bytes) : lineDigits (Lines.withoutReturn line) = lineDigits line := by
  rcases lineChars_withoutReturn line with same | ended
  · rw [lineDigits, lineDigits, same]
  · -- The character that is lost is no digit.
    have none : ['\r'].filter isHexDigit = [] := by decide
    rw [lineDigits, lineDigits, ended, List.filter_append, none, List.append_nil]

/-- Rows that hold, in front of comments, nothing but white space and digits that count what some digits count. -/
structure Spells (digits : List Char) (rows : List Bytes) : Prop where
  clean : ∀ row ∈ rows, isClean row
  values : (rows.flatMap lineDigits).map hexValue = digits.map hexValue

/-- Digits that count at least four numbers start with a group of four. -/
theorem exists_group {digits : List Char} {one two three four : Nat} {others : List Nat}
    (values : digits.map hexValue = one :: two :: three :: four :: others) :
    ∃ first second third fourth rest, digits = first :: second :: third :: fourth :: rest ∧ hexValue first = one ∧
      hexValue second = two ∧ hexValue third = three ∧ hexValue fourth = four ∧ rest.map hexValue = others := by
  obtain ⟨first, _, rfl, isOne, values⟩ := List.map_eq_cons_iff.mp values
  obtain ⟨second, _, rfl, isTwo, values⟩ := List.map_eq_cons_iff.mp values
  obtain ⟨third, _, rfl, isThree, values⟩ := List.map_eq_cons_iff.mp values
  obtain ⟨fourth, rest, rfl, isFour, values⟩ := List.map_eq_cons_iff.mp values
  exact ⟨first, second, third, fourth, rest, rfl, isOne, isTwo, isThree, isFour, values⟩

/-- The words depend on nothing but what the digits count. -/
theorem wordsOf_congr {digits others : List Char} (values : digits.map hexValue = others.map hexValue) :
    wordsOf digits = wordsOf others := by
  fun_induction wordsOf digits generalizing others with
  | case1 first second third fourth rest ih =>
    obtain ⟨_, _, _, _, later, rfl, one, two, three, four, tail⟩ := exists_group values.symm
    rw [wordsOf, one, two, three, four, ih tail.symm]
  | case2 digits short =>
    -- Without a group of four on one side there is none on the other.
    rw [wordsOf.eq_def]
    split
    · obtain ⟨first, second, third, fourth, rest, same, _⟩ := exists_group values
      exact (short first second third fourth rest same).elim
    · rfl

/-- The four digits of a word are read as that word. -/
theorem wordsOf_upperHex_append (word : Word) (rest : List Char) :
    wordsOf ((Numeral.upperHex 4 word.toNat).toList ++ rest) = word :: wordsOf rest := by
  have small := word.toNat_lt
  -- Every character counts the digit at its place, and the places add up to the word.
  have value : ∀ digit < 16, hexValue (LetterCase.upper.digitChar digit) = digit := by decide
  rw [Listing.toList_upperHex]
  simp only [Radix.places, Radix.base, List.nil_append, List.cons_append, List.map_cons, List.map_nil, wordsOf]
  rw [value _ (by omega), value _ (by omega), value _ (by omega), value _ (by omega)]
  have whole : word.toNat / 16 / 16 / 16 % 16 * 0x1000 + word.toNat / 16 / 16 % 16 * 0x100 +
      word.toNat / 16 % 16 * 0x10 + word.toNat % 16 = word.toNat := by omega
  rw [whole, Nat.toUInt16_eq, UInt16.ofNat_toNat]

/-- The second column of a listing is complete groups of digits, and its words are those of the listing. -/
theorem wordsOf_column (origin : Word) (words : List Word) :
    let digits := (Listing.column 1 (Listing.text origin words)).flatten
    4 ∣ digits.length ∧ wordsOf digits = words := by
  rw [Listing.column_text]
  induction words with
  | nil => exact ⟨Nat.dvd_zero 4, rfl⟩
  | cons word rest ih =>
    -- The word puts one complete group in front of the others.
    obtain ⟨even, later⟩ := ih
    rw [List.map_cons, List.flatten_cons]
    refine ⟨?_, ?_⟩
    · rw [List.length_append, Listing.length_upperHex]
      omega
    · rw [wordsOf_upperHex_append, later]

namespace Spells

variable {digits : List Char} {row : Bytes} {rows : List Bytes}

/-- A row without characters in front of its comment adds nothing. -/
theorem cons (spells : Spells digits rows) (empty : lineChars row = []) : Spells digits (row :: rows) := by
  refine ⟨?_, ?_⟩
  · simpa [isClean, empty] using spells.clean
  · simpa [lineDigits, empty] using spells.values

/--
A readable character at the start of a text adds what it counts if it is a digit, and else nothing.

It must not end a row.
-/
theorem encoded {char : Char} {rest : Bytes} {more : List Char} (spells : Spells digits (rest.splitOn Bytes.newline))
    (inside : char ≠ '\n') (readable : isReadable char)
    (values : more.map hexValue = ([char].filter isHexDigit).map hexValue ++ digits.map hexValue) :
    Spells more ((String.utf8EncodeChar char ++ rest).splitOn Bytes.newline) := by
  have other : char ≠ ';' := by
    rintro rfl
    exact absurd readable (by decide)
  -- The character goes to the first row, and the other rows stay.
  rw [Lines.splitOn_append (Utf8.notMem_encode inside rfl (by decide))]
  obtain ⟨row, rows, split⟩ := List.exists_cons_of_ne_nil (List.splitOn_ne_nil Bytes.newline rest)
  rw [split] at spells ⊢
  have chars := lineChars_encode_append other row
  have clean := spells.clean
  rw [List.modifyHead_cons]
  refine ⟨?_, ?_⟩
  · simp only [List.forall_mem_cons, isClean] at clean ⊢
    rw [chars, List.all_cons, readable, Bool.true_and]
    exact clean
  · rw [values, ← spells.values, ← List.map_append, List.flatMap_cons, List.flatMap_cons, ← List.append_assoc,
      lineDigits, lineDigits, chars, ← List.filter_append]
    rfl

/-- Cutting off an empty end takes no digit away. -/
theorem withoutEmptyEnd (spells : Spells digits rows) : Spells digits (Lines.withoutEmptyEnd rows) := by
  refine ⟨fun row within => spells.clean row (Lines.mem_of_mem_withoutEmptyEnd within), ?_⟩
  rw [← spells.values, Lines.withoutEmptyEnd]
  split
  case isTrue ends =>
    -- The row that is dropped has no digits to lose.
    obtain ⟨front, rfl⟩ := List.getLast?_eq_some_iff.mp ends
    have none : lineDigits [] = [] := by simp [lineDigits, lineChars, Utf8.decode_nil]
    simp [none]
  case isFalse => rfl

/-- Rows spell the same digits without their carriage returns. -/
theorem withoutReturns (spells : Spells digits rows) : Spells digits (rows.map Lines.withoutReturn) := by
  refine ⟨?_, ?_⟩
  · intro line within
    obtain ⟨row, member, rfl⟩ := List.mem_map.mp within
    rw [isClean_withoutReturn]
    exact spells.clean row member
  · simp only [List.flatMap_map, lineDigits_withoutReturn]
    exact spells.values

end Spells

end Reader

open Reader

namespace Layout

/-- An upper-case digit counts the same in either case, and neither ends a line. -/
theorem upper_digit {digit char : Char} (written : ∃ value < 16, digit = LetterCase.upper.digitChar value)
    (either : char = digit ∨ char = digit.toLower) :
    isHexDigit char ∧ hexValue char = hexValue digit ∧ char ≠ '\n' := by
  obtain ⟨value, small, rfl⟩ := written
  rcases either with rfl | rfl
  · have all : ∀ value < 16, isHexDigit (LetterCase.upper.digitChar value) ∧
        LetterCase.upper.digitChar value ≠ '\n' := by
      decide
    exact ⟨(all value small).1, rfl, (all value small).2⟩
  · have all : ∀ value < 16, isHexDigit (LetterCase.upper.digitChar value).toLower ∧
        hexValue (LetterCase.upper.digitChar value).toLower = hexValue (LetterCase.upper.digitChar value) ∧
        (LetterCase.upper.digitChar value).toLower ≠ '\n' := by
      decide
    exact all value small

/-- The rows of a layout spell its digits. -/
theorem spells {digits : List Char} {text : Bytes} (layout : Layout digits text) (written : Listing.Written digits) :
    Spells digits (text.splitOn Bytes.newline) := by
  -- Whatever the layout puts in front of a text changes its first row or adds one.
  have blankLine : lineChars [] = [] := by simp [lineChars, Utf8.decode_nil]
  induction layout with
  | ended =>
    rw [List.splitOn_nil]
    exact .cons ⟨List.forall_mem_nil _, rfl⟩ blankLine
  | @digit digit digits rest char either _ ih =>
    obtain ⟨isDigit, value, inside⟩ := upper_digit (written digit List.mem_cons_self) either
    have later := ih fun other within => written other (List.mem_cons_of_mem digit within)
    refine later.encoded inside (by rw [isReadable, isDigit, Bool.or_true]) ?_
    simp [isDigit, value]
  | @blank digits rest char white _ ih =>
    by_cases ends : char = '\n'
    · -- A newline leaves an empty row in front of the others.
      have rows := List.splitOn_append_cons_self_of_not_mem (a := Bytes.newline) List.not_mem_nil rest
      rw [ends]
      exact rows ▸ (ih written).cons blankLine
    · refine (ih written).encoded ends (by rw [isReadable, white, Bool.true_or]) ?_
      simp [isHexDigit_of_blank white]
  | @comment digits rest remark inside _ ih =>
    -- The comment ends its row, and the text goes on with the next one.
    have whole : Bytes.newline ∉ commentMark :: remark := by
      rw [List.mem_cons, not_or]
      exact ⟨by decide, inside⟩
    rw [List.splitOn_append_cons_self_of_not_mem whole]
    exact (ih written).cons (lineChars_comment remark)

/-- Digits as they are, in front of a text that lays out the later ones. -/
theorem digits_append {later : List Char} {rest : Bytes} (more : Layout later rest) (row : List Char) :
    Layout (row ++ later) (row.flatMap String.utf8EncodeChar ++ rest) := by
  induction row with
  | nil => exact more
  | cons char row ih =>
    rw [List.cons_append, List.flatMap_cons, List.append_assoc]
    exact .digit char (.inl rfl) ih

/-- One row of digits to a line lays them out. -/
theorem ofRows (rows : List (List Char)) :
    Layout rows.flatten (utf8 (String.ofList (rows.flatMap (· ++ ['\n'])))) := by
  rw [Utf8.utf8_ofList]
  induction rows with
  | nil => exact .ended
  | cons row rows ih =>
    -- The newline behind the row counts as white space in front of the next one.
    have ends := Layout.blank '\n' (by decide) ih
    rw [List.flatten_cons, List.flatMap_cons, List.append_assoc, List.flatMap_append, List.flatMap_append]
    exact ends.digits_append row

end Layout

/-- Rows of characters on a line each are the pieces of their text. -/
theorem Lines.pieces_ofRows {rows : List (List Char)} (inside : ∀ row ∈ rows, '\n' ∉ row) :
    pieces (utf8 (String.ofList (rows.flatMap (· ++ ['\n'])))) = rows.map (·.flatMap String.utf8EncodeChar) := by
  rw [Utf8.utf8_ofList, pieces]
  induction rows with
  | nil => simp [withoutEmptyEnd]
  | cons row rows ih =>
    have whole : Bytes.newline ∉ row.flatMap String.utf8EncodeChar := by
      intro within
      obtain ⟨char, member, byte⟩ := List.mem_flatMap.mp within
      have differs : char ≠ '\n' := fun same => inside row List.mem_cons_self (same ▸ member)
      exact Utf8.notMem_encode differs rfl (by decide) byte
    have newline : ['\n'].flatMap String.utf8EncodeChar = [Bytes.newline] := rfl
    have later := ih fun other within => inside other (List.mem_cons_of_mem row within)
    -- The first newline ends the first row, and what follows is never dropped with it.
    rw [List.flatMap_cons, List.append_assoc, List.flatMap_append, List.flatMap_append, newline,
      List.singleton_append, List.splitOn_append_cons_self_of_not_mem whole,
      withoutEmptyEnd_cons _ (List.splitOn_ne_nil _ _), later, List.map_cons]

namespace Image

/-- Digits in complete groups of four are read as their words, however they are laid out on lines that fit. -/
theorem read_of_layout (image : Image) {digits : List Char} {text : Bytes} (layout : Layout digits text)
    (written : Listing.Written digits) (even : 4 ∣ digits.length)
    (short : ∀ piece ∈ Lines.pieces text, Lines.fits piece) :
    (image.read ⟨text, none⟩).1.2 = none ∧
      (image.read ⟨text, none⟩).2 = ⟨image.origin, image.words ++ wordsOf digits⟩ := by
  -- No line is too long for the reader, so that it gets them all.
  have allLines : Source.lines ⟨text, none⟩ = (Lines.pieces text).map Lines.withoutReturn := by
    rw [Source.lines, List.takeWhile_eq_self_iff.mpr short]
  have spells : Spells digits (Source.lines ⟨text, none⟩) := by
    rw [allLines]
    exact (layout.spells written).withoutEmptyEnd.withoutReturns
  -- The letters may differ from those of the layout in their case, but not in their number.
  have count : (Source.digits ⟨text, none⟩).length = digits.length := by
    simpa [Source.digits] using congrArg List.length spells.values
  have reading : image.Reading ⟨text, none⟩ _ := .cleanLines spells.clean (.behindWord short rfl (count ▸ even))
  rw [read_of_reading reading, Source.digits, wordsOf_congr spells.values]
  exact ⟨rfl, rfl⟩

/--
A listing is read back from its second column.

The column may be written one word to a line. Its digits may as well be laid out in any other way on lines that fit.
-/
theorem read_column (origin start : Word) (words : List Word) :
    let column := Listing.column 1 (Listing.text origin words)
    let result (text : Bytes) := (⟨start, []⟩ : Image).read ⟨text, none⟩
    let plain := utf8 (String.ofList (column.flatMap (· ++ ['\n'])))
    ((result plain).1.2 = none ∧ (result plain).2 = ⟨start, words⟩) ∧
      ∀ text, Layout column.flatten text → (∀ piece ∈ Lines.pieces text, piece.length + 1 ≤ 65536) →
        (result text).1.2 = none ∧ (result text).2 = ⟨start, words⟩ := by
  intro column result plain
  obtain ⟨even, same⟩ := wordsOf_column origin words
  have laid (text : Bytes) (layout : Layout column.flatten text)
      (short : ∀ piece ∈ Lines.pieces text, piece.length + 1 ≤ 65536) :
      (result text).1.2 = none ∧ (result text).2 = ⟨start, words⟩ := by
    have fitting : ∀ piece ∈ Lines.pieces text, Lines.fits piece := by
      intro piece within
      exact decide_eq_true (short piece within)
    have read := read_of_layout ⟨start, []⟩ layout (Listing.written_column origin words) even fitting
    rw [same] at read
    exact read
  refine ⟨laid plain (.ofRows column) ?_, laid⟩
  -- One word to a line makes lines of four characters.
  intro piece within
  have inside : ∀ field ∈ column, '\n' ∉ field := by
    intro field member
    obtain ⟨word, _, rfl⟩ := Listing.exists_word_of_mem_column member
    exact Numeral.notMem_padded (.inl rfl)
  rw [Lines.pieces_ofRows inside] at within
  obtain ⟨field, member, rfl⟩ := List.mem_map.mp within
  obtain ⟨word, _, rfl⟩ := Listing.exists_word_of_mem_column member
  have bytes := Utf8.length_encode_le (Numeral.upperHex 4 word.toNat).toList
  rw [Listing.length_upperHex] at bytes
  omega

/-- Digits of one word may stand around wide white space, a comment and a carriage return, in letters of either case. -/
theorem read_column_spread :
    let text := utf8 "1\u30000;zz\n05\r\nabCD"
    let column := Listing.column 1 (Listing.text 0x0FFF [0x1005, 0xABCD])
    Layout column.flatten text ∧ (∀ piece ∈ Lines.pieces text, piece.length + 1 ≤ 65536) ∧
      (empty.read ⟨text, none⟩).1.2 = none ∧ (empty.read ⟨text, none⟩).2 = ⟨0, [0x1005, 0xABCD]⟩ := by
  intro text column
  have digits : column.flatten = ['1', '0', '0', '5', 'A', 'B', 'C', 'D'] := by
    simp only [column, Listing.column_text, List.map_cons, List.map_nil, Listing.toList_upperHex]
    rfl
  have layout : Layout column.flatten text := by
    rw [digits]
    exact .digit '1' (.inl rfl) <| .blank '\u3000' rfl <| .digit '0' (.inl rfl) <| .comment (utf8 "zz") (by decide) <|
      .digit '0' (.inl rfl) <| .digit '5' (.inl rfl) <| .blank '\r' rfl <| .blank '\n' rfl <|
      .digit 'a' (.inr rfl) <| .digit 'b' (.inr rfl) <| .digit 'C' (.inl rfl) <| .digit 'D' (.inl rfl) .ended
  have short : ∀ piece ∈ Lines.pieces text, piece.length + 1 ≤ 65536 := by decide +kernel
  exact ⟨layout, short, (read_column 0x0FFF 0 [0x1005, 0xABCD]).2 text layout short⟩

end Image

end StackMachine
