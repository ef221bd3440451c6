import Mathlib.Data.List.TakeWhile
import StackMachine.Image.Reader
import StackMachine.Proofs.Image.Lines
import StackMachine.Proofs.Text.Utf8

/-!
Which texts an image can be read from, what is read from them, and how the reading of any other text ends.

A reader that has taken some digits is what `ofDigits` makes of all of them at once, so that neither lines nor comments
nor white space leave a trace in it.
-/

namespace StackMachine

namespace Reader

/-- The ten figures, and the six letters in either case. -/
def isHexDigit (char : Char) : Bool :=
  ('0' ≤ char && char ≤ '9') || ('a' ≤ char && char ≤ 'f') || ('A' ≤ char && char ≤ 'F')

/-- What a digit counts. -/
def hexValue (char : Char) : Nat :=
  if char ≤ '9' then char.toNat - '0'.toNat
  else if char ≤ 'F' then char.toNat - 'A'.toNat + 10
  else char.toNat - 'a'.toNat + 10

/-- A character that may stand in front of a comment. -/
def isReadable (char : Char) : Bool :=
  CharClass.blank.contains char || isHexDigit char

/-- The words of consecutive groups of four digits, most significant first; what is left behind them makes no word. -/
def wordsOf : List Char → List Word
  | first :: second :: third :: fourth :: rest =>
    (hexValue first * 0x1000 + hexValue second * 0x100 + hexValue third * 0x10 + hexValue fourth).toUInt16 ::
      wordsOf rest
  | _ => []

/-- The digits behind the last complete group of four. -/
def leftover (digits : List Char) : List Char :=
  digits.drop (digits.length / 4 * 4)

/-- The digits of a line in front of a comment. -/
def lineDigits (line : Bytes) : List Char :=
  (lineChars line).filter isHexDigit

/-- The digits of a line in front of its first character that is not readable. -/
def firstDigits (line : Bytes) : List Char :=
  ((lineChars line).takeWhile isReadable).filter isHexDigit

/-- Whether a line holds nothing but digits and white space in front of a comment. -/
def isClean (line : Bytes) : Bool :=
  (lineChars line).all isReadable

/-- The lengths of lines, each with one for its end. -/
def byteCount : List Bytes → Nat
  | [] => 0
  | line :: rest => line.length + 1 + byteCount rest

/-- The reader that has taken some digits. -/
def ofDigits (digits : List Char) : Reader :=
  ⟨(wordsOf digits).reverse, (leftover digits).reverse⟩

/-- The digits of the hexadecimal base are the hexadecimal digits, and count what these count. -/
theorem digit?_eq (char : Char) :
    Radix.hexadecimal.digit? char = if isHexDigit char then some (hexValue char) else none := by
  -- Both sides compare code points with the ends of the three ranges.
  have le_iff : ∀ left right : Char, left ≤ right ↔ left.toNat ≤ right.toNat := fun _ _ => Iff.rfl
  simp only [Radix.digit?, digitValue?, isHexDigit, hexValue, le_iff, Char.reduceToNat, Radix.base]
  grind

/-- No character is white space and a digit at once. -/
theorem isHexDigit_of_blank {char : Char} (blank : CharClass.blank.contains char) : isHexDigit char = false := by
  have le_iff : ∀ left right : Char, left ≤ right ↔ left.toNat ≤ right.toNat := fun _ _ => Iff.rfl
  simp only [CharClass.contains, CharClass.blank, List.any_cons, List.any_nil, Bool.or_eq_true, Bool.and_eq_true,
    decide_eq_true_eq, Bool.or_false] at blank
  simp only [isHexDigit, le_iff, Char.reduceToNat]
  grind

/-- Four digits stand for the number that they count together. -/
theorem wordOf_four {first second third fourth : Char}
    (digits : ∀ char ∈ [first, second, third, fourth], isHexDigit char) :
    wordOf [first, second, third, fourth] =
      (hexValue first * 0x1000 + hexValue second * 0x100 + hexValue third * 0x10 + hexValue fourth).toUInt16 := by
  simp only [List.mem_cons, List.not_mem_nil, or_false, forall_eq_or_imp, forall_eq] at digits
  obtain ⟨isFirst, isSecond, isThird, isFourth⟩ := digits
  have number : Radix.hexadecimal.value [hexValue first, hexValue second, hexValue third, hexValue fourth] =
      hexValue first * 0x1000 + hexValue second * 0x100 + hexValue third * 0x10 + hexValue fourth := by
    simp only [Radix.value, List.foldl_cons, List.foldl_nil, Radix.base]
    omega
  simp only [wordOf, List.filterMap_cons, List.filterMap_nil, digit?_eq, isFirst, isSecond, isThird, isFourth, if_true]
  rw [number]

/-- A complete group of four digits in front does not change what is left over. -/
theorem leftover_group (first second third fourth : Char) (rest : List Char) :
    leftover (first :: second :: third :: fourth :: rest) = leftover rest := by
  -- Four digits more are one complete group more.
  have groups : (rest.length + 1 + 1 + 1 + 1) / 4 * 4 = rest.length / 4 * 4 + 1 + 1 + 1 + 1 := by omega
  simp only [leftover, List.length_cons, groups, List.drop_succ_cons]

/-- As many digits are left over as the number of digits has above a multiple of four. -/
theorem length_leftover (digits : List Char) : (leftover digits).length = digits.length % 4 := by
  rw [leftover, List.length_drop]
  omega

/-- A digit does not concern the words that are complete. -/
theorem takeDigit_behind (words earlier : List Word) (pending : List Char) (digit : Char) :
    takeDigit ⟨words ++ earlier, pending⟩ digit =
      ⟨(takeDigit ⟨words, pending⟩ digit).words ++ earlier, (takeDigit ⟨words, pending⟩ digit).pending⟩ := by
  simp only [takeDigit]
  split <;> rfl

/-- A reader that takes a complete group has its word below those of the later digits. -/
theorem ofDigits_group (first second third fourth : Char) (rest : List Char) :
    ofDigits (first :: second :: third :: fourth :: rest) =
      ⟨(ofDigits rest).words ++ wordsOf [first, second, third, fourth], (ofDigits rest).pending⟩ := by
  simp only [ofDigits, leftover_group, wordsOf, List.reverse_cons]

/-- A reader that has taken some digits takes one more as if it took them all in a row. -/
theorem takeDigit_ofDigits {digits : List Char} {digit : Char} (hex : ∀ char ∈ digits ++ [digit], isHexDigit char) :
    (ofDigits digits).takeDigit digit = ofDigits (digits ++ [digit]) := by
  -- Groups of four are behind the reader already, so that only the last digits are left to look at.
  fun_induction wordsOf digits with
  | case1 first second third fourth rest ih =>
    have later := ih (fun char within => hex char (by simp only [List.cons_append, List.mem_cons, within, or_true]))
    rw [ofDigits_group, takeDigit_behind]
    simp only [List.cons_append]
    rw [ofDigits_group, ← later]
  | case2 digits short =>
    match digits with
    | [] => simp [ofDigits, takeDigit, leftover, wordsOf]
    | [_] => simp [ofDigits, takeDigit, leftover, wordsOf]
    | [_, _] => simp [ofDigits, takeDigit, leftover, wordsOf]
    | [first, second, third] =>
      -- The fourth digit completes a word.
      have word := wordOf_four hex
      simp only [List.cons_append, List.nil_append, ofDigits, takeDigit, leftover, wordsOf]
      rw [← word]
      simp
    | first :: second :: third :: fourth :: rest => exact absurd rfl (short first second third fourth rest)

/-- Characters are taken up to the first that is not readable, and the digits among them count. -/
theorem takeChars_ofDigits {digits : List Char} (hex : ∀ char ∈ digits, isHexDigit char) (chars : List Char) :
    (ofDigits digits).takeChars chars =
      (chars.all isReadable, ofDigits (digits ++ (chars.takeWhile isReadable).filter isHexDigit)) := by
  -- The induction is on the characters, from whatever digits the reader has taken.
  induction chars generalizing digits with
  | nil => simp [takeChars]
  | cons char rest ih =>
    rw [takeChars]
    by_cases blank : CharClass.blank.contains char
    · -- White space is readable and no digit.
      have readable : isReadable char := by rw [isReadable, blank, Bool.true_or]
      rw [if_pos blank, ih hex, List.all_cons, readable, List.takeWhile_cons, if_pos readable, List.filter_cons,
        isHexDigit_of_blank blank, Bool.true_and]
      rfl
    · rw [if_neg blank, digit?_eq]
      by_cases digit : isHexDigit char
      · have readable : isReadable char := by rw [isReadable, digit, Bool.or_true]
        have more : ∀ other ∈ digits ++ [char], isHexDigit other := by
          intro other within
          rcases List.mem_append.mp within with earlier | last
          · exact hex other earlier
          · rw [List.mem_singleton.mp last]
            exact digit
        simp only [digit, if_true, Option.isSome_some]
        rw [takeDigit_ofDigits more, ih more, List.all_cons, readable, List.takeWhile_cons, if_pos readable,
          List.filter_cons, if_pos digit, Bool.true_and, List.append_assoc]
        rfl
      · -- Any other character ends the reading of the line.
        have bad : isReadable char = false := by
          simp [isReadable, blank, digit]
        simp only [digit, Bool.false_eq_true, if_false, Option.isSome_none, List.all_cons, bad, Bool.false_and,
          List.takeWhile_cons, List.filter_nil, List.append_nil]

/-- Hexadecimal digits stay such when the digits of a line are put behind them. -/
theorem hex_lineDigits {digits : List Char} (hex : ∀ char ∈ digits, isHexDigit char) (line : Bytes) :
    ∀ char ∈ digits ++ lineDigits line, isHexDigit char := by
  intro char within
  rcases List.mem_append.mp within with earlier | last
  · exact hex char earlier
  · exact (List.mem_filter.mp last).2

/-- The digits of lines are all hexadecimal digits. -/
theorem hex_lines {before : List Bytes} : ∀ char ∈ before.flatMap lineDigits, isHexDigit char := by
  intro char within
  obtain ⟨line, _, last⟩ := List.mem_flatMap.mp within
  exact (List.mem_filter.mp last).2

/-- A line is clean when every character that counts is white space or a hexadecimal digit. -/
theorem isClean_iff {line : Bytes} :
    isClean line ↔ ∀ char ∈ lineChars line, CharClass.blank.contains char ∨ isHexDigit char := by
  simp only [isClean, isReadable, List.all_eq_true, Bool.or_eq_true]

/-- The bytes of lines and of more lines add up. -/
theorem byteCount_append (lines more : List Bytes) : byteCount (lines ++ more) = byteCount lines + byteCount more := by
  induction lines with
  | nil => rw [List.nil_append, byteCount, Nat.zero_add]
  | cons line rest ih =>
    simp only [List.cons_append, byteCount, ih]
    omega

/-- All digits of a clean line are in front of a character that is not readable, as there is none. -/
theorem firstDigits_of_clean {line : Bytes} (clean : isClean line) : firstDigits line = lineDigits line := by
  have all : (lineChars line).takeWhile isReadable = lineChars line :=
    List.takeWhile_eq_self_iff.mpr (List.all_eq_true.mp clean)
  rw [firstDigits, all, lineDigits]

/-- Clean lines are taken whole. -/
theorem takeLines_clean {digits : List Char} (hex : ∀ char ∈ digits, isHexDigit char) (count bytes : Nat)
    {before : List Bytes} (clean : ∀ line ∈ before, isClean line) (rest : List Bytes) :
    takeLines ⟨ofDigits digits, count, bytes, none⟩ (before ++ rest) =
      takeLines ⟨ofDigits (digits ++ before.flatMap lineDigits), count + before.length, bytes + byteCount before, none⟩
        rest := by
  induction before generalizing digits count bytes with
  | nil => simp [byteCount]
  | cons line later ih =>
    -- The line adds its digits, its length and one for its end, and the later ones go on from there.
    have here := clean line List.mem_cons_self
    have taken := takeChars_ofDigits hex (lineChars line)
    rw [← firstDigits, firstDigits_of_clean here, ← isClean, here] at taken
    simp only [List.cons_append, takeLines, taken, if_true]
    rw [ih (hex_lineDigits hex line) _ _ fun other within => clean other (List.mem_cons_of_mem line within)]
    simp only [List.flatMap_cons, List.append_assoc, List.length_cons, byteCount]
    congr 2
    · omega
    · omega

/-- A line that is not clean ends the reading, and its digits in front of the bad character count. -/
theorem takeLines_bad {digits : List Char} (hex : ∀ char ∈ digits, isHexDigit char) (count bytes : Nat) {line : Bytes}
    (bad : ¬ isClean line) (rest : List Bytes) :
    takeLines ⟨ofDigits digits, count, bytes, none⟩ (line :: rest) =
      ⟨ofDigits (digits ++ firstDigits line), count + 1, bytes + line.length + 1, some line⟩ := by
  have taken := takeChars_ofDigits hex (lineChars line)
  rw [← firstDigits, ← isClean, eq_false_of_ne_true bad] at taken
  simp only [takeLines, taken, Bool.false_eq_true, if_false]

end Reader

/-- The lines of a source that reach the reader: those before the first that is too long. -/
def Source.lines (source : Source) : List Bytes :=
  ((Lines.pieces source.text).takeWhile Lines.fits).map Lines.withoutReturn

/-- The digits of all lines of a source in front of their comments. -/
def Source.digits (source : Source) : List Char :=
  source.lines.flatMap Reader.lineDigits

/-- The fault with which reading a source ends when all lines that reach the reader are clean. -/
inductive Source.Ending (source : Source) : Option Fault → Prop where
  | overlong (long : ∃ piece ∈ Lines.pieces source.text, ¬ Lines.fits piece) : source.Ending (some .lineTooLong)
  | failing (short : ∀ piece ∈ Lines.pieces source.text, Lines.fits piece) {failure : Bytes}
      (fails : source.failure = some failure) : source.Ending (some (.reading failure))
  | insideWord (short : ∀ piece ∈ Lines.pieces source.text, Lines.fits piece) (read : source.failure = none)
      (uneven : ¬ 4 ∣ source.digits.length) :
      source.Ending (some
        (.line source.lines.length (utf8 (String.ofList (Reader.leftover source.digits))) (some .wordPartial)))
  | behindWord (short : ∀ piece ∈ Lines.pieces source.text, Lines.fits piece) (read : source.failure = none)
      (even : 4 ∣ source.digits.length) : source.Ending none

namespace Image

/-- What reading a source gives: the bytes taken, the fault if there is one, and the image with its new words. -/
inductive Reading (image : Image) (source : Source) : (Nat × Option Fault) × Image → Prop where
  | badLine {before after : List Bytes} {line : Bytes} (split : source.lines = before ++ line :: after)
      (clean : ∀ earlier ∈ before, Reader.isClean earlier) (bad : ¬ Reader.isClean line) :
      Reading image source
        ((Reader.byteCount (before ++ [line]), some (.line (before.length + 1 : Nat) line (some .digitInvalid))),
          ⟨image.origin, image.words ++ Reader.wordsOf (before.flatMap Reader.lineDigits ++ Reader.firstDigits line)⟩)
  | cleanLines (clean : ∀ line ∈ source.lines, Reader.isClean line) {fault : Option Fault}
      (ending : source.Ending fault) :
      Reading image source
        ((Reader.byteCount source.lines, fault), ⟨image.origin, image.words ++ Reader.wordsOf source.digits⟩)

open Reader

/-- Reading gives what the reader has made of the lines that reach it, and the fault that it ends with. -/
theorem read_of_progress (image : Image) {source : Source} {progress : Progress}
    (taken : takeLines ⟨.start, 0, 0, none⟩ source.lines = progress) :
    image.read source =
      ((progress.bytes, readFault progress (!(Lines.pieces source.text).all Lines.fits) source.failure),
        ⟨image.origin, image.words ++ progress.reader.words.reverse⟩) := by
  rw [read, Lines.split_eq, ← taken]
  rfl

/-- Where all lines are clean, the fault of reading is that of the ending. -/
theorem readFault_of_ending {source : Source} {fault : Option Fault} (ending : source.Ending fault) (bytes : Nat) :
    readFault ⟨ofDigits source.digits, source.lines.length, bytes, none⟩ (!(Lines.pieces source.text).all Lines.fits)
      source.failure = fault := by
  have allShort (short : ∀ piece ∈ Lines.pieces source.text, Lines.fits piece) :
      (!(Lines.pieces source.text).all Lines.fits) = false := by
    rw [List.all_eq_true.mpr short, Bool.not_true]
  -- Nothing is pending exactly if the digits are complete groups.
  have pending : (ofDigits source.digits).pending = [] ↔ 4 ∣ source.digits.length := by
    rw [ofDigits, List.reverse_eq_nil_iff, ← List.length_eq_zero_iff, length_leftover, Nat.dvd_iff_mod_eq_zero]
  cases ending with
  | overlong long =>
    have notAll : (!(Lines.pieces source.text).all Lines.fits) = true := by simpa using long
    simp only [readFault, notAll]
  | failing short fails => simp only [readFault, allShort short, fails]
  | insideWord short read uneven =>
    simp only [readFault, allShort short, read, if_neg (mt pending.mp uneven)]
    rw [ofDigits, List.reverse_reverse]
  | behindWord short read even => simp only [readFault, allShort short, read, if_pos (pending.mpr even)]

/-- Whatever reading is described is the one that happens. -/
theorem read_of_reading {image : Image} {source : Source} {result : (Nat × Option Fault) × Image}
    (reading : image.Reading source result) : image.read source = result := by
  have fresh : Reader.start = ofDigits [] := by simp [Reader.start, ofDigits, wordsOf, leftover]
  have noDigit : ∀ char ∈ ([] : List Char), isHexDigit char := List.forall_mem_nil _
  cases reading with
  | @badLine before after line split clean bad =>
    -- The lines before the bad one are taken whole, and the bad one up to its first bad character.
    have taken := takeLines_clean noDigit 0 0 clean (line :: after)
    rw [← split, ← fresh, List.nil_append, takeLines_bad hex_lines _ _ bad] at taken
    rw [read_of_progress image taken, ofDigits, List.reverse_reverse]
    simp [readFault, byteCount_append, byteCount, Nat.add_assoc]
  | cleanLines clean ending =>
    have taken := takeLines_clean noDigit 0 0 clean []
    rw [List.append_nil, ← fresh, List.nil_append, takeLines, Nat.zero_add, Nat.zero_add] at taken
    rw [read_of_progress image taken, ← Source.digits, readFault_of_ending ending, ofDigits, List.reverse_reverse]

/-- Every source has an ending. -/
theorem exists_ending (source : Source) : ∃ fault, source.Ending fault := by
  -- Each question is asked only if the one before it found nothing.
  by_cases short : ∀ piece ∈ Lines.pieces source.text, Lines.fits piece
  · cases fails : source.failure with
    | some failure => exact ⟨_, .failing short fails⟩
    | none =>
      by_cases even : 4 ∣ source.digits.length
      · exact ⟨_, .behindWord short fails even⟩
      · exact ⟨_, .insideWord short fails even⟩
  · simp only [Classical.not_forall] at short
    obtain ⟨piece, within, long⟩ := short
    exact ⟨_, .overlong ⟨piece, within, long⟩⟩

/-- Every source gives a reading, so that the rules of reading leave no source out. -/
theorem exists_reading (image : Image) (source : Source) : ∃ result, image.Reading source result := by
  -- The first line that is not clean, if there is one, decides.
  cases found : source.lines.find? (!isClean ·) with
  | some line =>
    obtain ⟨bad, before, after, split, clean⟩ := List.find?_eq_some_iff_append.mp found
    exact ⟨_, .badLine split (by simpa using clean) (by simpa using bad)⟩
  | none =>
    obtain ⟨fault, ending⟩ := exists_ending source
    exact ⟨_, .cleanLines (by simpa using List.find?_eq_none.mp found) ending⟩

/-- Reading a source gives what the rules of reading say. -/
theorem reading_read (image : Image) (source : Source) : image.Reading source (image.read source) := by
  obtain ⟨result, reading⟩ := exists_reading image source
  rw [read_of_reading reading]
  exact reading

/--
How every reading ends.

A line with a bad character comes first, then a line that is too long, then a failure of the source, and then a word
that is not complete; the words complete before that stay, and the bytes are counted up to it.
-/
theorem read_eq_iff_reading (image : Image) (source : Source) (result : (Nat × Option Fault) × Image) :
    (∀ line ∈ source.lines, ∀ chars,
        lineChars line = chars ↔ Utf8.Decodes (line.takeWhile (· ≠ commentMark)) chars) ∧
      (image.read source = result ↔ image.Reading source result) := by
  refine ⟨fun line _ chars => Utf8.decode_eq_iff, ?_, read_of_reading⟩
  rintro rfl
  exact reading_read image source

/--
Exactly those texts are read without a fault that hold, in front of comments, nothing but white space and complete
groups of four digits, and the groups are the words read.
-/
theorem read_fault_eq_none_iff (image : Image) (text : Bytes)
    (short : ∀ piece ∈ Lines.pieces text, piece.length + 1 ≤ 65536) :
    let lines := (Lines.pieces text).map Lines.withoutReturn
    let digits := lines.flatMap lineDigits
    let result := image.read ⟨text, none⟩
    (∀ line ∈ lines, ∀ chars,
        lineChars line = chars ↔ Utf8.Decodes (line.takeWhile (· ≠ commentMark)) chars) ∧
      (result.1.2 = none ↔
        (∀ line ∈ lines, ∀ char ∈ lineChars line, CharClass.blank.contains char ∨ isHexDigit char) ∧
          4 ∣ digits.length) ∧
      (result.1.2 = none → result.2.words = image.words ++ wordsOf digits) := by
  intro lines digits result
  have fitting : ∀ piece ∈ Lines.pieces text, Lines.fits piece := by
    intro piece within
    exact decide_eq_true (short piece within)
  have allLines : Source.lines ⟨text, none⟩ = lines := by
    rw [Source.lines, List.takeWhile_eq_self_iff.mpr fitting]
  refine ⟨fun line _ chars => Utf8.decode_eq_iff, ?_⟩
  simp only [← isClean_iff]
  -- Of all endings only the last two are left, and they differ in the number of digits alone.
  have reading : image.Reading ⟨text, none⟩ result := reading_read image ⟨text, none⟩
  generalize result = result at reading
  cases reading with
  | @badLine before after line split _ bad =>
    have within : line ∈ lines := by
      rw [← allLines, split]
      exact List.mem_append_right before List.mem_cons_self
    exact ⟨⟨nofun, fun accepted => absurd (accepted.1 line within) bad⟩, nofun⟩
  | cleanLines clean ending =>
    rw [allLines] at clean
    have allDigits : Source.digits ⟨text, none⟩ = digits := by rw [Source.digits, allLines]
    cases ending with
    | overlong long =>
      obtain ⟨piece, within, long⟩ := long
      exact absurd (fitting piece within) long
    | failing _ fails => cases fails
    | insideWord _ _ uneven =>
      rw [allDigits] at uneven
      exact ⟨⟨nofun, fun accepted => absurd accepted.2 uneven⟩, nofun⟩
    | behindWord _ _ even =>
      rw [allDigits] at even ⊢
      exact ⟨⟨fun _ => ⟨clean, even⟩, fun _ => rfl⟩, fun _ => rfl⟩

/-- A word goes on behind wide white space, a comment, the end of a line and a carriage return. -/
theorem read_fault_eq_none_spanning :
    let text : Bytes := utf8 "1\u30000;zz\n05\r\nabCD"
    (∀ piece ∈ Lines.pieces text, piece.length + 1 ≤ 65536) ∧
      (empty.read ⟨text, none⟩).1.2 = none ∧ (empty.read ⟨text, none⟩).2.words = [0x1005, 0xABCD] := by
  intro text
  have short : ∀ piece ∈ Lines.pieces text, piece.length + 1 ≤ 65536 := by decide +kernel
  have clean : ((Lines.pieces text).map Lines.withoutReturn).all isClean := by decide +kernel
  obtain ⟨_, accepted_iff, words⟩ := read_fault_eq_none_iff empty text short
  have accepted := accepted_iff.mpr
    ⟨fun line within => isClean_iff.mp (List.all_eq_true.mp clean line within), by decide +kernel⟩
  exact ⟨short, accepted, (words accepted).trans (by decide +kernel)⟩

end Image

end StackMachine
