import StackMachine.Proofs.Image.Reader

/-!
An image that is read in two parts, cut behind the end of a line, is the image read from the whole text.

The part in front must be read without a fault, so that no digit of it waits for one of the part behind.
-/

namespace StackMachine

namespace Lines

/-- Only the last row can be dropped, so that rows in front of others stay. -/
theorem withoutEmptyEnd_append (rows : List Bytes) {later : List Bytes} (more : later ≠ []) :
    withoutEmptyEnd (rows ++ later) = rows ++ withoutEmptyEnd later := by
  induction rows with
  | nil => rfl
  | cons row rows ih =>
    -- Whatever follows the first row, there is something.
    have follows : rows ++ later ≠ [] := List.append_ne_nil_of_right_ne_nil rows more
    rw [List.cons_append, withoutEmptyEnd_cons row follows, ih, List.cons_append]

/-- There is one row more than there are newlines. -/
theorem length_splitOn (text : Bytes) : (text.splitOn Bytes.newline).length = text.count Bytes.newline + 1 := by
  induction text with
  | nil => rfl
  | cons byte rest ih =>
    rw [List.splitOn_cons_eq_if_modifyHead, List.count_cons]
    split
    · -- The newline ends a row of its own in front of the others.
      rw [List.length_cons, ih]
    · -- Any other byte only makes the first row longer.
      rw [List.length_modifyHead, ih, Nat.add_zero]

/-- The pieces of a text that ends a line are its rows in front of the last newline. -/
theorem pieces_ended (front : Bytes) : pieces (front ++ [Bytes.newline]) = front.splitOn Bytes.newline := by
  rw [pieces, List.splitOn_append_cons_self, List.splitOn_nil, withoutEmptyEnd_append _ (List.cons_ne_nil _ _)]
  exact List.append_nil _

/-- A text behind the end of a line adds its own pieces. -/
theorem pieces_append {front : Bytes} (ended : front = [] ∨ front.getLast? = some Bytes.newline) (rest : Bytes) :
    pieces (front ++ rest) = pieces front ++ pieces rest := by
  rcases ended with rfl | ended
  · rfl
  · -- The newline in the middle separates the rows of both texts.
    obtain ⟨before, rfl⟩ := List.getLast?_eq_some_iff.mp ended
    rw [pieces_ended, List.append_assoc, List.singleton_append, pieces, List.splitOn_append_cons_self,
      withoutEmptyEnd_append _ (List.splitOn_ne_nil _ _), pieces]

/-- A text that ends a line has as many lines as newlines. -/
theorem length_pieces {front : Bytes} (ended : front = [] ∨ front.getLast? = some Bytes.newline) :
    (pieces front).length = front.count Bytes.newline := by
  rcases ended with rfl | ended
  · rfl
  · obtain ⟨before, rfl⟩ := List.getLast?_eq_some_iff.mp ended
    rw [pieces_ended, length_splitOn, List.count_append, List.count_singleton_self]

end Lines

namespace Reader

/-- Complete groups of digits in front do not shift the groups behind them. -/
theorem wordsOf_append {front : List Char} (even : 4 ∣ front.length) (rest : List Char) :
    wordsOf (front ++ rest) = wordsOf front ++ wordsOf rest := by
  fun_induction wordsOf front with
  | case1 first second third fourth later ih =>
    have fewer : 4 ∣ later.length := by
      simp only [List.length_cons] at even
      omega
    simp only [List.cons_append, wordsOf, ih fewer]
  | case2 front short =>
    -- Fewer than four digits make complete groups only if there is none.
    have none : front = [] := by
      rcases front with _ | ⟨first, _ | ⟨second, _ | ⟨third, _ | ⟨fourth, later⟩⟩⟩⟩
      · rfl
      · exact absurd even (by simp)
      · exact absurd even (by simp)
      · exact absurd even (by simp)
      · exact absurd rfl (short first second third fourth later)
    rw [none]
    rfl

/-- Complete groups of digits in front leave nothing over. -/
theorem leftover_append {front : List Char} (even : 4 ∣ front.length) (rest : List Char) :
    leftover (front ++ rest) = leftover rest := by
  -- The complete groups of both are those in front and those behind.
  have groups : (front.length + rest.length) / 4 * 4 = front.length + rest.length / 4 * 4 := by omega
  rw [leftover, List.length_append, groups, List.drop_length_add_append, leftover]

end Reader

namespace Source

/-- Every line of a source fits and is clean, and its digits make complete words. -/
structure Accepted (source : Source) : Prop where
  short : ∀ piece ∈ Lines.pieces source.text, Lines.fits piece
  clean : ∀ line ∈ source.lines, Reader.isClean line
  even : 4 ∣ source.digits.length

/-- A source with another text in front of its own. -/
def behind (source : Source) (front : Bytes) : Source :=
  ⟨front ++ source.text, source.failure⟩

variable {front : Bytes}

/-- Behind the end of an accepted text a source goes on with its own lines. -/
theorem lines_behind (ended : front = [] ∨ front.getLast? = some Bytes.newline)
    (accepted : Accepted ⟨front, none⟩) (rest : Source) :
    (rest.behind front).lines = lines ⟨front, none⟩ ++ rest.lines := by
  -- All lines in front fit the buffer, so that the first one that does not is behind them.
  have all : (Lines.pieces front).takeWhile Lines.fits = Lines.pieces front :=
    List.takeWhile_eq_self_iff.mpr accepted.short
  simp only [lines, behind]
  rw [Lines.pieces_append ended, List.takeWhile_append_of_pos accepted.short, List.map_append, all]

/-- The digits of an accepted text come before those of the text behind it. -/
theorem digits_behind (ended : front = [] ∨ front.getLast? = some Bytes.newline)
    (accepted : Accepted ⟨front, none⟩) (rest : Source) :
    (rest.behind front).digits = digits ⟨front, none⟩ ++ rest.digits := by
  rw [digits, lines_behind ended accepted, List.flatMap_append, digits, digits]

/-- An accepted text that ends a line has as many lines as newlines. -/
theorem length_lines (ended : front = [] ∨ front.getLast? = some Bytes.newline)
    (accepted : Accepted ⟨front, none⟩) : (lines ⟨front, none⟩).length = front.count Bytes.newline := by
  rw [lines, List.length_map, List.takeWhile_eq_self_iff.mpr accepted.short, Lines.length_pieces ended]

end Source

/-- The fault of a text in which some more lines stand in front: a fault of a line counts them too. -/
def Fault.movedDown (count : Nat) : Fault → Fault
  | line number text cause => line (number + count) text cause
  | fault => fault

/-- Behind the end of an accepted text a source ends as it does alone, on a later line. -/
theorem Source.Ending.behind {front : Bytes} {rest : Source}
    (ended : front = [] ∨ front.getLast? = some Bytes.newline) (accepted : Accepted ⟨front, none⟩)
    {fault : Option Fault} (ending : rest.Ending fault) :
    (rest.behind front).Ending (fault.map (Fault.movedDown (front.count Bytes.newline))) := by
  have pieces : Lines.pieces (rest.behind front).text = Lines.pieces front ++ Lines.pieces rest.text :=
    Lines.pieces_append ended rest.text
  have digits := digits_behind ended accepted rest
  have even := accepted.even
  -- The pieces in front all fit, so that only those behind decide.
  have allShort (short : ∀ piece ∈ Lines.pieces rest.text, Lines.fits piece) :
      ∀ piece ∈ Lines.pieces (rest.behind front).text, Lines.fits piece := by
    rw [pieces]
    exact List.forall_mem_append.mpr ⟨accepted.short, short⟩
  cases ending with
  | overlong long =>
    obtain ⟨piece, within, long⟩ := long
    refine .overlong ⟨piece, ?_, long⟩
    rw [pieces]
    exact List.mem_append_right _ within
  | failing short fails => exact .failing (allShort short) fails
  | insideWord short read uneven =>
    -- The digits that are left over are those of the part behind.
    have total : ¬ 4 ∣ (rest.behind front).digits.length := by
      rw [digits, List.length_append]
      omega
    have inside := Source.Ending.insideWord (allShort short) read total
    rw [lines_behind ended accepted, digits, Reader.leftover_append even, List.length_append,
      length_lines ended accepted, Nat.add_comm] at inside
    exact inside
  | behindWord short read whole =>
    refine .behindWord (allShort short) read ?_
    rw [digits, List.length_append]
    exact Nat.dvd_add even whole

namespace Image

open Reader

/-- A text that is read without a fault is accepted. -/
theorem accepted_of_read {image : Image} {source : Source} (passed : (image.read source).1.2 = none) :
    source.Accepted := by
  have reading := image.reading_read source
  generalize image.read source = result at reading passed
  -- Of all the ways in which a reading ends, one has no fault.
  cases reading with
  | badLine => cases passed
  | cleanLines clean ending =>
    cases ending with
    | overlong | failing | insideWord => cases passed
    | behindWord short _ even => exact ⟨short, clean, even⟩

/-- A text that is accepted is read without a fault, and all its digits make words. -/
theorem read_of_accepted {front : Bytes} (accepted : Source.Accepted ⟨front, none⟩) (image : Image) :
    image.read ⟨front, none⟩ =
      ((byteCount (Source.lines ⟨front, none⟩), none),
        ⟨image.origin, image.words ++ wordsOf (Source.digits ⟨front, none⟩)⟩) :=
  read_of_reading (.cleanLines accepted.clean (.behindWord accepted.short rfl accepted.even))

/-- What is read behind the end of an accepted text, given by what is read from that text and the rest alone. -/
theorem read_behind {front : Bytes} (ended : front = [] ∨ front.getLast? = some Bytes.newline)
    (accepted : Source.Accepted ⟨front, none⟩) (image : Image) (rest : Source) :
    let first := image.read ⟨front, none⟩
    let second := first.2.read rest
    image.read (rest.behind front) =
      ((first.1.1 + second.1.1, second.1.2.map (Fault.movedDown (front.count Bytes.newline))), second.2) := by
  intro first second
  have lines := Source.lines_behind ended accepted rest
  have digits := Source.digits_behind ended accepted rest
  have count := Source.length_lines ended accepted
  have reading : first.2.Reading rest second := reading_read first.2 rest
  have taken : first = _ := read_of_accepted accepted image
  generalize second = second at reading
  generalize first = first at taken reading
  subst taken
  -- The reading of the whole is that of the rest, with the lines in front added.
  cases reading with
  | @badLine before after line split clean bad =>
    rw [split, ← List.append_assoc] at lines
    have whole : image.Reading (rest.behind front) _ :=
      .badLine lines (List.forall_mem_append.mpr ⟨accepted.clean, clean⟩) bad
    have number : ((Source.lines ⟨front, none⟩ ++ before).length + 1 : Nat) =
        before.length + 1 + front.count Bytes.newline := by
      rw [List.length_append, count]
      omega
    rw [read_of_reading whole, number, List.append_assoc, byteCount_append, List.flatMap_append, List.append_assoc,
      ← Source.digits, wordsOf_append accepted.even, ← List.append_assoc]
    rfl
  | @cleanLines clean fault ending =>
    have allClean : ∀ line ∈ (rest.behind front).lines, isClean line := by
      rw [lines]
      exact List.forall_mem_append.mpr ⟨accepted.clean, clean⟩
    have whole : image.Reading (rest.behind front) _ := .cleanLines allClean (ending.behind ended accepted)
    rw [read_of_reading whole, lines, byteCount_append, digits, wordsOf_append accepted.even, ← List.append_assoc]

/--
An image can be read in parts.

A text that ends with a line and is read without a fault may be cut off and read first. The rest then adds the same
words as it does in the whole text, the bytes taken add up, and a fault is the same but for the number of its line,
which counts the lines in front as well.
-/
theorem read_in_parts (image : Image) (front : Bytes) (rest : Source)
    (ended : front = [] ∨ front.getLast? = some Bytes.newline)
    (passed : (image.read ⟨front, none⟩).1.2 = none) :
    let first := image.read ⟨front, none⟩
    let second := first.2.read rest
    let whole := image.read ⟨front ++ rest.text, rest.failure⟩
    whole.2 = second.2 ∧ whole.1.1 = first.1.1 + second.1.1 ∧
      whole.1.2 = second.1.2.map (Fault.movedDown (front.count Bytes.newline)) := by
  intro first second whole
  have joint : whole = _ := read_behind ended (accepted_of_read passed) image rest
  rw [joint]
  exact ⟨rfl, rfl, rfl⟩

/-- A digit that is missing on the second line of a text is missing on the fourth with two lines in front. -/
theorem read_in_parts_unfinished :
    let front := utf8 "1005\r\n;zz\n"
    let rest := utf8 "2000 1\n4"
    front.getLast? = some Bytes.newline ∧ (empty.read ⟨front, none⟩).1.2 = none ∧
      (empty.read ⟨front ++ rest, none⟩).2.words = [0x1005, 0x2000] ∧
      (empty.read ⟨front ++ rest, none⟩).1 = (18, some (.line 4 (utf8 "14") (some .wordPartial))) := by
  intro front rest
  have ended : front.getLast? = some Bytes.newline := by decide +kernel
  have passed : (empty.read ⟨front, none⟩).1.2 = none := Option.isNone_iff_eq_none.mp (by decide +kernel)
  obtain ⟨image, bytes, fault⟩ := read_in_parts empty front ⟨rest, none⟩ (.inr ended) passed
  -- The rest alone adds one word, and the two digits behind it are missed on its second line.
  have alone : ((empty.read ⟨front, none⟩).2.read ⟨rest, none⟩).1.2 =
      some (.line 2 (utf8 "14") (some .wordPartial)) := rfl
  refine ⟨ended, passed, ?_, ?_⟩
  · rw [image]
    decide +kernel
  · refine Prod.ext (bytes.trans (by decide +kernel)) (fault.trans ?_)
    rw [alone]
    rfl

end Image

end StackMachine
