import StackMachine.Proofs.Feed
import StackMachine.Proofs.Listing
import StackMachine.Proofs.Text.Rows

/-!
Reading a listing back: each row tells its address, and its word in two ways.

A writer may refuse further lines at any point. It has then taken the listing of the words up to there.
-/

namespace StackMachine

namespace Feed

/-- A writer that takes so many pieces and refuses all others; without a limit it takes every piece. -/
def takeUpTo (limit : Option Int) (piece : String) : StateM (List String) Bool := fun taken =>
  if ∀ most ∈ limit, (taken.length : Int) < most then (true, taken ++ [piece]) else (false, taken)

/-- How many of some pieces such a writer takes. -/
def reached (limit : Option Int) (total : Nat) : Nat :=
  match limit with
  | none => total
  | some most => min (max most 0).toNat total

/-- A writer that accepts one more piece has one piece less to take of the others. -/
theorem reached_accepting {limit : Option Int} {taken : Nat} (accepts : ∀ most ∈ limit, (taken : Int) < most)
    (more : Nat) : reached limit (taken + (more + 1)) - taken = reached limit (taken + 1 + more) - (taken + 1) + 1 := by
  -- The totals are the same number, and the limit lies above what was taken.
  rw [Nat.add_comm more, ← Nat.add_assoc]
  cases limit with
  | none =>
    simp only [reached]
    omega
  | some most =>
    have below := accepts most rfl
    simp only [reached]
    omega

/-- A writer that refuses a piece has taken all that it may. -/
theorem reached_refusing {limit : Option Int} {taken : Nat} (refuses : ¬ ∀ most ∈ limit, (taken : Int) < most)
    (more : Nat) : reached limit (taken + more) - taken = 0 := by
  cases limit with
  -- Without a limit nothing is refused.
  | none => exact absurd (fun most none => by cases none) refuses
  | some most =>
    have full : ¬ (taken : Int) < most := fun below => refuses fun _ same => Option.some.inj same ▸ below
    simp only [reached]
    omega

/-- A writer takes pieces from the front, until it has taken as many as it may. -/
theorem ofList_takeUpTo (limit : Option Int) (pieces taken : List String) :
    let room := reached limit (taken.length + pieces.length) - taken.length
    (ofList pieces (takeUpTo limit)).run taken = (decide (pieces.length ≤ room), taken ++ pieces.take room) := by
  -- The induction is on the pieces that are left, whatever the writer has taken before.
  induction pieces generalizing taken with
  | nil =>
    intro room
    rw [List.take_nil, List.append_nil, List.length_nil, decide_eq_true (Nat.zero_le room)]
    rfl
  | cons piece rest ih =>
    intro room
    have answer : (takeUpTo limit piece).run taken =
        if ∀ most ∈ limit, (taken.length : Int) < most then (true, taken ++ [piece]) else (false, taken) := rfl
    rw [ofList, run_while_wanted, answer]
    by_cases accepts : ∀ most ∈ limit, (taken.length : Int) < most
    · -- The piece that is taken is the first of those the writer has room for.
      have used : room = reached limit ((taken ++ [piece]).length + rest.length) - (taken ++ [piece]).length + 1 := by
        rw [List.length_append, List.length_singleton]
        exact reached_accepting accepts rest.length
      rw [if_pos accepts, if_pos rfl, ih, used, List.take_succ_cons, List.append_assoc, List.singleton_append,
        List.length_cons]
      simp
    · -- A refused piece is not taken, and it is not the end of the pieces.
      have full : room = 0 := reached_refusing accepts _
      rw [if_neg accepts, full]
      simp

end Feed

namespace Listing

/-- What a row of a listing tells by its columns. -/
structure Row where
  address : Nat
  /-- The word as its hexadecimal digits tell it. -/
  hexadecimal : Nat
  /-- The word as its four columns of binary digits tell it. -/
  binary : Nat
  disassembly : List Char
  deriving DecidableEq

/-- Reads the columns of a row; what is behind them is the disassembly. -/
def Row.ofFields? : List (List Char) → Option Row
  | address :: word :: first :: second :: third :: fourth :: rest => do
    let address ← Numeral.read? .hexadecimal address
    let hexadecimal ← Numeral.read? .hexadecimal word
    let binary ← Numeral.read? .binary (first ++ second ++ third ++ fourth)
    return ⟨address, hexadecimal, binary, [' '].intercalate rest⟩
  | _ => none

/-- The four binary digits of a word from a unit on. -/
def nibble (word : Word) (unit : Nat) : List Char :=
  (Numeral.padded .binary .lower 4 (word.toNat / unit % 16)).toList

/-- The bits of a word are four groups, with a blank between two of them. -/
theorem toList_bits (word : Word) :
    (bits word).toList =
      nibble word 4096 ++ ' ' :: (nibble word 256 ++ ' ' :: (nibble word 16 ++ ' ' :: nibble word 1)) := by
  simp [bits, nibble]

/-- The four groups of binary digits are those of the whole word. -/
theorem nibbles_joined (word : Word) :
    nibble word 4096 ++ nibble word 256 ++ nibble word 16 ++ nibble word 1 =
      (Numeral.padded .binary .lower 16 word.toNat).toList := by
  -- A group has the digits at four places of a quotient, of which the higher places do not show.
  have group (unit : Nat) : nibble word unit =
      (Radix.binary.places 4 (word.toNat / unit)).map LetterCase.lower.digitChar := by
    have small : word.toNat / unit % 16 < Radix.binary.base ^ 4 := Nat.mod_lt _ (by decide)
    have rest : Radix.binary.places 4 (word.toNat / unit % 16) = _ := Radix.binary.places_mod 4 (word.toNat / unit)
    rw [nibble, Numeral.toList_padded, Radix.leftpad_digits (by decide) small, rest]
  have whole : (Numeral.padded .binary .lower 16 word.toNat).toList =
      (Radix.binary.places (4 + 4 + 4 + 4) word.toNat).map LetterCase.lower.digitChar := by
    have small : word.toNat < Radix.binary.base ^ 16 := word.toNat_lt
    rw [Numeral.toList_padded, Radix.leftpad_digits (by decide) small]
  -- Taking off four places divides by sixteen, so that the units of the groups are its powers.
  have unit (number : Nat) : number / Radix.binary.base ^ 4 = number / 16 := rfl
  rw [whole, Radix.places_add, Radix.places_add, Radix.places_add, group, group, group, group]
  simp only [unit, Nat.div_div_eq_div_mul, Nat.div_one, List.map_append, Nat.reduceMul]

/-- The columns of a row are read as what it was written from. -/
theorem ofFields?_row (address : Nat) (word : Word) :
    Row.ofFields? (Text.fields (row address word)) =
      some ⟨address, word.toNat, word.toNat, (Code.mk word).text.toList⟩ := by
  have solid (width number : Nat) : ' ' ∉ (Numeral.upperHex width number).toList := Numeral.notMem_padded (.inr rfl)
  have group (unit : Nat) : ' ' ∉ nibble word unit := Numeral.notMem_padded (.inr rfl)
  -- No column has a blank in it but the disassembly, which comes last and is put together again.
  have columns : Text.fields (row address word) =
      (Numeral.upperHex 3 address).toList :: (Numeral.upperHex 4 word.toNat).toList :: nibble word 4096 ::
        nibble word 256 :: nibble word 16 :: nibble word 1 :: Text.fields (Code.mk word).text.toList := by
    rw [row, Text.fields_append (solid 3 address), Text.fields_append (solid 4 word.toNat), toList_bits]
    simp only [List.append_assoc, List.cons_append]
    rw [Text.fields_append (group 4096), Text.fields_append (group 256), Text.fields_append (group 16),
      Text.fields_append (group 1)]
  rw [columns, Row.ofFields?, nibbles_joined, Numeral.upperHex, Numeral.upperHex, Numeral.read?_padded,
    Numeral.read?_padded, Numeral.read?_padded, Text.fields, List.intercalate_splitOn]
  rfl

/-- The text of a row tells its address and its word. -/
theorem row_inj {address otherAddress : Nat} {word otherWord : Word}
    (same : row address word = row otherAddress otherWord) : address = otherAddress ∧ word = otherWord := by
  -- Both are what the reader makes of the same columns.
  have read := ofFields?_row address word
  rw [same, ofFields?_row] at read
  simp only [Option.some.injEq, Row.mk.injEq] at read
  exact ⟨read.1.symm, UInt16.toNat_inj.mp read.2.1.symm⟩

/-- The lines of a listing, each with the address that its word has. -/
theorem lines_eq (origin : Nat) (words : List Word) :
    lines origin words = words.mapIdx fun number word => line (origin + number) word := by
  induction words generalizing origin with
  | nil => rfl
  | cons word rest ih =>
    simp only [lines, List.mapIdx_cons, ih, Nat.add_zero, Nat.add_assoc, Nat.add_comm 1]

/-- The first lines of a listing are the listing of the first words. -/
theorem take_lines (count origin : Nat) (words : List Word) :
    (lines origin words).take count = lines origin (words.take count) := by
  induction words generalizing count origin with
  | nil => simp [lines]
  | cons word rest ih =>
    cases count with
    | zero => rfl
    | succ count => rw [List.take_succ_cons, lines, lines, List.take_succ_cons, ih]

/-- A listing has a row for each word, at the address that follows that of the word before. -/
theorem rows_text (origin : Word) (words : List Word) :
    Text.rows (text origin words) = words.mapIdx fun number word => row (origin.toNat + number) word := by
  -- Each line is its row and a newline, and no row has a newline in it.
  apply Text.rows_eq
  · simp only [text, String.toList_join, lines_eq, List.mapIdx_eq_zipIdx_map, List.flatMap_map, toList_line]
  · intro other within
    obtain ⟨number, inside, rfl⟩ := List.mem_mapIdx.mp within
    exact newline_notMem_row _ _

/-- What the rows of a listing tell. -/
theorem read_rows_text (origin : Word) (words : List Word) :
    ((Text.rows (text origin words)).map fun row => Row.ofFields? (Text.fields row)) =
      words.mapIdx fun number word =>
        some ⟨origin.toNat + number, word.toNat, word.toNat, (Code.mk word).text.toList⟩ := by
  simp only [rows_text, List.mapIdx_eq_zipIdx_map, List.map_map, Function.comp_def, ofFields?_row]

/-- A listing tells its words, and its origin if there are any. -/
theorem text_eq_iff (origin otherOrigin : Word) (words others : List Word) :
    text origin words = text otherOrigin others ↔ words = others ∧ (words = [] ∨ origin = otherOrigin) := by
  constructor
  · intro same
    -- The two listings have the same row at every number, and a row tells its word.
    have each (number : Nat) : words[number]?.map (row (origin.toNat + number)) =
        others[number]?.map (row (otherOrigin.toNat + number)) := by
      have shown := congrArg (fun listing => (Text.rows listing)[number]?) same
      simpa only [rows_text, List.getElem?_mapIdx] using shown
    -- Where one listing has no row, the other has none, so that they are equally long.
    have equal : words = others := by
      apply List.ext_getElem?
      intro number
      have here := each number
      cases left : words[number]? with
      | none =>
        rw [left, Option.map_none, eq_comm, Option.map_eq_none_iff] at here
        exact here.symm
      | some word =>
        rw [left, Option.map_some, eq_comm, Option.map_eq_some_iff] at here
        obtain ⟨other, found, shown⟩ := here
        rw [found, (row_inj shown).2]
    refine ⟨equal, ?_⟩
    subst equal
    -- The first row tells the origin.
    cases words with
    | nil => exact .inl rfl
    | cons word rest =>
      have first := each 0
      simp only [List.getElem?_cons_zero, Option.map_some, Option.some.injEq, Nat.add_zero] at first
      exact .inr (UInt16.toNat_inj.mp (row_inj first).1)
  · rintro ⟨rfl, rfl | rfl⟩
    · rfl
    · rfl

/--
A writer gets the lines of the first words, as many as it takes, and is not done if it refuses one.

The rows that it got tell the addresses and the words. The whole listing tells its words, and its origin if it has any.
-/
theorem write_tells_words (origin : Word) (words : List Word) (limit : Option Int) :
    let outcome := (write origin words (Feed.takeUpTo limit)).run []
    let count := Feed.reached limit words.length
    outcome.2 = (words.take count).mapIdx (fun number word => line (origin.toNat + number) word) ∧
    (outcome.1 = false ↔ count < words.length) ∧
    String.join outcome.2 = text origin (words.take count) ∧
    ((Text.rows (String.join outcome.2)).map fun row => Row.ofFields? (Text.fields row)) =
      ((words.take count).mapIdx fun number word =>
        some ⟨origin.toNat + number, word.toNat, word.toNat, (Code.mk word).text.toList⟩) ∧
    ∀ (otherOrigin : Word) (others : List Word),
      text origin words = text otherOrigin others ↔ words = others ∧ (words = [] ∨ origin = otherOrigin) := by
  intro outcome count
  -- The lines that were taken are those of the words in front.
  have written : outcome = (decide (words.length ≤ count), lines origin.toNat (words.take count)) := by
    have pieces : (lines origin.toNat words).length = words.length := by rw [lines_eq, List.length_mapIdx]
    have run := Feed.ofList_takeUpTo limit (lines origin.toNat words) []
    simp only [List.length_nil, Nat.zero_add, Nat.sub_zero, List.nil_append, pieces] at run
    rw [← take_lines]
    exact run
  have joined : String.join outcome.2 = text origin (words.take count) := by rw [written, text]
  refine ⟨by rw [written, lines_eq], ?_, joined, ?_, fun other others => text_eq_iff origin other words others⟩
  · rw [written, decide_eq_false_iff_not, Nat.not_le]
  · rw [joined, read_rows_text]

end Listing

end StackMachine
