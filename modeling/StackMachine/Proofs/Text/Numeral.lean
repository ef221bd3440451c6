import Mathlib.Algebra.Group.Nat.Defs
import Mathlib.Data.List.Basic
import StackMachine.Text.Numeral

/-!
What numerals of a width are made of: the digits of the number place by place, the most significant first.

A numeral is read back as the number that was written, whatever its width and the case of its letters. The strict reader
refuses every text that is not a numeral, so that numerals can be told from what stands between them.
-/

namespace StackMachine

namespace Radix

/-- The digit values of a number at a given count of places, most significant first. -/
def places (radix : Radix) : Nat → Nat → List Nat
  | 0, _ => []
  | count + 1, number => radix.places count (number / radix.base) ++ [number % radix.base]

/-- Every place of zero is zero. -/
theorem places_zero (radix : Radix) (count : Nat) : radix.places count 0 = List.replicate count 0 := by
  induction count with
  | zero => rfl
  | succ count ih => rw [places, Nat.zero_div, Nat.zero_mod, ih, List.replicate_succ']

/-- The last places hold the remainder, and the places in front of them the quotient. -/
theorem places_add (radix : Radix) (front back number : Nat) :
    radix.places (front + back) number =
      radix.places front (number / radix.base ^ back) ++ radix.places back number := by
  induction back generalizing number with
  | zero => rw [Nat.pow_zero, Nat.div_one, places, List.append_nil, Nat.add_zero]
  | succ back ih =>
    -- Taking off one digit leaves one place less to divide by.
    rw [← Nat.add_assoc, places, places, ih, Nat.div_div_eq_div_mul, Nat.pow_succ', List.append_assoc]

/-- What does not fit the places does not show in them. -/
theorem places_mod (radix : Radix) (count number : Nat) :
    radix.places count (number % radix.base ^ count) = radix.places count number := by
  induction count generalizing number with
  | zero => rfl
  | succ count ih =>
    -- The remainder has the same last digit, and its quotient is the remainder of the quotient.
    rw [places, places, Nat.pow_succ', Nat.mod_mul_right_div_self, ih,
      Nat.mod_mod_of_dvd _ (Nat.dvd_mul_right _ _)]

/-- Zeros in front of digits stay in front when a digit follows. -/
theorem leftpad_append_singleton (count : Nat) (front : List Nat) (last : Nat) :
    (front ++ [last]).leftpad (count + 1) 0 = front.leftpad count 0 ++ [last] := by
  simp [List.leftpad]

/-- The digits of a number that fits some places, with zeros in front, are the digits at those places. -/
theorem leftpad_digits {radix : Radix} {count number : Nat} (positive : 0 < count)
    (small : number < radix.base ^ count) : (radix.digits number).leftpad count 0 = radix.places count number := by
  fun_induction digits radix number generalizing count with
  | case1 number single =>
    -- The one digit stands at the last place, and zeros at all places in front of it.
    obtain ⟨rest, rfl⟩ := Nat.exists_eq_add_one.mpr positive
    rw [places, Nat.div_eq_of_lt single, Nat.mod_eq_of_lt single, places_zero]
    simp [List.leftpad]
  | case2 number large ih =>
    -- A number of more than one digit leaves a place for its quotient.
    obtain ⟨rest, rfl⟩ := Nat.exists_eq_add_one.mpr positive
    have wide := radix.two_le_base
    have quotient : number / radix.base < radix.base ^ rest := by
      rw [Nat.pow_succ] at small
      exact Nat.div_lt_of_lt_mul (Nat.mul_comm _ _ ▸ small)
    have more : 0 < rest := by
      rcases Nat.eq_zero_or_pos rest with rfl | more
      · rw [Nat.zero_add, Nat.pow_one] at small
        exact absurd small large
      · exact more
    rw [places, leftpad_append_singleton, ih more quotient]

/-- Zeros in front of digits do not change the number they stand for. -/
theorem value_leftpad (radix : Radix) (width : Nat) (digits : List Nat) :
    radix.value (digits.leftpad width 0) = radix.value digits := by
  have zeros (count : Nat) : radix.value (List.replicate count 0) = 0 := by
    induction count with
    | zero => rfl
    | succ count ih => rw [List.replicate_succ', value, List.foldl_append, ← value, ih]; simp
  rw [List.leftpad, value, List.foldl_append, ← value, zeros, ← value]

/-- A digit of a number with zeros in front is below the base. -/
theorem lt_base_of_mem_leftpad {radix : Radix} {width number digit : Nat}
    (member : digit ∈ (radix.digits number).leftpad width 0) : digit < radix.base := by
  rcases List.mem_append.mp member with zero | member
  · have wide := radix.two_le_base
    rw [List.eq_of_mem_replicate zero]
    omega
  · exact lt_base_of_mem_digits member

/-- There is a digit also for zero, and also without any padding. -/
theorem leftpad_digits_ne_nil (radix : Radix) (width number : Nat) : (radix.digits number).leftpad width 0 ≠ [] := by
  have some : radix.digits number ≠ [] := by
    rw [digits]
    split <;> simp
  exact List.append_ne_nil_of_right_ne_nil _ some

/-- No base has more digits than there are characters for them. -/
theorem base_le (radix : Radix) : radix.base ≤ 16 := by
  cases radix <;> decide

end Radix

namespace Numeral

/-- Zero is written alike in either case of letters. -/
theorem digitChar_zero (letters : LetterCase) : letters.digitChar 0 = '0' := by
  cases letters <;> rfl

/-- A numeral with zeros in front is spelled digit by digit. -/
theorem toList_padded (radix : Radix) (letters : LetterCase) (width number : Nat) :
    (padded radix letters width number).toList = ((radix.digits number).leftpad width 0).map letters.digitChar := by
  simp [padded, List.leftpad, digitChar_zero]

/-- Every character of a numeral is a digit of its base. -/
theorem exists_digit_of_mem_padded {radix : Radix} {letters : LetterCase} {width number : Nat} {char : Char}
    (within : char ∈ (padded radix letters width number).toList) :
    ∃ digit < radix.base, char = letters.digitChar digit := by
  rw [toList_padded] at within
  obtain ⟨digit, member, rfl⟩ := List.mem_map.mp within
  exact ⟨digit, Radix.lt_base_of_mem_leftpad member, rfl⟩

/-- The character of a digit has that digit as its value, in either case. -/
theorem digitValue?_digitChar (letters : LetterCase) {digit : Nat} (small : digit < 16) :
    digitValue? (letters.digitChar digit) = some digit := by
  have all : ∀ digit : Fin 16, digitValue? (letters.digitChar digit.val) = some digit.val := by
    cases letters <;> decide
  exact all ⟨digit, small⟩

/-- A character that is no digit is not part of a numeral. -/
theorem notMem_padded_of_no_digit {radix : Radix} {letters : LetterCase} {width number : Nat} {other : Char}
    (noDigit : digitValue? other = none) : other ∉ (padded radix letters width number).toList := by
  intro within
  obtain ⟨digit, small, rfl⟩ := exists_digit_of_mem_padded within
  rw [digitValue?_digitChar letters (Nat.lt_of_lt_of_le small radix.base_le)] at noDigit
  cases noDigit

/-- No digit is mistaken for what separates lines and fields. -/
theorem notMem_padded {radix : Radix} {letters : LetterCase} {width number : Nat} {separator : Char}
    (other : separator = '\n' ∨ separator = ' ') : separator ∉ (padded radix letters width number).toList := by
  rcases other with rfl | rfl
  · exact notMem_padded_of_no_digit (by decide)
  · exact notMem_padded_of_no_digit (by decide)

/-- A numeral is read back as the number that was written. -/
theorem value_padded (radix : Radix) (letters : LetterCase) (width number : Nat) :
    radix.value ((padded radix letters width number).toList.filterMap digitValue?) = number := by
  -- Every character gives back its own digit, the zeros in front included.
  have read : ((radix.digits number).leftpad width 0).filterMap (digitValue? ∘ letters.digitChar) =
      (radix.digits number).leftpad width 0 := by
    rw [List.filterMap_congr, List.filterMap_some]
    intro digit member
    exact digitValue?_digitChar letters (Nat.lt_of_lt_of_le (Radix.lt_base_of_mem_leftpad member) radix.base_le)
  rw [toList_padded, List.filterMap_map, read, Radix.value_leftpad, Radix.value_digits]

/-! ### Reading nothing but numerals -/

/-- The number that a numeral stands for, and none if any character is not a digit of the base. -/
def read? (radix : Radix) (digits : List Char) : Option Nat :=
  if digits = [] then none else (digits.mapM radix.digit?).map radix.value

/-- Each character is read as the digit it was written for. -/
theorem mapM_digitChar {radix : Radix} (letters : LetterCase) {digits : List Nat}
    (small : ∀ digit ∈ digits, digit < radix.base) :
    (digits.map letters.digitChar).mapM radix.digit? = some digits := by
  induction digits with
  | nil => rfl
  | cons digit rest ih =>
    have first := small digit List.mem_cons_self
    have read : radix.digit? (letters.digitChar digit) = some digit := by
      rw [Radix.digit?, digitValue?_digitChar letters (Nat.lt_of_lt_of_le first radix.base_le)]
      exact Option.filter_some_pos (by simpa using first)
    have later := ih fun other within => small other (List.mem_cons_of_mem digit within)
    rw [List.map_cons, List.mapM_cons, read, later]
    rfl

/-- A numeral of any width is read strictly as the number that was written. -/
theorem read?_padded (radix : Radix) (letters : LetterCase) (width number : Nat) :
    read? radix (padded radix letters width number).toList = some number := by
  -- The zeros in front are digits as well, and add nothing to the number.
  have some : ((radix.digits number).leftpad width 0).map letters.digitChar ≠ [] := by
    simpa using radix.leftpad_digits_ne_nil width number
  rw [toList_padded, read?, if_neg some, mapM_digitChar letters fun _ => Radix.lt_base_of_mem_leftpad,
    Option.map_some, Radix.value_leftpad, Radix.value_digits]

/-- Numerals of a width tell their numbers. -/
theorem padded_inj {radix : Radix} {letters : LetterCase} {width number other : Nat}
    (same : (padded radix letters width number).toList = (padded radix letters width other).toList) :
    number = other := by
  have read := read?_padded radix letters width number
  rw [same, read?_padded] at read
  exact (Option.some.inj read).symm

/-- A text with a character that is no digit is not a numeral. -/
theorem read?_eq_none {radix : Radix} {digits : List Char} {other : Char} (within : other ∈ digits)
    (noDigit : digitValue? other = none) : read? radix digits = none := by
  -- One character that cannot be read is enough to refuse them all.
  have refused : digits.mapM radix.digit? = none := by
    induction digits with
    | nil => cases within
    | cons char rest ih =>
      rw [List.mapM_cons]
      rcases List.mem_cons.mp within with rfl | later
      · rw [Radix.digit?, noDigit]
        rfl
      · -- Whatever the first character is, the reading breaks off in the rest.
        rw [ih later]
        cases radix.digit? char <;> rfl
  rw [read?, refused]
  split <;> rfl

end Numeral

end StackMachine
