/-! Numbers as digits in a radix, zero-padded to a width or grouped by thousands. -/

namespace StackMachine

/-- A base in which numbers are written and read. -/
inductive Radix where
  | binary
  | octal
  | decimal
  | hexadecimal
  deriving DecidableEq, Repr

namespace Radix

/-- How many digits the base has. -/
def base : Radix → Nat
  | binary => 2
  | octal => 8
  | decimal => 10
  | hexadecimal => 16

/-- Every base has at least the digits zero and one. -/
theorem two_le_base (radix : Radix) : 2 ≤ radix.base := by
  cases radix <;> decide

/-- The digit values of a number, most significant first; zero has the one digit zero. -/
def digits (radix : Radix) (number : Nat) : List Nat :=
  if number < radix.base then [number]
  else radix.digits (number / radix.base) ++ [number % radix.base]
termination_by number
decreasing_by
  -- Dividing by a base of at least two makes a number that has more than one digit smaller.
  have wide := radix.two_le_base
  exact Nat.div_lt_self (by omega) (by omega)

/-- The number that a list of digit values stands for, most significant first. -/
def value (radix : Radix) (digits : List Nat) : Nat :=
  digits.foldl (fun number digit => number * radix.base + digit) 0

/-- Every digit is below the base. -/
theorem lt_base_of_mem_digits {radix : Radix} {number digit : Nat} (member : digit ∈ radix.digits number) :
    digit < radix.base := by
  fun_induction digits radix number with
  | case1 number small =>
    rw [List.mem_singleton] at member
    omega
  | case2 number large ih =>
    -- The last digit is a remainder, and the others are digits of the quotient.
    rcases List.mem_append.mp member with front | last
    · exact ih front
    · have wide := radix.two_le_base
      rw [List.mem_singleton] at last
      exact last ▸ Nat.mod_lt _ (by omega)

/-- The digits of a number stand for that number. -/
theorem value_digits (radix : Radix) (number : Nat) : radix.value (radix.digits number) = number := by
  fun_induction digits radix number with
  | case1 number small => simp [value]
  | case2 number large ih =>
    -- The digits before the last stand for the quotient, and the last is the remainder.
    simp only [value, List.foldl_append, List.foldl_cons, List.foldl_nil] at ih ⊢
    rw [ih, Nat.mul_comm]
    exact Nat.div_add_mod number radix.base

end Radix

/-- The value a character has as a digit of some base: ten digits, then the letters in either case. -/
def digitValue? (char : Char) : Option Nat :=
  if '0' ≤ char ∧ char ≤ '9' then some (char.toNat - '0'.toNat)
  else if 'a' ≤ char ∧ char ≤ 'z' then some (char.toNat - 'a'.toNat + 10)
  else if 'A' ≤ char ∧ char ≤ 'Z' then some (char.toNat - 'A'.toNat + 10)
  else none

/-- The value of a character as a digit of this base. -/
def Radix.digit? (radix : Radix) (char : Char) : Option Nat :=
  (digitValue? char).filter (· < radix.base)

/-- Which letters stand for the digits above nine. -/
inductive LetterCase where
  | lower
  | upper
  deriving DecidableEq, Repr

/-- The character of a digit below sixteen. -/
def LetterCase.digitChar : LetterCase → Nat → Char
  | lower, digit => digit.digitChar
  | upper, digit => digit.digitChar.toUpper

namespace Numeral

/-- A number in a base, with zeros in front up to a least width. -/
def padded (radix : Radix) (letters : LetterCase) (width number : Nat) : String :=
  String.ofList (((radix.digits number).map letters.digitChar).leftpad width '0')

/-- A number in lower-case hexadecimal of at least the given width. -/
def lowerHex (width number : Nat) : String :=
  padded .hexadecimal .lower width number

/-- A number in upper-case hexadecimal of at least the given width. -/
def upperHex (width number : Nat) : String :=
  padded .hexadecimal .upper width number

/-- A number in decimal of at least the given width. -/
def decimal (width number : Nat) : String :=
  padded .decimal .lower width number

/-- An integer whose magnitude is written by `magnitude`, with its sign counted in the least width. -/
def signed (magnitude : Nat → Nat → String) (width : Nat) : Int → String
  | .ofNat number => magnitude width number
  | .negSucc below => "-" ++ magnitude (width - 1) (below + 1)

/-- Digits with a comma before every third one from the right, none in front. -/
def grouped : List Char → List Char
  | [] => []
  | digit :: rest =>
    -- A comma stands where a whole number of triples is still to come.
    if rest.length % 3 = 0 ∧ rest ≠ [] then digit :: ',' :: grouped rest
    else digit :: grouped rest

/-- An integer in decimal, grouped by thousands. -/
def thousands (number : Int) : String :=
  signed (fun _ magnitude => String.ofList (grouped (decimal 1 magnitude).toList)) 0 number

end Numeral

end StackMachine
