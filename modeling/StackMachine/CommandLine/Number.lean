import StackMachine.Text.Numeral

/-! Numbers on the command line: a radix by its mark, and underscores between digits. -/

namespace StackMachine

/-- Why a text is no number. -/
inductive NumberFault where
  | malformed
  | outOfRange
  deriving DecidableEq, Repr

namespace NumberFault

/-- The message of a fault. -/
def message : NumberFault → String
  | malformed => "parse error"
  | outOfRange => "value out of range"

end NumberFault

namespace Number

/-- The size of the half of the sixty-four bit integers that lies below zero. -/
def signedHalf : Nat := 0x8000000000000000

/-- The greatest number of sixty-four bits. -/
def greatest : Nat := 0xFFFFFFFFFFFFFFFF

/-- The radix that the letter after a leading zero stands for. -/
def radixOfMark? (mark : Char) : Option Radix :=
  match mark.toLower with
  | 'b' => some .binary
  | 'o' => some .octal
  | 'x' => some .hexadecimal
  | _ => none

/-- Splits off the mark of the radix, if there is one: a zero and a letter, which at least one character follows. -/
def splitMark? : List Char → Option (Radix × List Char)
  | '0' :: mark :: char :: rest => (radixOfMark? mark).map (·, char :: rest)
  | _ => none

/-- The radix of a number and the characters of its digits; a leading zero alone means octal. -/
def splitRadix (text : List Char) : Radix × List Char :=
  match splitMark? text with
  | some marked => marked
  | none =>
    match text with
    | '0' :: rest => (.octal, rest)
    | _ => (.decimal, text)

/-- Adds digits to a number from left to right, without the underscores, and stops at the first that will not do. -/
def accumulate (radix : Radix) (number : Nat) : List Char → Except NumberFault Nat
  | [] => .ok number
  | char :: rest =>
    if char = '_' then accumulate radix number rest
    else
      match radix.digit? char with
      | none => .error .malformed
      | some digit =>
        let grown := number * radix.base + digit
        if greatest < grown then .error .outOfRange else accumulate radix grown rest

/-- Whether each underscore stands between digits, where `digit` tells whether a digit or a mark stands in front. -/
def separated (digit : Bool) : List Char → Bool
  | [] => true
  | char :: rest =>
    if char = '_' then digit && !rest.isEmpty && separated false rest else separated true rest

/-- Whether each underscore of a number stands between digits or after the mark of the radix. -/
def wellSeparated (text : List Char) : Bool :=
  match splitMark? text with
  | some (_, digits) => separated true digits
  | none => separated false text

/-- Reads a natural number of at most sixty-four bits. -/
def natural (text : List Char) : Except NumberFault Nat := do
  if text.isEmpty then throw .malformed
  let (radix, digits) := splitRadix text
  let number ← accumulate radix 0 digits
  -- Misplaced underscores are found only after every digit has been read.
  if wellSeparated text then return number else throw .malformed

/-- Reads an integer of sixty-four bits, which may have a sign. -/
def integer (text : List Char) : Except NumberFault Int := do
  match text with
  | '-' :: digits =>
    let magnitude ← natural digits
    if signedHalf < magnitude then throw .outOfRange else return -(magnitude : Int)
  | '+' :: digits => positive digits
  | digits => positive digits
where
  /-- A number without its sign, within the range of those that have none. -/
  positive (digits : List Char) : Except NumberFault Int := do
    let magnitude ← natural digits
    if signedHalf ≤ magnitude then throw .outOfRange else return magnitude

end Number

end StackMachine
