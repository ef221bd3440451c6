import StackMachine.Text.Bytes
import StackMachine.Text.Numeral

/-! Messages made from a template, with numbers grouped by thousands unless a radix is asked for. -/

namespace StackMachine.Message

/-- What a template is filled in with. -/
inductive Argument where
  | number (value : Int)
  | text (bytes : Bytes)
  deriving DecidableEq, Repr

/-- A piece of a template. -/
inductive Piece where
  /-- A character that stands for itself. -/
  | literal (char : Char)
  /-- A place for the next argument, with the least width of a hexadecimal number. -/
  | place (width : Nat) (verb : Char)
  /-- A percent sign that nothing follows. -/
  | unfinished
  deriving DecidableEq, Repr

/-- Splits a template; `place` holds the width read so far once a percent sign has opened a place. -/
def piecesFrom (place : Option Nat) : List Char → List Piece
  | [] => if place.isSome then [.unfinished] else []
  | char :: rest =>
    match place with
    | none => if char = '%' then piecesFrom (some 0) rest else .literal char :: piecesFrom none rest
    | some width =>
      if char.isDigit then piecesFrom (some (width * 10 + (char.toNat - '0'.toNat))) rest
      else if char = '%' then .literal '%' :: piecesFrom none rest
      else .place width char :: piecesFrom none rest

/-- The pieces of a template. -/
def pieces (template : String) : List Piece :=
  piecesFrom none template.toList

/-- An argument that its verb does not suit is shown with the verb and its kind. -/
def unsuited (verb : Char) : Argument → Bytes
  | .number value => utf8 s!"%!{verb}(int={Numeral.thousands value})"
  | .text bytes => utf8 s!"%!{verb}(string=" ++ bytes ++ utf8 ")"

/-- Fills a place: `d` and `v` group a number, `x` and `X` write it in hexadecimal, `s` and `v` keep a text. -/
def fillPlace (width : Nat) (verb : Char) (argument : Argument) : Bytes :=
  match verb, argument with
  | 'd', .number value | 'v', .number value => utf8 (Numeral.thousands value)
  | 'x', .number value => utf8 (Numeral.signed Numeral.lowerHex width value)
  | 'X', .number value => utf8 (Numeral.signed Numeral.upperHex width value)
  | 's', .text bytes | 'v', .text bytes => bytes
  | verb, argument => unsuited verb argument

/-- Fills the places in order; a place without an argument says so, and arguments left over are dropped. -/
def fill : List Piece → List Argument → Bytes
  | [], _ => []
  | .literal char :: rest, arguments => utf8 char.toString ++ fill rest arguments
  | .unfinished :: rest, arguments => utf8 "%!(NOVERB)" ++ fill rest arguments
  | .place _ verb :: rest, [] => utf8 s!"%!{verb}(MISSING)" ++ fill rest []
  | .place width verb :: rest, argument :: arguments => fillPlace width verb argument ++ fill rest arguments

/-- The message of a template and its arguments. -/
def format (template : String) (arguments : List Argument) : Bytes :=
  fill (pieces template) arguments

end StackMachine.Message
