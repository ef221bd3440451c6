import StackMachine.Text.Numeral
import StackMachine.Text.Printable

/-! Quoted strings, in which every character that is not printable is escaped. -/

namespace StackMachine.Quoted

/-- The escapes that have a letter of their own. -/
def letterEscape? (char : Char) : Option Char :=
  match char.toNat with
  | 0x07 => some 'a'
  | 0x08 => some 'b'
  | 0x0C => some 'f'
  | 0x0A => some 'n'
  | 0x0D => some 'r'
  | 0x09 => some 't'
  | 0x0B => some 'v'
  | _ => none

/-- A character by its code point, in two, four or eight digits by its size. -/
def numericEscape (char : Char) : String :=
  let code := char.toNat
  if code < 0x80 then "\\x" ++ Numeral.lowerHex 2 code
  else if code < 0x10000 then "\\u" ++ Numeral.lowerHex 4 code
  else "\\U" ++ Numeral.lowerHex 8 code

/-- A character inside a quoted string. -/
def quoteChar (char : Char) : String :=
  if char = '"' ∨ char = '\\' then "\\" ++ char.toString
  else if CharClass.printable.contains char then char.toString
  else
    match letterEscape? char with
    | some letter => "\\" ++ letter.toString
    | none => numericEscape char

/-- A string in double quotes. -/
def quote (text : String) : String :=
  "\"" ++ String.join (text.toList.map quoteChar) ++ "\""

end StackMachine.Quoted
