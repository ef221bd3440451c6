/-! Texts as the bytes they are read and written as, valid characters or not. -/

namespace StackMachine

/-- A text of bytes, which need not be valid UTF-8. -/
abbrev Bytes := List UInt8

/-- The UTF-8 bytes of a string. -/
def utf8 (text : String) : Bytes :=
  text.toUTF8.data.toList

namespace Bytes

/-- The byte that ends a line. -/
def newline : UInt8 := 0x0A

/-- The byte that may stand before the end of a line and is not part of it. -/
def carriageReturn : UInt8 := 0x0D

/-- A text without the newline it may end in. -/
def withoutNewline (text : Bytes) : Bytes :=
  if text.getLast? = some newline then text.dropLast else text

/-- A text as one line of output: it ends in a newline, which is added only if it is missing. -/
def asLine (text : Bytes) : Bytes :=
  text.withoutNewline ++ [newline]

end Bytes

end StackMachine
