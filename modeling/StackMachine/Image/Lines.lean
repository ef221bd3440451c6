import StackMachine.Text.Bytes

/-! Lines of a byte text, read through a buffer of limited size. -/

namespace StackMachine

/-- The lines of a text, up to the first that does not fit the buffer. -/
structure Lines where
  lines : List Bytes
  /-- Whether a line did not fit, so that it and all after it are missing. -/
  overlong : Bool
  deriving DecidableEq

namespace Lines

/-- The size of the buffer, which must hold a line together with the newline that ends it. -/
def bufferSize : Nat := 65536

/-- A line given backwards, without the carriage return that it may end in. -/
def finish (backwards : Bytes) : Bytes :=
  match backwards with
  | byte :: rest => if byte = Bytes.carriageReturn then rest.reverse else backwards.reverse
  | [] => []

/--
Splits a text behind the start of a line.

The bytes of that line and the lines before it are kept backwards, with the number of bytes.
A last line that is not ended by a newline counts, unless it is empty.
-/
def splitFrom (length : Nat) (current : Bytes) (done : List Bytes) : Bytes → Lines
  | [] => ⟨(if length = 0 then done else finish current :: done).reverse, false⟩
  | byte :: rest =>
    if byte = Bytes.newline then splitFrom 0 [] (finish current :: done) rest
    else if length + 1 = bufferSize then ⟨done.reverse, true⟩
    else splitFrom (length + 1) (byte :: current) done rest

/-- Splits a text into lines. -/
def split (text : Bytes) : Lines :=
  splitFrom 0 [] [] text

end Lines

end StackMachine
