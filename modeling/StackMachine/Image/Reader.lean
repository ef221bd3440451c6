import StackMachine.Image.Basic
import StackMachine.Image.Lines
import StackMachine.Text.CharClass
import StackMachine.Text.Utf8

/-! Reading images from text: hexadecimal digits, four to a word, with white space and comments between them. -/

namespace StackMachine

/-- A text that can be read, and the message with which reading it fails at the end, if it does. -/
structure Source where
  text : Bytes
  failure : Option Bytes
  deriving DecidableEq

/-- What has been read so far. -/
structure Reader where
  /-- The complete words, the latest first. -/
  words : List Word
  /-- The digits of the word that is not complete, the latest first. -/
  pending : List Char
  deriving DecidableEq

namespace Reader

/-- Nothing has been read. -/
def start : Reader :=
  ⟨[], []⟩

/-- The word of four digits. -/
def wordOf (digits : List Char) : Word :=
  (Radix.hexadecimal.value (digits.filterMap Radix.hexadecimal.digit?)).toUInt16

/-- Takes a digit, which completes a word if it is the fourth. -/
def takeDigit (reader : Reader) (digit : Char) : Reader :=
  let pending := digit :: reader.pending
  if pending.length = 4 then ⟨wordOf pending.reverse :: reader.words, []⟩
  else { reader with pending }

/-- Takes characters up to the first that is neither a digit nor white space, and tells whether there was none. -/
def takeChars (reader : Reader) : List Char → Bool × Reader
  | [] => (true, reader)
  | char :: rest =>
    if CharClass.blank.contains char then reader.takeChars rest
    else if (Radix.hexadecimal.digit? char).isSome then (reader.takeDigit char).takeChars rest
    else (false, reader)

/-- The byte that starts a comment. -/
def commentMark : UInt8 := 0x3B

/-- The characters of a line in front of a comment. -/
def lineChars (line : Bytes) : List Char :=
  Utf8.decode (line.takeWhile (· ≠ commentMark))

/-- Where reading lines ended. -/
structure Progress where
  reader : Reader
  /-- How many lines were taken, the last of which may be bad. -/
  lines : Nat
  /-- The lengths of those lines, each with one for its end. -/
  bytes : Nat
  /-- The last line taken, if it is bad. -/
  bad : Option Bytes
  deriving DecidableEq

/-- Takes lines in order, up to and including the first that holds a bad character. -/
def takeLines (progress : Progress) : List Bytes → Progress
  | [] => progress
  | line :: rest =>
    let (clean, reader) := progress.reader.takeChars (lineChars line)
    let taken : Progress :=
      ⟨reader, progress.lines + 1, progress.bytes + line.length + 1, if clean then none else some line⟩
    if clean then takeLines taken rest else taken

end Reader

namespace Image

/--
The fault with which reading ends, if any.

A bad line comes before a line that is too long, that before a failure of the source, and only a text that was
read to its end can end inside a word.
-/
def readFault (progress : Reader.Progress) (overlong : Bool) (failure : Option Bytes) : Option Fault :=
  match progress.bad, overlong, failure with
  | some line, _, _ => some (.line progress.lines line (some .digitInvalid))
  | none, true, _ => some .lineTooLong
  | none, false, some failure => some (.reading failure)
  | none, false, none =>
    if progress.reader.pending = [] then none
    else
      let digits := utf8 (String.ofList progress.reader.pending.reverse)
      some (.line progress.lines digits (some .wordPartial))

/--
Appends the words of a source to an image, and returns the number of bytes taken.

A fault ends the reading, and the words complete before it stay.
-/
def read (image : Image) (source : Source) : (Nat × Option Fault) × Image :=
  let split := Lines.split source.text
  let progress := Reader.takeLines ⟨.start, 0, 0, none⟩ split.lines
  ((progress.bytes, readFault progress split.overlong source.failure),
    { image with words := image.words ++ progress.reader.words.reverse })

end Image

end StackMachine
