import StackMachine.Machine.Instruction
import StackMachine.Text.Message

/-! Everything that can go wrong, as causes that may rest on other causes, with their messages. -/

namespace StackMachine

/-- A fault, with the faults that it wraps. -/
inductive Fault where
  /-- The stack is too full or too empty. -/
  | stack (cause : StackFault)
  /-- Some address is not in memory. -/
  | addressInvalid
  /-- A character of an image is neither a digit nor white space. -/
  | digitInvalid
  /-- An image ends inside a word. -/
  | wordPartial
  /-- Some register does not exist. -/
  | registerInvalid
  /-- An instruction could not run. -/
  | opcode (code : Code)
  /-- An address that is not in memory. -/
  | address (place : Word)
  /-- A register that does not exist. -/
  | register (number : Word)
  /-- A line of an image that could not be read. -/
  | line (number : Int) (text : Bytes) (cause : Option Fault)
  /-- A run that stopped at a program counter. -/
  | runtime (pc : Word) (cause : Option Fault)
  /-- Several faults at once. -/
  | joined (causes : List Fault)
  /-- A line of an image that exceeds the reader's buffer. -/
  | lineTooLong
  /-- The source of an image failed. -/
  | reading (text : Bytes)

namespace Fault

/-- Joins the faults that are there, if any. -/
def join (faults : List (Option Fault)) : Option Fault :=
  match faults.filterMap id with
  | [] => none
  | causes => some (.joined causes)

mutual

/-- The message of a fault. -/
def message : Fault → Bytes
  | stack .overflow => utf8 "stack overflow"
  | stack .underflow => utf8 "stack underflow"
  | addressInvalid => utf8 "address invalid"
  | digitInvalid => utf8 "not a hex digit"
  | wordPartial => utf8 "partial word at end of image"
  | registerInvalid => utf8 "register invalid"
  | opcode code =>
    Message.format "bad opcode 0x%04x %v" [.number code.word.toNat, .text (utf8 code.text)]
  | address place => Message.format "address 0x%04x outside 0x000-0xfff" [.number place.toNat]
  | register number => Message.format "register %d unknown" [.number number.toNat]
  | line number text cause =>
    Message.format "line %d '%v' %v" [.number number, .text text, .text (causeMessage cause)]
  | runtime pc cause => Message.format "pc 0x%03x %v" [.number pc.toNat, .text (causeMessage cause)]
  | joined causes => List.intercalate [Bytes.newline] (messages causes)
  | lineTooLong => utf8 "bufio.Scanner: token too long"
  | reading text => text

/-- The message of a wrapped fault, which may be missing. -/
def causeMessage : Option Fault → Bytes
  | none => utf8 "<nil>"
  | some cause => cause.message

/-- The message of each fault of a list. -/
def messages : List Fault → List Bytes
  | [] => []
  | fault :: rest => fault.message :: messages rest

end

mutual

/-- A fault and all the faults inside it, each before those it wraps. -/
def parts : Fault → List Fault
  | line number text cause => .line number text cause :: causeParts cause
  | runtime pc cause => .runtime pc cause :: causeParts cause
  | joined causes => .joined causes :: allParts causes
  | fault => [fault]

/-- The parts of a wrapped fault, which may be missing. -/
def causeParts : Option Fault → List Fault
  | none => []
  | some cause => cause.parts

/-- The parts of each fault of a list, in order. -/
def allParts : List Fault → List Fault
  | [] => []
  | fault :: rest => fault.parts ++ allParts rest

end

/--
Whether two faults are the same by what they say.

A stopped run and a joined fault are single occurrences, so no two of them are the same.
-/
def same : Fault → Fault → Bool
  | stack left, stack right => left = right
  | addressInvalid, addressInvalid => true
  | digitInvalid, digitInvalid => true
  | wordPartial, wordPartial => true
  | registerInvalid, registerInvalid => true
  | opcode left, opcode right => left = right
  | address left, address right => left = right
  | register left, register right => left = right
  | line leftNumber leftText leftCause, line rightNumber rightText rightCause =>
    leftNumber = rightNumber && leftText = rightText &&
      match leftCause, rightCause with
      | none, none => true
      | some left, some right => left.same right
      | _, _ => false
  | lineTooLong, lineTooLong => true
  | _, _ => false

/-- Whether a fault counts as the target, leaving aside what it wraps. -/
def countsAs (fault target : Fault) : Bool :=
  fault.same target ||
    match fault, target with
    -- Any instruction that could not run counts as any other.
    | opcode _, opcode _ => true
    -- A fault that names its address or register counts as the one that names none.
    | address _, addressInvalid => true
    | register _, registerInvalid => true
    | _, _ => false

/-- Whether a fault, or one inside it, counts as the target. -/
def involves (fault target : Fault) : Bool :=
  fault.parts.any (·.countsAs target)

/-- Whether a fault that may be missing involves a target that may be missing. -/
def optionInvolves : Option Fault → Option Fault → Bool
  | none, none => true
  | some fault, some target => fault.involves target
  | _, _ => false

end Fault

end StackMachine
