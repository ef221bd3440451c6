import StackMachine.Fault

/-! The entries of the log and their wording. -/

namespace StackMachine

/-- An entry of the log. -/
inductive LogEntry where
  /-- An instruction is about to run. -/
  | executing (pc : Word) (code : Code)
  /-- An instruction had no known operation. -/
  | unknownOpcode (pc : Word) (code : Code)
  /-- The machine was reset. -/
  | reset
  /-- A word was not written because its address is not in memory. -/
  | rejected (address : Word)
  /-- An image was loaded. -/
  | loaded (count : Nat) (origin : Word)
  /-- A program asked for a report. -/
  | debug (status : UInt8) (pc : Word) (top : Word)
  /-- A subscriber returned a failure. -/
  | subscriberFailed (message : Bytes)
  /-- A subscriber broke off. -/
  | subscriberCrashed (message : Bytes)
  deriving DecidableEq

namespace LogEntry

/-- Whether an entry is written only when the log is verbose. -/
def isTrace : LogEntry → Bool
  | executing _ _ | unknownOpcode _ _ | reset | rejected _ | loaded _ _ => true
  | debug _ _ _ | subscriberFailed _ | subscriberCrashed _ => false

/-- The wording of an entry. -/
def wording : LogEntry → Bytes
  | executing pc code => utf8 s!"{Numeral.lowerHex 3 (pc.toNat % 4096)}: {code.text}"
  | unknownOpcode pc code =>
    utf8 s!"{Numeral.lowerHex 3 (pc.toNat % 4096)}: unknown opcode 0x{Numeral.lowerHex 4 code.word.toNat}"
  | reset => utf8 "cpu: reset"
  | rejected address => utf8 "cpu: " ++ (Fault.address address).message
  | loaded count origin =>
    utf8 s!"emulator: loaded {Numeral.decimal 1 count} words at 0x{Numeral.lowerHex 3 origin.toNat}"
  | debug status pc top =>
    let number (value : Nat) : String := Numeral.decimal 1 value
    utf8 s!"dbg: st={number status.toNat} pc={number pc.toNat} top={number top.toNat}"
  | subscriberFailed message => utf8 "cpu: update callback: " ++ message
  | subscriberCrashed message => utf8 "cpu: update callback panic: " ++ message

/-- The text of an entry; an entry is one line, so a newline at its end is dropped. -/
def text (entry : LogEntry) : Bytes :=
  entry.wording.withoutNewline

end LogEntry

end StackMachine
