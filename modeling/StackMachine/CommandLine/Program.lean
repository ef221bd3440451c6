import StackMachine.CommandLine.Host
import StackMachine.CommandLine.Options
import StackMachine.Listing
import StackMachine.Session

/-! The command: reads an image, lists it or runs it, and prints the state of the machine. -/

namespace StackMachine.CommandLine

/-- What a command leaves behind. -/
structure Outcome where
  exit : UInt32
  stdout : String
  stderr : Bytes
  deriving DecidableEq

/-- The name of the command. -/
def commandName : String := "stack16"

/-- The usage text. -/
def usage : String :=
  s!"Usage of {commandName}:\n" ++
    "  -i string\n    \tHex program image (default \"-\")\n" ++
    "  -l\tPrint a listing of the image, do not execute\n" ++
    "  -m\tPrint the monitor after every instruction\n" ++
    "  -n int\n    \tInstructions to execute (default 1)\n" ++
    "  -o uint\n    \tLoad address of the image\n" ++
    "  -v\tVerbose mode\n"

/-- Ends with a last entry of the log. -/
def fatal (stdout : String) (log : Bytes) (message : Bytes) : Outcome :=
  ⟨1, stdout, log ++ message.asLine⟩

/-- The name of an image in front of the message of its fault. -/
def imageFault (name : String) (message : Bytes) : Bytes :=
  utf8 s!"{name}: " ++ message

/-- The words of the image that the options name, from their origin on, or the message with which the command ends. -/
def readImage (options : Options) (host : Host) : Except Bytes Image :=
  let blank : Image := ⟨options.origin.toUInt16, []⟩
  let (name, opening) :=
    if options.image = "-" then ("stdin", Opening.opened host.stdin)
    else (options.image, host.openFile options.image)
  match opening with
  | .refused reason => .error (imageFault name reason)
  | .opened source =>
    match blank.read source with
    | ((_, none), image) => .ok image
    | ((_, some fault), _) => .error (imageFault name fault.message)

/-- Ticks up to a number of times, stops at the first fault, and shows the panel after each tick if that is asked. -/
def tickFrom (showPanel : Bool) : Nat → Session → String → (Option Fault × Session) × String
  | 0, session, printed => ((none, session), printed)
  | limit + 1, session, printed =>
    match session.tick with
    | (some fault, stopped) => ((some fault, stopped), printed)
    | (none, ticked) =>
      let shown := if showPanel then printed ++ ticked.bench.watch.panel.text else printed
      tickFrom showPanel limit ticked shown

/-- Runs an image, and prints the state of the machine at the end, whether it ended by a fault or not. -/
def execute (options : Options) (image : Image) : Outcome :=
  match { Session.initial with image, verbose := options.verbose }.reset with
  | (some fault, stopped) => fatal "" stopped.bench.watch.logText (imageFault options.image fault.message)
  | (none, session) =>
    let ((fault, final), printed) := tickFrom options.showPanel options.steps.toNat session ""
    let stdout := printed ++ final.bench.machine.text
    let log := final.bench.watch.logText
    match fault with
    | none => ⟨0, stdout, log⟩
    | some fault => fatal stdout log fault.message

/-- Does what the options ask for. -/
def runOptions (options : Options) (host : Host) : Outcome :=
  if 0xFFF < options.origin then
    fatal "" [] (utf8 s!"{commandName}: origin 0x{Numeral.lowerHex 1 options.origin} outside memory")
  else
    match readImage options host with
    | .error message => fatal "" [] message
    | .ok image =>
      if options.list then ⟨0, Listing.text image.origin image.words, []⟩ else execute options image

/-- Runs the command with its arguments. -/
def run (arguments : List String) (host : Host) : Outcome :=
  match Options.standard.read arguments with
  | .error refusal => ⟨refusal.exit, "", utf8 (refusal.message ++ usage)⟩
  | .ok (options, []) => runOptions options host
  | .ok (_, operands) =>
    fatal "" [] (utf8 (commandName ++ ": Unknown arguments: [" ++ " ".intercalate operands ++ "]"))

end StackMachine.CommandLine
