import StackMachine.CommandLine.Number
import StackMachine.Text.Quoted

/-! The options of the command line: their names, their values and how arguments are refused. -/

namespace StackMachine

/-- What the arguments ask for. -/
structure Options where
  /-- The file that holds the image, or a dash for standard input. -/
  image : String
  /-- How many instructions to execute. -/
  steps : Int
  /-- The address at which to load the image. -/
  origin : Nat
  /-- Whether to print the panel after each instruction. -/
  showPanel : Bool
  /-- Whether to print a listing instead of executing. -/
  list : Bool
  /-- Whether the log is verbose. -/
  verbose : Bool
  deriving DecidableEq, Repr

/-- Why the options are not followed. -/
inductive Refusal where
  /-- The usage was asked for instead. -/
  | helpWanted
  /-- An argument of dashes without a name after them. -/
  | badShape (argument : String)
  /-- A name that no option has. -/
  | undefined (name : String)
  /-- An option whose value is missing. -/
  | valueMissing (name : String)
  /-- An option whose value cannot be read. -/
  | badValue (value name : String) (fault : NumberFault)
  /-- A switch whose value is neither true nor false. -/
  | badSwitch (value name : String)
  deriving DecidableEq, Repr

namespace Refusal

/-- What is said before the usage: nothing if it was asked for, and otherwise a line. -/
def message : Refusal → String
  | helpWanted => ""
  | badShape argument => s!"bad flag syntax: {argument}\n"
  | undefined name => s!"flag provided but not defined: -{name}\n"
  | valueMissing name => s!"flag needs an argument: -{name}\n"
  | badValue value name fault => s!"invalid value {Quoted.quote value} for flag -{name}: {fault.message}\n"
  | badSwitch value name =>
    s!"invalid boolean value {Quoted.quote value} for -{name}: {NumberFault.malformed.message}\n"

/-- The exit code. -/
def exit : Refusal → UInt32
  | helpWanted => 0
  | _ => 2

end Refusal

/-- The shape of an argument. -/
inductive Argument where
  /-- No option: options end before it. -/
  | operand
  /-- The mark after which options end. -/
  | terminator
  /-- Dashes without a name after them. -/
  | nameless
  /-- An option, with the value that follows an equals sign. -/
  | option (name : String) (value : Option String)
  deriving DecidableEq, Repr

namespace Argument

/-- The shape of an argument behind its dashes. -/
def afterDashes : List Char → Argument
  | [] => nameless
  | first :: rest =>
    if first = '-' ∨ first = '=' then nameless
    else
      -- The name ends at the first equals sign, and the value is all that follows it.
      let name := String.ofList (first :: rest.takeWhile (· ≠ '='))
      match rest.dropWhile (· ≠ '=') with
      | [] => option name none
      | _ :: value => option name (some (String.ofList value))

/-- The shape of an argument; one dash and two mean the same. -/
def ofString (argument : String) : Argument :=
  match argument.toList with
  | ['-', '-'] => terminator
  | '-' :: '-' :: rest => afterDashes rest
  | '-' :: char :: rest => afterDashes (char :: rest)
  | _ => operand

end Argument

/-- The truth value that a text spells. -/
def truth? (text : String) : Option Bool :=
  if ["1", "t", "T", "true", "TRUE", "True"].contains text then some true
  else if ["0", "f", "F", "false", "FALSE", "False"].contains text then some false
  else none

namespace Options

/-- What is done if no argument says otherwise. -/
def standard : Options :=
  ⟨"-", 1, 0, false, false, false⟩

/-- Whether an option takes a value, which may be the next argument. -/
def takesValue (name : String) : Bool :=
  ["i", "n", "o"].contains name

/-- Sets an option that takes a value. -/
def setValue (options : Options) (name value : String) : Except Refusal Options :=
  let result : Except NumberFault Options :=
    match name with
    | "n" => (Number.integer value.toList).map fun steps => { options with steps }
    | "o" => (Number.natural value.toList).map fun origin => { options with origin }
    | _ => .ok { options with image := value }
  result.mapError (.badValue value name)

/-- The setter of a switch, if the name is that of one. -/
def switch? (name : String) : Option (Bool → Options → Options) :=
  match name with
  | "l" => some fun on options => { options with list := on }
  | "m" => some fun on options => { options with showPanel := on }
  | "v" => some fun on options => { options with verbose := on }
  | _ => none

/-- Sets a switch, which is on if it has no value. -/
def setSwitch (options : Options) (name : String) (value : Option String) : Except Refusal Options :=
  match switch? name with
  | none => .error (if name = "h" ∨ name = "help" then .helpWanted else .undefined name)
  | some set =>
    let text := value.getD "true"
    match truth? text with
    | some on => .ok (set on options)
    | none => .error (.badSwitch text name)

/--
Reads options up to the first argument that is none, and returns what is left.

Arguments are read from left to right, so the last of two settings wins and the first refusal ends the reading.
-/
def read (options : Options) : List String → Except Refusal (Options × List String)
  | [] => .ok (options, [])
  | argument :: rest =>
    match Argument.ofString argument with
    | .operand => .ok (options, argument :: rest)
    | .terminator => .ok (options, rest)
    | .nameless => .error (.badShape argument)
    | .option name given =>
      if takesValue name then
        match given, rest with
        | some value, rest => do (← options.setValue name value).read rest
        | none, value :: rest => do (← options.setValue name value).read rest
        | none, [] => .error (.valueMissing name)
      else do (← options.setSwitch name given).read rest

end Options

end StackMachine
