import StackMachine.Machine.Memory
import StackMachine.Text.Numeral

/-! Changes of memory words and registers, as they are announced to whoever watches a machine. -/

namespace StackMachine

/-- What a change is about. -/
inductive ChangeKind where
  | memory
  | register
  /-- A kind without a meaning. -/
  | other (number : Int)
  deriving DecidableEq, Repr

namespace ChangeKind

/-- The kind of a number. -/
def ofNumber (number : Int) : ChangeKind :=
  if number = 0 then memory else if number = 1 then register else other number

/-- The name of a kind, or its number where it has no meaning. -/
def name : ChangeKind → String
  | memory => "mem"
  | register => "reg"
  | other number => s!"UpdateKind({number})"

end ChangeKind

namespace Register

/-- The register number of the program counter; the numbers below are the stack slots. -/
def pc : Word := 16

/-- The register number of the stack pointer. -/
def sp : Word := 17

/-- How many registers there are. -/
def count : Nat := 18

/-- The name of a register: a slot by its number in two digits. -/
def name (number : Int) : String :=
  if number = 16 then "PC" else if number = 17 then "SP"
  else "R" ++ Numeral.signed Numeral.decimal 2 number

end Register

/-- The new value of a memory word or a register. -/
structure Change where
  kind : ChangeKind
  address : Word
  value : Word
  deriving DecidableEq, Repr

/-- Changes that are announced together. -/
abbrev Batch := List Change

end StackMachine
