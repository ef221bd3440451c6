import Std.Data.TreeMap
import StackMachine.Change
import StackMachine.Fault

/-! The front panel: the registers and the memory words that announced changes have shown. -/

namespace StackMachine

/-- What the changes announced so far have shown. -/
structure Panel where
  /-- The stack slots, the program counter and the stack pointer. -/
  registers : Vector Word 18
  /-- Every memory word that was ever announced. -/
  memory : Std.TreeMap Word Word
  /-- How many batches were announced. -/
  updates : Nat

namespace Panel

/-- A panel that has been shown nothing. -/
def blank : Panel :=
  ⟨Vector.replicate 18 0, ∅, 0⟩

/-- Shows one change; a register that does not exist and a kind without a meaning show nothing. -/
def apply (panel : Panel) (change : Change) : Panel :=
  match change.kind with
  | .memory => { panel with memory := panel.memory.insert change.address change.value }
  | .register =>
    { panel with registers := panel.registers.setIfInBounds change.address.toNat change.value }
  | .other _ => panel

/-- The fault of a change to a register that does not exist. -/
def changeFault? (change : Change) : Option Fault :=
  if change.kind = .register ∧ Register.count ≤ change.address.toNat then some (.register change.address)
  else none

/-- Shows the changes of a batch in order, and reports the registers that do not exist. -/
def update (panel : Panel) (batch : Batch) : Option Fault × Panel :=
  (Fault.join (batch.map changeFault?),
    batch.foldl apply { panel with updates := panel.updates + 1 })

/-- A register with its name. -/
def registerText (panel : Panel) (number : Nat) : String :=
  s!"{Register.name number}: {Numeral.upperHex 4 (panel.registers.getD number 0).toNat}"

/-- Four stack slots in a line. -/
def slotLine (panel : Panel) (row : Nat) : String :=
  " ".intercalate ((List.range 4).map fun column => panel.registerText (4 * row + column)) ++ "\n"

/-- A memory word with its address. -/
def memoryLine (entry : Word × Word) : String :=
  s!"{Numeral.upperHex 3 entry.1.toNat}: {Numeral.upperHex 4 entry.2.toNat}\n"

/-- The program counter and stack pointer, the stack slots, then the memory words by address. -/
def text (panel : Panel) : String :=
  s!"{panel.registerText 16} {panel.registerText 17}\n" ++
    String.join ((List.range 4).map panel.slotLine) ++
    String.join (panel.memory.toList.map memoryLine)

end Panel

end StackMachine
