/-! The flag register, a byte of which four bits have a meaning. -/

namespace StackMachine

/-- The bits of the flag register. -/
structure Flags where
  bits : UInt8
  deriving DecidableEq, Repr

namespace Flags

/-- No flag is set. -/
def none : Flags := ⟨0⟩

/-- The compared word was zero. -/
def zero : Flags := ⟨1⟩

/-- A sum or difference did not fit a word. -/
def carry : Flags := ⟨2⟩

/-- The compared word was above zero. -/
def greater : Flags := ⟨4⟩

/-- The compared word was below zero. -/
def less : Flags := ⟨8⟩

/-- Whether every flag of a mask is set. -/
def has (flags mask : Flags) : Bool :=
  flags.bits &&& mask.bits = mask.bits

/-- The flags of both. -/
def union (flags more : Flags) : Flags :=
  ⟨flags.bits ||| more.bits⟩

/-- The letter of each meaningful flag, or a dash where it is not set. -/
def text (flags : Flags) : String :=
  String.ofList <| [(zero, 'Z'), (carry, 'C'), (greater, 'G'), (less, 'L')].map fun (flag, letter) =>
    if flags.has flag then letter else '-'

/-- The flags that say how a number compares with zero. -/
def ofSign (number : Int) : Flags :=
  if number = 0 then zero else if 0 < number then greater else less

end Flags

end StackMachine
