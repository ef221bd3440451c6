import StackMachine.Machine.Memory

/-! Instruction words: their two formats, the fields of each, and how fields make a word. -/

namespace StackMachine

/-- A word as an instruction. -/
structure Code where
  word : Word
  deriving DecidableEq, Repr

/-- How the bits of an instruction word are divided. -/
inductive Format where
  /-- Eight bits of operation, then a byte of operand. -/
  | zero
  /-- Four bits of operation, then an address. -/
  | address
  deriving DecidableEq, Repr

namespace Code

/-- The top bit tells the format. -/
def format (code : Code) : Format :=
  if 0x8000 ≤ code.word then .address else .zero

/-- The operation field of the address format: the top four bits. -/
def addressOperation (code : Code) : Nat :=
  code.word.toNat / 4096

/-- The address field: the low twelve bits. -/
def address (code : Code) : Address :=
  Address.ofWord code.word

/-- The operation field of the zero-address format: the top eight bits. -/
def zeroOperation (code : Code) : Nat :=
  code.word.toNat / 256

/-- The operand field: the low eight bits. -/
def operand (code : Code) : UInt8 :=
  code.word.toUInt8

/-- The address-format word of an operation and an address: the top bit is set and surplus bits are dropped. -/
def ofAddressFields (operation : Int) (address : Word) : Code :=
  -- With the top bit set, only the low three bits of the operation are free.
  ⟨((8 + (operation % 8).toNat) * 4096 + address.toNat % 4096).toUInt16⟩

/-- The zero-address word of an operation and an operand: the top bit is clear and surplus bits are dropped. -/
def ofZeroFields (operation : Int) (operand : UInt8) : Code :=
  ⟨((operation % 128).toNat * 256 + operand.toNat).toUInt16⟩

end Code

end StackMachine
