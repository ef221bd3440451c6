import StackMachine.Machine.Code
import StackMachine.Machine.Stack
import StackMachine.Text.Numeral

/-! The instruction set: operations and their numbers, decoding, stack demands and disassembly. -/

namespace StackMachine

/-- The operations that carry an address. -/
inductive AddressOp where
  /-- Pushes the word at the address. -/
  | load
  /-- Pops a word to the address. -/
  | store
  deriving DecidableEq, Repr

namespace AddressOp

/-- The operation of a number, if there is one. -/
def ofNumber? (number : Nat) : Option AddressOp :=
  match number with
  | 8 => some load
  | 9 => some store
  | _ => none

/-- The mnemonic of an operation. -/
def mnemonic : AddressOp → String
  | load => "LOAD"
  | store => "STORE"

/-- The mnemonic of a number, or the number itself where no operation has it. -/
def nameOf (number : Int) : String :=
  match number.toNat?.bind ofNumber? with
  | some operation => operation.mnemonic
  | none => s!"CodeAddrOp({number})"

/-- What the operation asks of the stack. -/
def demand : AddressOp → Demand
  | load => ⟨0, 1⟩
  | store => ⟨1, 0⟩

end AddressOp

/-- The operations that carry no address. -/
inductive ZeroOp where
  /-- Does nothing. -/
  | nop
  /-- Sets the flags by the sign of the top word. -/
  | compare
  /-- Reports the top word. -/
  | debug
  /-- Pushes the operand. -/
  | push
  /-- Replaces the high byte of the top word by the operand. -/
  | pushHigh
  /-- Drops the top word. -/
  | drop
  /-- Pushes the top word again. -/
  | dup
  /-- Exchanges the two top words. -/
  | swap
  /-- Pushes the word below the top again. -/
  | copyBelow
  /-- Replaces the two top words by their sum. -/
  | add
  /-- Replaces the two top words by the lower less the top one. -/
  | sub
  /-- Replaces an address on top by the word it holds. -/
  | loadIndirect
  /-- Pops an address and then a word to it. -/
  | storeIndirect
  deriving DecidableEq, Repr

namespace ZeroOp

/-- The operation of a number, if there is one. -/
def ofNumber? (number : Nat) : Option ZeroOp :=
  match number with
  | 0x00 => some nop
  | 0x01 => some compare
  | 0x0F => some debug
  | 0x10 => some push
  | 0x11 => some pushHigh
  | 0x14 => some drop
  | 0x15 => some dup
  | 0x18 => some swap
  | 0x19 => some copyBelow
  | 0x20 => some add
  | 0x21 => some sub
  | 0x44 => some loadIndirect
  | 0x45 => some storeIndirect
  | _ => none

/-- The mnemonic of an operation. -/
def mnemonic : ZeroOp → String
  | nop => "NOP"
  | compare => "CMP"
  | debug => "DBG"
  | push => "PUSH"
  | pushHigh => "PUSHH"
  | drop => "DROP"
  | dup => "DUP"
  | swap => "SWAP"
  | copyBelow => "OVER"
  | add => "ADD"
  | sub => "SUB"
  | loadIndirect => "LOADI"
  | storeIndirect => "STOREI"

/-- The mnemonic of a number, or the number itself where no operation has it. -/
def nameOf (number : Int) : String :=
  match number.toNat?.bind ofNumber? with
  | some operation => operation.mnemonic
  | none => s!"CodeOp({number})"

/-- What the operation asks of the stack. -/
def demand : ZeroOp → Demand
  | nop => ⟨0, 0⟩
  | push => ⟨0, 1⟩
  | compare | debug | pushHigh | drop | loadIndirect => ⟨1, 0⟩
  | dup => ⟨1, 1⟩
  | swap | add | sub | storeIndirect => ⟨2, 0⟩
  | copyBelow => ⟨2, 1⟩

end ZeroOp

/-- A decoded instruction. -/
inductive Instruction where
  | addressed (operation : AddressOp) (address : Address)
  | zero (operation : ZeroOp) (operand : UInt8)
  deriving DecidableEq, Repr

namespace Instruction

/-- What the instruction asks of the stack. -/
def demand : Instruction → Demand
  | addressed operation _ => operation.demand
  | zero operation _ => operation.demand

/-- The instruction as assembly text; an operand is shown only where it matters. -/
def text : Instruction → String
  | addressed operation address => operation.mnemonic ++ " " ++ Numeral.upperHex 3 address.val
  | zero .push operand => ZeroOp.push.mnemonic ++ " " ++ Numeral.upperHex 2 operand.toNat
  | zero .pushHigh operand => ZeroOp.pushHigh.mnemonic ++ " " ++ Numeral.upperHex 2 operand.toNat
  | zero operation _ => operation.mnemonic

end Instruction

namespace Code

/-- The instruction that a word stands for, if its operation is known. -/
def instruction? (code : Code) : Option Instruction :=
  match code.format with
  | .address => (AddressOp.ofNumber? code.addressOperation).map (.addressed · code.address)
  | .zero => (ZeroOp.ofNumber? code.zeroOperation).map (.zero · code.operand)

/-- Whether the operation of a word is known. -/
def isKnown (code : Code) : Bool :=
  code.instruction?.isSome

/-- What a word asks of the stack; an unknown operation asks nothing. -/
def demand (code : Code) : Demand :=
  match code.instruction? with
  | some instruction => instruction.demand
  | none => ⟨0, 0⟩

/-- The disassembly of a word; an unknown operation is data. -/
def text (code : Code) : String :=
  match code.instruction? with
  | some instruction => instruction.text
  | none => "DATA"

end Code

end StackMachine
