import StackMachine.Machine.Flags
import StackMachine.Machine.Instruction

/-! Instructions as sequences of primitive actions on the stack, the memory and the flags. -/

namespace StackMachine

/-- A sequence of primitive actions, in which later actions may use the words that earlier ones found. -/
inductive Micro where
  /-- Nothing is left to do. -/
  | done
  /-- Pushes a word. -/
  | push (word : Word) (next : Micro)
  /-- Pops a word. -/
  | pop (next : Word → Micro)
  /-- Looks at the top word. -/
  | top (next : Word → Micro)
  /-- Looks at the word below the top. -/
  | second (next : Word → Micro)
  /-- Reads a word of memory. -/
  | read (address : Address) (next : Word → Micro)
  /-- Writes a word of memory. -/
  | write (address : Address) (word : Word) (next : Micro)
  /-- Changes the flags. -/
  | flag (change : Flags → Flags) (next : Micro)
  /-- Reports a word in the log. -/
  | report (word : Word) (next : Micro)
  /-- Notes in the log that an operation is unknown. -/
  | unknown (code : Code) (next : Micro)

/-- Sets the carry flag if a result did not fit, and otherwise leaves it as it was. -/
def Flags.carryIf (lost : Bool) (flags : Flags) : Flags :=
  if lost then flags.union carry else flags

/-- The actions of an operation that carries an address. -/
def AddressOp.micro (address : Address) : AddressOp → Micro
  | load => .read address fun word => .push word .done
  | store => .pop fun word => .write address word .done

/-- The actions of an operation that carries no address. -/
def ZeroOp.micro (operand : UInt8) : ZeroOp → Micro
  | nop => .done
  | compare => .top fun word => .flag (fun _ => .ofSign (signedValue word)) .done
  | debug => .top fun word => .report word .done
  | push => .push operand.toUInt16 .done
  | pushHigh => .pop fun word => .push (operand.toNat * 256 + word.toNat % 256).toUInt16 .done
  | drop => .pop fun _ => .done
  | dup => .top fun word => .push word .done
  | swap => .pop fun above => .pop fun below => .push above (.push below .done)
  | copyBelow => .second fun word => .push word .done
  | add => .pop fun above => .pop fun below =>
    .flag (.carryIf (0xFFFF < below.toNat + above.toNat)) (.push (below + above) .done)
  | sub => .pop fun above => .pop fun below =>
    .flag (.carryIf (below < above)) (.push (below - above) .done)
  | loadIndirect => .pop fun place => .read (.ofWord place) fun word => .push word .done
  | storeIndirect => .pop fun place => .pop fun word => .write (.ofWord place) word .done

/-- The actions of an instruction. -/
def Instruction.micro : Instruction → Micro
  | addressed operation address => operation.micro address
  | zero operation operand => operation.micro operand

/-- The actions of a word; an unknown operation does nothing but leave a note. -/
def Code.micro (code : Code) : Micro :=
  match code.instruction? with
  | some instruction => instruction.micro
  | none => .unknown code .done

end StackMachine
