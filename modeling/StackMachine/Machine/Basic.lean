import StackMachine.Change
import StackMachine.Log
import StackMachine.Machine.Microcode

/-! The machine state and its operations, each of which returns what it has to announce. -/

namespace StackMachine

/-- The state of the machine. -/
structure Machine where
  /-- The program counter, of which the low twelve bits address memory. -/
  pc : Word
  /-- The status register. -/
  status : UInt8
  flags : Flags
  stack : Stack
  memory : Memory
  deriving DecidableEq

/-- Something an operation announces while it runs. -/
inductive Event where
  /-- A line for the log. -/
  | log (entry : LogEntry)
  /-- Changes for whoever watches the machine. -/
  | changes (batch : Batch)
  deriving DecidableEq

/-- The result of an operation: the state after it, the fault that stopped it, and its events in order. -/
structure Response where
  machine : Machine
  fault : Option Fault
  events : List Event

namespace Machine

/-- The machine when it is switched on. -/
def initial : Machine :=
  ⟨0, 0, .none, .empty, .zero⟩

/-- Every stack slot and the stack pointer, as they are now. -/
def stackBatch (machine : Machine) : Batch :=
  (machine.stack.slots.toList.mapIdx fun slot word => ⟨.register, slot.toUInt16, word⟩) ++
    [⟨.register, Register.sp, machine.stack.depth.toUInt16⟩]

/-- The program counter, as it is now. -/
def pcBatch (machine : Machine) : Batch :=
  [⟨.register, Register.pc, machine.pc⟩]

/-- The machine with another stack. -/
def withStack (machine : Machine) (stack : Stack) : Machine :=
  { machine with stack }

/-- The machine with one memory word replaced. -/
def withWord (machine : Machine) (address : Address) (word : Word) : Machine :=
  { machine with memory := machine.memory.write address word }

end Machine

/-- Performs actions in order without checking the stack, and announces the stack or word after each change. -/
def Micro.run : Micro → Machine → Machine × List Event
  | done, machine => (machine, [])
  | push word next, machine =>
    let after := machine.withStack (machine.stack.pushUnchecked word)
    let batch := after.stackBatch
    let (final, events) := next.run after
    (final, .changes batch :: events)
  | pop next, machine =>
    let (word, stack) := machine.stack.popUnchecked
    let after := machine.withStack stack
    let batch := after.stackBatch
    let (final, events) := (next word).run after
    (final, .changes batch :: events)
  | top next, machine => (next (machine.stack.peek 0)).run machine
  | second next, machine => (next (machine.stack.peek 1)).run machine
  | read address next, machine => (next (machine.memory.read address)).run machine
  | write address word next, machine =>
    let (final, events) := next.run (machine.withWord address word)
    (final, .changes [⟨.memory, address.toWord, word⟩] :: events)
  | flag change next, machine => next.run { machine with flags := change machine.flags }
  | report word next, machine =>
    let entry := LogEntry.debug machine.status machine.pc word
    let (final, events) := next.run machine
    (final, .log entry :: events)
  | unknown code next, machine =>
    let entry := LogEntry.unknownOpcode machine.pc code
    let (final, events) := next.run machine
    (final, .log entry :: events)

namespace Machine

/-- The instruction that the program counter points at. -/
def fetch (machine : Machine) : Code :=
  ⟨machine.memory.read (.ofWord machine.pc)⟩

/--
Executes an instruction.

The stack is checked first, so that an instruction either runs to its end or changes nothing.
-/
def execute (machine : Machine) (code : Code) : Response :=
  let executing := Event.log (.executing machine.pc code)
  match machine.stack.check code.demand with
  | .error cause => ⟨machine, some (.joined [.opcode code, .stack cause]), [executing]⟩
  | .ok () =>
    let following := machine.pc + 1
    let (ran, events) := code.micro.run machine
    let final := { ran with pc := following }
    ⟨final, none, executing :: events ++ [.changes final.pcBatch]⟩

/-- Executes the instruction that the program counter points at. -/
def step (machine : Machine) : Response :=
  machine.execute machine.fetch

/-- Clears the registers and the stack, and keeps the memory. -/
def reset (machine : Machine) : Response :=
  let final := { initial with memory := machine.memory }
  ⟨final, none, [.log .reset, .changes (final.stackBatch ++ final.pcBatch)]⟩

/-- Writes a word, if memory reaches to its address. -/
def setWord (machine : Machine) (address : Word) (word : Word) : Response :=
  match Address.ofWord? address with
  | some place => ⟨machine.withWord place word, none, [.changes [⟨.memory, address, word⟩]]⟩
  | none => ⟨machine, some (.address address), [.log (.rejected address)]⟩

/-- Reads a word, if memory reaches to its address. -/
def word (machine : Machine) (address : Word) : Except Fault Word :=
  match Address.ofWord? address with
  | some place => .ok (machine.memory.read place)
  | none => .error (.address address)

/-- The words on the stack in hexadecimal, bottom first, or dashes if there are none. -/
def stackText (machine : Machine) : String :=
  match machine.stack.live with
  | [] => "----"
  | words => " ".intercalate (words.map fun word => Numeral.upperHex 4 word.toNat)

/-- The registers and the stack, one to a line. -/
def text (machine : Machine) : String :=
  s!"   pc: 0x{Numeral.upperHex 4 machine.pc.toNat}\n" ++
    s!"   st: 0x{Numeral.upperHex 2 machine.status.toNat}\n" ++
    s!"flags: {machine.flags.text}\n" ++
    s!"   sp: {Numeral.decimal 1 machine.stack.depth}\n" ++
    s!"stack: {machine.stackText}\n"

end Machine

end StackMachine
