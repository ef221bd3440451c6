import StackMachine.Machine.Flags
import StackMachine.Machine.Stack

/-! A machine whose stack is a list, given by its instruction table. -/

namespace StackMachine

/-- Words that fit the stack, the top one first. -/
structure WordList where
  words : List Word
  bounded : words.length ≤ Stack.capacity

/-- The address in the low twelve bits of a number. -/
def Address.ofNumber (number : Nat) : Address :=
  ⟨number % 4096, Nat.mod_lt _ (by decide)⟩

/-- What a row of the instruction table reads and changes. -/
structure Contents where
  flags : Flags
  /-- The words on the stack, the top one first. -/
  words : List Word
  memory : Address → Word

namespace Contents

/-- Memory with one word replaced; only the low twelve bits of the place count. -/
def written (memory : Address → Word) (place : Nat) (word : Word) : Address → Word :=
  fun asked => if asked = .ofNumber place then word else memory asked

/-- A row that is defined where one word is there. -/
def takeOne (before : Contents) (row : Word → List Word → Contents) : Option Contents :=
  match before.words with
  | top :: rest => some (row top rest)
  | [] => none

/-- A row that is defined where two words are there. -/
def takeTwo (before : Contents) (row : Word → Word → List Word → Contents) : Option Contents :=
  match before.words with
  | top :: below :: rest => some (row top below rest)
  | _ => none

/-- The flag for the sign of a word whose upper half of values stands for the negative numbers. -/
def signFlag (word : Word) : Flags :=
  if word.toNat = 0 then .zero else if word.toNat < 32768 then .greater else .less

/-- The rows of the operations that carry an address. -/
def addressRow (operation address : Nat) (before : Contents) : Option Contents :=
  match operation with
  | 0x8 => some { before with words := before.memory (.ofNumber address) :: before.words }
  | 0x9 => before.takeOne fun top rest =>
    { before with words := rest, memory := written before.memory address top }
  | _ => some before

/-- The rows of the operations that carry no address. -/
def zeroRow (operation operand : Nat) (before : Contents) : Option Contents :=
  match operation with
  | 0x00 => some before
  | 0x01 => before.takeOne fun top _ => { before with flags := signFlag top }
  | 0x0F => before.takeOne fun _ _ => before
  | 0x10 => some { before with words := operand.toUInt16 :: before.words }
  | 0x11 => before.takeOne fun top rest =>
    { before with words := (operand * 256 + top.toNat % 256).toUInt16 :: rest }
  | 0x14 => before.takeOne fun _ rest => { before with words := rest }
  | 0x15 => before.takeOne fun top rest => { before with words := top :: top :: rest }
  | 0x18 => before.takeTwo fun top below rest => { before with words := below :: top :: rest }
  | 0x19 => before.takeTwo fun top below rest => { before with words := below :: top :: below :: rest }
  | 0x20 => before.takeTwo fun top below rest =>
    let sum := below.toNat + top.toNat
    { before with
      flags := if 0xFFFF < sum then before.flags.union .carry else before.flags
      words := sum.toUInt16 :: rest }
  | 0x21 => before.takeTwo fun top below rest =>
    let difference : Int := below.toNat - top.toNat
    { before with
      flags := if difference < 0 then before.flags.union .carry else before.flags
      words := .ofInt difference :: rest }
  | 0x44 => before.takeOne fun place rest =>
    { before with words := before.memory (.ofNumber place.toNat) :: rest }
  | 0x45 => before.takeTwo fun place word rest =>
    { before with words := rest, memory := written before.memory place.toNat word }
  | _ => some before

/-- The row of a word, by its top bit and the fields of its format. -/
def row (word : Word) (before : Contents) : Option Contents :=
  if word.toNat < 0x8000 then before.zeroRow (word.toNat / 256) (word.toNat % 256)
  else before.addressRow (word.toNat / 4096) (word.toNat % 4096)

end Contents

/-- The machine with a list for a stack. -/
structure ListMachine where
  pc : Nat
  status : UInt8
  flags : Flags
  stack : WordList
  memory : Address → Word

namespace ListMachine

/-- What the instruction table works on. -/
def contents (machine : ListMachine) : Contents :=
  ⟨machine.flags, machine.stack.words, machine.memory⟩

/-- The word that the program counter points at. -/
def fetch (machine : ListMachine) : Word :=
  machine.memory (.ofNumber machine.pc)

/-- Does what the row of a word says, if it is defined and its words fit the stack. -/
def execute (machine : ListMachine) (word : Word) : Option ListMachine := do
  let after ← machine.contents.row word
  if bounded : after.words.length ≤ Stack.capacity then
    some ⟨(machine.pc + 1) % 65536, machine.status, after.flags, ⟨after.words, bounded⟩, after.memory⟩
  else none

/-- Executes the word that the program counter points at. -/
def step (machine : ListMachine) : Option ListMachine :=
  machine.execute machine.fetch

/-- The machine after a number of steps; a step that is not defined leaves it as it is. -/
def afterSteps : Nat → ListMachine → ListMachine
  | 0, machine => machine
  | more + 1, machine => afterSteps more (machine.step.getD machine)

end ListMachine

end StackMachine
