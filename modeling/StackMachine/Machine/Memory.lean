/-! The word memory: 4096 words of sixteen bits. -/

namespace StackMachine

/-- A machine word. -/
abbrev Word := UInt16

/-- A word read as a two's complement number. -/
def signedValue (word : Word) : Int :=
  word.toBitVec.toInt

/-- The place of a word in memory. -/
abbrev Address := Fin 4096

/-- The address in the low twelve bits of a word. -/
def Address.ofWord (word : Word) : Address :=
  ⟨word.toNat % 4096, Nat.mod_lt _ (by decide)⟩

/-- The address that a word names as it stands, if memory reaches that far. -/
def Address.ofWord? (word : Word) : Option Address :=
  if bound : word.toNat < 4096 then some ⟨word.toNat, bound⟩ else none

/-- An address as a word. -/
def Address.toWord (address : Address) : Word :=
  address.val.toUInt16

/-- The contents of every address. -/
structure Memory where
  words : Vector Word 4096
  deriving DecidableEq

namespace Memory

/-- Memory that holds zero everywhere. -/
def zero : Memory :=
  ⟨Vector.replicate 4096 0⟩

/-- The word at an address. -/
def read (memory : Memory) (address : Address) : Word :=
  memory.words[address]

/-- Memory with one word replaced. -/
def write (memory : Memory) (address : Address) (word : Word) : Memory :=
  ⟨memory.words.set address word⟩

/-- Fresh memory reads as zero. -/
@[simp] theorem read_zero (address : Address) : zero.read address = 0 := by
  simp [zero, read]

/-- A word that was written is read back, and every other address is left alone. -/
theorem read_write (memory : Memory) (written asked : Address) (word : Word) :
    (memory.write written word).read asked = if asked = written then word else memory.read asked := by
  -- Two addresses name one place exactly when their indices agree.
  simp only [read, write, Fin.getElem_fin, Vector.getElem_set, Fin.ext_iff, eq_comm]

end Memory

end StackMachine
