import StackMachine.Fault

/-! Program images: words that are loaded into memory from an origin on. -/

namespace StackMachine

/-- Words and the address of the first of them. -/
structure Image where
  origin : Word
  words : List Word
  deriving DecidableEq

namespace Image

/-- The image without words. -/
def empty : Image :=
  ⟨0, []⟩

/-- The address of a word number, which stays at the last one that a word can name. -/
def place (number : Nat) : Word :=
  (min number 0xFFFF).toUInt16

/-- A number that a word can name is its own place. -/
theorem place_eq {number : Nat} (named : number ≤ 0xFFFF) : place number = number.toUInt16 := by
  rw [place, Nat.min_eq_left named]

/-- The place of a number that a word can name has that number. -/
theorem toNat_place {number : Nat} (named : number ≤ 0xFFFF) : (place number).toNat = number := by
  rw [place_eq named]
  exact UInt16.toNat_ofNat_of_lt (Nat.lt_succ_of_le named)

/-- Writes words from an address on, and stops at the first that is refused. -/
def loadFrom {m : Type → Type} [Monad m] (write : Word → Word → m (Option Fault)) :
    Nat → List Word → m (Option Fault)
  | _, [] => pure none
  | number, word :: rest => do
    match ← write (place number) word with
    | none => loadFrom write (number + 1) rest
    | some fault => pure (some fault)

/-- The first word is written, and the others follow unless it is refused. -/
theorem run_loadFrom_cons {σ : Type} (write : Word → Word → StateM σ (Option Fault)) (number : Nat) (word : Word)
    (rest : List Word) (state : σ) :
    (loadFrom write number (word :: rest)).run state =
      match (write (place number) word).run state with
      | (none, next) => (loadFrom write (number + 1) rest).run next
      | (some fault, stopped) => (some fault, stopped) := by
  rw [loadFrom, StateT.run_bind]
  obtain ⟨_ | fault, next⟩ := (write (place number) word).run state
  · rfl
  · rfl

/-- Writes the words of an image to a memory, and stops at the first that it refuses. -/
def load {m : Type → Type} [Monad m] (image : Image) (write : Word → Word → m (Option Fault)) :
    m (Option Fault) :=
  loadFrom write image.origin.toNat image.words

end Image

end StackMachine
