import StackMachine.Bench
import StackMachine.Image.Basic

/-! What the loading of an image leaves in the memory of a machine, also where the image overruns it. -/

namespace StackMachine

namespace Image

/-- A word number that memory reaches to is the address of its place. -/
theorem ofWord?_place {number : Nat} (inside : number < 4096) :
    Address.ofWord? (place number) = some ⟨number, inside⟩ := by
  -- Such a number is far below the last one that a word can name.
  have named : (place number).toNat = number := toNat_place (by omega)
  have bound : (place number).toNat < 4096 := named.symm ▸ inside
  rw [Address.ofWord?, dif_pos bound]
  exact congrArg some (Fin.ext named)

/-- A word number beyond memory has no address, also where its place stays at the last one that a word can name. -/
theorem ofWord?_place_beyond {number : Nat} (beyond : 4096 ≤ number) : Address.ofWord? (place number) = none := by
  have named : (place number).toNat = min number 0xFFFF :=
    UInt16.toNat_ofNat_of_lt (Nat.lt_of_le_of_lt (Nat.min_le_right _ _) (by decide))
  have bound : ¬ (place number).toNat < 4096 := by
    rw [named]
    omega
  rw [Address.ofWord?, dif_neg bound]

end Image

namespace Bench

/-- Writing to an address in memory changes that word, and announces it alone. -/
theorem setWord_named {address : Word} {place : Address} (named : Address.ofWord? address = some place) (word : Word)
    (bench : Bench) :
    bench.setWord address word =
      (none, ⟨bench.machine.withWord place word, bench.watch.announce [⟨.memory, address, word⟩]⟩) := by
  simp only [setWord, perform, Machine.setWord, named]
  rfl

/-- Writing to an address outside memory is noted in the log, and changes nothing. -/
theorem setWord_unnamed {address : Word} (unnamed : Address.ofWord? address = none) (word : Word) (bench : Bench) :
    bench.setWord address word =
      (some (.address address), ⟨bench.machine, bench.watch.note (.rejected address)⟩) := by
  simp only [setWord, perform, Machine.setWord, unnamed]
  rfl

/-- Writes words from a number on into the machine, and stops at the first that memory does not reach to. -/
def loadFrom (number : Nat) (words : List Word) (bench : Bench) : Option Fault × Bench :=
  (Image.loadFrom (m := StateM Bench) (fun address word => Bench.setWord address word) number words).run bench

/-- The first word is written, and the others follow unless it is refused. -/
theorem loadFrom_cons (number : Nat) (word : Word) (rest : List Word) (bench : Bench) :
    bench.loadFrom number (word :: rest) =
      match bench.setWord (Image.place number) word with
      | (none, next) => next.loadFrom (number + 1) rest
      | (some fault, stopped) => (some fault, stopped) := by
  have first : StateT.run (m := Id) (setWord (Image.place number) word) bench =
      bench.setWord (Image.place number) word := rfl
  rw [loadFrom, Image.run_loadFrom_cons, first]
  obtain ⟨_ | fault, next⟩ := bench.setWord (Image.place number) word
  · rfl
  · rfl

/-- A word whose number is an address is written, and the load goes on with the next number. -/
theorem loadFrom_inside {number : Nat} (inside : number < 4096) (word : Word) (rest : List Word) (bench : Bench) :
    bench.loadFrom number (word :: rest) =
      loadFrom (number + 1) rest
        ⟨bench.machine.withWord ⟨number, inside⟩ word, bench.watch.announce [⟨.memory, Image.place number, word⟩]⟩ := by
  rw [loadFrom_cons, setWord_named (Image.ofWord?_place inside)]

/-- A word whose number lies behind the memory stops the load before anything is written. -/
theorem loadFrom_beyond {number : Nat} (beyond : 4096 ≤ number) (word : Word) (rest : List Word) (bench : Bench) :
    bench.loadFrom number (word :: rest) =
      (some (.address (Image.place number)),
        ⟨bench.machine, bench.watch.note (.rejected (Image.place number))⟩) := by
  rw [loadFrom_cons, setWord_unnamed (Image.ofWord?_place_beyond beyond)]

/-- Words that are loaded from a number on are found at their addresses, and every other word is as it was. -/
theorem read_loadFrom (words : List Word) (number : Nat) (bench : Bench) (address : Address) :
    (bench.loadFrom number words).2.machine.memory.read address =
      if number ≤ address.val then words[address.val - number]?.getD (bench.machine.memory.read address)
      else bench.machine.memory.read address := by
  -- The induction is on the words that are left, from whatever number they are to be written.
  induction words generalizing number bench with
  | nil =>
    show bench.machine.memory.read address = _
    simp
  | cons word rest ih =>
    by_cases inside : number < 4096
    · rw [loadFrom_inside inside, ih]
      simp only [Machine.withWord, Memory.read_write, Fin.ext_iff]
      -- An address below the number is never written, the one at it only now, those above it by the rest.
      rcases Nat.lt_trichotomy address.val number with below | same | above
      · rw [if_neg (by omega), if_neg (by omega), if_neg (by omega)]
      · rw [if_neg (by omega), if_pos same, if_pos (by omega), same, Nat.sub_self]
        rfl
      · have shifted : address.val - number = address.val - (number + 1) + 1 := by omega
        rw [if_pos (by omega), if_neg (by omega), if_pos (by omega), shifted, List.getElem?_cons_succ]
    · -- The load stops at once, and no address of memory lies as far as the number.
      rw [loadFrom_beyond (Nat.not_lt.mp inside), if_neg (by omega)]

end Bench

end StackMachine
