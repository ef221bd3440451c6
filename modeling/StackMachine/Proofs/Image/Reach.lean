import StackMachine.Proofs.Announcement
import StackMachine.Proofs.Image.Load

/-! Of an image that is loaded into a machine, the words that memory reaches to are written and announced, no others. -/

namespace StackMachine

/-- The batches that announce words written from a number on, in order. -/
def Image.announcements (number : Nat) (words : List Word) : List Batch :=
  words.mapIdx fun index word => [⟨.memory, (number + index).toUInt16, word⟩]

/-- The first word is announced at its own number, and the others follow from the next number on. -/
theorem Image.announcements_cons (number : Nat) (word : Word) (rest : List Word) :
    announcements number (word :: rest) =
      [⟨.memory, number.toUInt16, word⟩] :: announcements (number + 1) rest := by
  -- The later words are numbered from the next number on.
  have shifted : (fun index word => [(⟨.memory, (number + (index + 1)).toUInt16, word⟩ : Change)]) =
      fun index word => [⟨.memory, (number + 1 + index).toUInt16, word⟩] := by
    funext index word
    rw [Nat.add_assoc, Nat.add_comm 1]
  rw [announcements, List.mapIdx_cons, shifted]
  rfl

/-- Batches that are all announced by themselves are found again in front of the later ones. -/
theorem Event.batches_map_changes (batches : List Batch) (rest : List Event) :
    Event.batches (batches.map .changes ++ rest) = batches ++ Event.batches rest := by
  have all : (batches.map Event.changes).filterMap Event.batch? = batches := by
    rw [List.filterMap_map]
    exact List.filterMap_some
  rw [Event.batches, List.filterMap_append, all]
  rfl

namespace Bench

/-- Words that memory reaches to are written and announced one by one, and the load goes on behind them. -/
theorem loadFrom_reached (front rest : List Word) (number : Nat) (inside : front.length ≤ 4096 - number)
    (bench : Bench) :
    ∃ memory, bench.loadFrom number (front ++ rest) =
      loadFrom (number + front.length) rest
        ⟨{ bench.machine with memory },
          bench.watch.observeAll ((Image.announcements number front).map .changes)⟩ := by
  -- The induction is on the words that memory reaches to; the memory behind them is found on the way.
  induction front generalizing number bench with
  | nil => exact ⟨bench.machine.memory, rfl⟩
  | cons word front ih =>
    rw [List.length_cons] at inside
    have reached : number < 4096 := by omega
    rw [List.cons_append, loadFrom_inside reached, Image.place_eq (by omega)]
    obtain ⟨memory, loaded⟩ := ih (number + 1) (by omega)
      ⟨bench.machine.withWord ⟨number, reached⟩ word, bench.watch.announce [⟨.memory, number.toUInt16, word⟩]⟩
    refine ⟨memory, ?_⟩
    rw [loaded, Image.announcements_cons, List.length_cons, Nat.add_assoc, Nat.add_comm 1]
    rfl

/-- A load ends with the last word, or is refused at the first number that memory does not reach to. -/
theorem loadFrom_eq (words : List Word) {number : Nat} (named : number ≤ 0xFFFF) (bench : Bench) :
    let announced := (Image.announcements number (words.take (4096 - number))).map Event.changes
    let beyond := (max number 4096).toUInt16
    ∃ memory, bench.loadFrom number words =
      (if words.length ≤ 4096 - number then none else some (.address beyond),
        ⟨{ bench.machine with memory },
          bench.watch.observeAll
            (announced ++ if words.length ≤ 4096 - number then [] else [.log (.rejected beyond)])⟩) := by
  intro announced beyond
  have few : (words.take (4096 - number)).length ≤ 4096 - number := List.length_take_le _ _
  obtain ⟨memory, loaded⟩ := loadFrom_reached _ (words.drop (4096 - number)) number few bench
  rw [List.take_append_drop] at loaded
  refine ⟨memory, ?_⟩
  by_cases fits : words.length ≤ 4096 - number
  · -- Nothing is left behind the words that are reached.
    rw [if_pos fits, if_pos fits, loaded, List.drop_eq_nil_of_le fits, List.append_nil]
    rfl
  · obtain ⟨word, rest, surplus⟩ : ∃ word rest, words.drop (4096 - number) = word :: rest :=
      List.exists_cons_of_length_pos (by rw [List.length_drop]; omega)
    -- The first word that is left behind belongs to the first number beyond memory, which a word can still name.
    have next : number + (words.take (4096 - number)).length = max number 4096 := by
      rw [List.length_take]
      omega
    rw [if_neg fits, if_neg fits, loaded, surplus, next, loadFrom_beyond (Nat.le_max_right _ _),
      Image.place_eq (by omega), Watch.observeAll_append]
    rfl

/--
A load is refused exactly where the image overruns memory, and then names the first address beyond it.

Either way the words that memory reaches to are written, each at its own address and with a batch of its own, and
nothing else changes.
-/
theorem load_writes_reached (image : Image) (bench : Bench) :
    let result := (Operation.load image).perform bench
    let after := result.2.machine
    let origin := image.origin.toNat
    let count := min image.words.length (4096 - origin)
    let batches : List Batch :=
      (image.words.take count).mapIdx fun index word => [⟨.memory, (origin + index).toUInt16, word⟩]
    let beyond := (max origin 4096).toUInt16
    (result.1 = if image.words = [] ∨ origin + image.words.length ≤ 4096 then none else some (.address beyond)) ∧
      (∀ index word, index < count → image.words[index]? = some word →
        ∃ address : Address, address.val = origin + index ∧ after.memory.read address = word) ∧
      (∀ address : Address, (∀ index < count, address.val ≠ origin + index) →
        after.memory.read address = bench.machine.memory.read address) ∧
      after = { bench.machine with memory := after.memory } ∧
      result.2.watch = bench.watch.observeAll (batches.map .changes ++
        if image.words = [] ∨ origin + image.words.length ≤ 4096 then [] else [.log (.rejected beyond)]) ∧
      batches.length = count ∧
      ∀ reply : List Batch → Reply, bench.watch.subscriber = .tap reply →
        (∀ received, (reply received).leaves = false) →
          result.2.watch.received = batches.reverse ++ bench.watch.received := by
  intro result after origin count batches beyond
  -- The truncated difference lets the empty image fit everywhere.
  have fits : (image.words = [] ∨ origin + image.words.length ≤ 4096) ↔ image.words.length ≤ 4096 - origin := by
    rw [← List.length_eq_zero_iff]
    omega
  have taken : image.words.take (4096 - origin) = image.words.take count := by
    rw [List.take_eq_take_min, Nat.min_comm]
  have named : origin ≤ 0xFFFF := Nat.le_of_lt_succ image.origin.toNat_lt
  obtain ⟨memory, loaded⟩ := bench.loadFrom_eq image.words named
  simp only [taken, ← fits] at loaded
  have read : ∀ address, after.memory.read address = _ := bench.read_loadFrom image.words origin
  have watched : result.2.watch = _ := congrArg (·.2.watch) loaded
  refine ⟨congrArg (·.1) loaded, ?_, ?_, ?_, watched, ?_, ?_⟩
  · intro index word inside found
    have small : origin + index < 4096 := by omega
    refine ⟨⟨origin + index, small⟩, rfl, ?_⟩
    rw [read, if_pos (Nat.le_add_right _ _), Nat.add_sub_cancel_left, found]
    rfl
  · intro address other
    rw [read]
    split
    case isTrue above =>
      -- An address from the origin on that is not written lies behind the last word.
      have behind : ¬ address.val - origin < count := fun inside => other _ inside (Nat.add_sub_of_le above).symm
      rw [List.getElem?_eq_none (by omega)]
      rfl
    case isFalse => rfl
  · have machine : after = { bench.machine with memory } := congrArg (·.2.machine) loaded
    rw [machine]
  · simp only [batches, List.length_mapIdx, List.length_take]
    omega
  · intro reply attached stays
    rw [watched, Watch.received_observeAll stays _ attached]
    -- A refusal is noted in the log and is no batch.
    have unannounced : Event.batches
        (if image.words = [] ∨ origin + image.words.length ≤ 4096 then [] else [.log (.rejected beyond)]) = [] := by
      split
      · rfl
      · rfl
    rw [Event.batches_map_changes, unannounced, List.append_nil]
    rfl

/-- Of three words from the last but one address on, a tap hears of two, and the first address keeps its word. -/
theorem load_writes_reached_two :
    let image : Image := ⟨4094, [7, 8, 9]⟩
    let bench : Bench :=
      ⟨Machine.initial, { Watch.idle with subscriber := .tap fun _ => ⟨.failed [0x21], false⟩ }⟩
    ((Operation.load image).perform bench).1 = some (.address 4096) ∧
      (∃ address : Address, address.val = 4095 ∧
        ((Operation.load image).perform bench).2.machine.memory.read address = 8) ∧
      ((Operation.load image).perform bench).2.machine.memory.read 0 = bench.machine.memory.read 0 ∧
      ((Operation.load image).perform bench).2.watch.received = [[⟨.memory, 4095, 8⟩], [⟨.memory, 4094, 7⟩]] := by
  intro image bench
  have facts := load_writes_reached image bench
  refine ⟨facts.1, facts.2.1 1 8 (by decide) rfl, facts.2.2.1 0 ?_, facts.2.2.2.2.2.2 _ rfl fun _ => rfl⟩
  -- The first address lies below the origin.
  exact fun index _ => Nat.ne_of_lt (Nat.lt_add_right index (by decide))

end Bench

end StackMachine
