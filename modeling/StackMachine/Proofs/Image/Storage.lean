import StackMachine.Image.Basic

/-!
Loading an image into any memory that a word can address, whichever writes it refuses.

The place of a word stays at the last address once the image has run past it, so that a memory which accepts that
address is given all the words left over there, and only the last of them remains.
-/

namespace StackMachine

/-- A memory with every address that a word can name: it may refuse a write, and what it accepts it keeps. -/
structure Storage (σ : Type) where
  write : Word → Word → StateM σ (Option Fault)
  /-- The word that a state holds at an address. -/
  read : σ → Word → Word
  keeps : ∀ (address word : Word) (state : σ), ((write address word).run state).1 = none →
    ∀ asked, read ((write address word).run state).2 asked = if asked = address then word else read state asked

namespace Storage

/-- The memory that refuses the addresses for which there is a fault, and accepts all others. -/
def refusing (refusal : Word → Option Fault) : Storage (Word → Word) where
  write address word := fun contents =>
    match refusal address with
    | some fault => (some fault, contents)
    | none => (none, fun asked => if asked = address then word else contents asked)
  read contents := contents
  keeps address word contents accepted asked := by
    simp only [StateT.run] at accepted ⊢
    -- A refused write has a fault to show for it.
    cases refused : refusal address with
    | some fault =>
      rw [refused] at accepted
      cases accepted
    | none => rfl

variable {σ : Type}

/-- A memory together with the writes that it has accepted, the earliest first. -/
def recorded (storage : Storage σ) : Storage (σ × List (Word × Word)) where
  write address word := fun (state, writes) =>
    let answer := (storage.write address word).run state
    (answer.1, answer.2, if answer.1.isNone then writes ++ [(address, word)] else writes)
  read := fun (state, _) => storage.read state
  keeps address word state accepted := storage.keeps address word state.1 accepted

/-- An accepted write is added to the record. -/
theorem run_recorded (storage : Storage σ) {address word : Word} {state : σ}
    (accepted : ((storage.write address word).run state).1 = none) (writes : List (Word × Word)) :
    (storage.recorded.write address word).run (state, writes) =
      (none, ((storage.write address word).run state).2, writes ++ [(address, word)]) := by
  have kept : (if ((storage.write address word).run state).1.isNone then writes ++ [(address, word)] else writes) =
      writes ++ [(address, word)] := if_pos (Option.isNone_iff_eq_none.mpr accepted)
  exact Prod.ext accepted (Prod.ext rfl kept)

end Storage

namespace Image

variable {σ : Type}

/-- A load that goes through has written its first word and goes on behind it. -/
theorem loadFrom_passed {write : Word → Word → StateM σ (Option Fault)} {number : Nat} {word : Word}
    {rest : List Word} {state : σ} (passed : ((loadFrom write number (word :: rest)).run state).1 = none) :
    let next := ((write (place number) word).run state).2
    ((write (place number) word).run state).1 = none ∧
      (loadFrom write number (word :: rest)).run state = (loadFrom write (number + 1) rest).run next := by
  rw [run_loadFrom_cons] at passed ⊢
  generalize (write (place number) word).run state = written at passed ⊢
  -- A first word that is refused would have ended the load with its fault.
  obtain ⟨_ | fault, next⟩ := written
  · exact ⟨rfl, rfl⟩
  · cases passed

/-- A load that goes through leaves a record of each word at its place, and else does what it does without a record. -/
theorem run_loadFrom_recorded (storage : Storage σ) (words : List Word) (number : Nat) (state : σ)
    (writes : List (Word × Word)) (passed : ((loadFrom storage.write number words).run state).1 = none) :
    (loadFrom storage.recorded.write number words).run (state, writes) =
      (none, ((loadFrom storage.write number words).run state).2,
        writes ++ words.mapIdx fun index word => (place (number + index), word)) := by
  -- The induction is on the words that are left; those before them are in the record already.
  induction words generalizing number state writes with
  | nil =>
    rw [List.mapIdx_nil, List.append_nil]
    rfl
  | cons word rest ih =>
    obtain ⟨accepted, onward⟩ := loadFrom_passed passed
    rw [onward] at passed ⊢
    -- The record gains this word at its place, and the rest is numbered from the next place on.
    have shifted : (fun index word => (place (number + 1 + index), word)) =
        fun index (word : Word) => (place (number + (index + 1)), word) := by
      funext index word
      rw [Nat.add_assoc, Nat.add_comm 1]
    rw [run_loadFrom_cons, storage.run_recorded accepted, List.mapIdx_cons, ← shifted]
    refine (ih _ _ (writes ++ [(place number, word)]) passed).trans ?_
    rw [List.append_assoc]
    rfl

/-- A load that goes through and ends within what a word can name leaves each word at its own address. -/
theorem read_loadFrom (storage : Storage σ) (words : List Word) (number : Nat) (state : σ)
    (named : number + words.length ≤ 65536) (passed : ((loadFrom storage.write number words).run state).1 = none)
    (address : Word) :
    storage.read ((loadFrom storage.write number words).run state).2 address =
      if number ≤ address.toNat then words[address.toNat - number]?.getD (storage.read state address)
      else storage.read state address := by
  induction words generalizing number state with
  | nil =>
    show storage.read state address = _
    simp
  | cons word rest ih =>
    obtain ⟨accepted, onward⟩ := loadFrom_passed passed
    rw [List.length_cons] at named
    rw [onward] at passed ⊢
    rw [ih _ _ (by omega) passed, storage.keeps _ _ _ accepted]
    -- The place of this word is its own number, which no later word has.
    have own : address = place number ↔ address.toNat = number := by
      rw [← UInt16.toNat_inj, toNat_place (by omega)]
    simp only [own]
    rcases Nat.lt_trichotomy address.toNat number with below | same | above
    · rw [if_neg (by omega), if_neg (by omega), if_neg (by omega)]
    · rw [if_neg (by omega), if_pos same, if_pos (by omega), same, Nat.sub_self]
      rfl
    · have shifted : address.toNat - number = address.toNat - (number + 1) + 1 := by omega
      rw [if_pos (by omega), if_neg (by omega), if_pos (by omega), shifted, List.getElem?_cons_succ]

/-- Places of words that can all be named are apart from each other. -/
theorem nodup_places (words : List Word) {number : Nat} (named : number + words.length ≤ 65536) :
    ((words.mapIdx fun index word => (place (number + index), word)).map Prod.fst).Nodup := by
  rw [List.Nodup, List.pairwise_iff_getElem]
  intro first second firstInside secondInside before same
  simp only [List.length_map, List.length_mapIdx] at firstInside secondInside
  simp only [List.getElem_map, List.getElem_mapIdx] at same
  -- The numbers of two places can be told from the places.
  have numbers := congrArg UInt16.toNat same
  rw [toNat_place (by omega), toNat_place (by omega)] at numbers
  omega

/--
Which images lose no word, whatever memory they are loaded into.

A load that no write ends has written each word once, in order, to the place of its number. All words are at their own
addresses, and no two at the same one, exactly if the image ends within the addresses that a word can name.
-/
theorem load_keeps_words_iff (storage : Storage σ) (image : Image) (before : σ)
    (passed : ((image.load storage.write).run before).1 = none) :
    let after := ((image.load storage.write).run before).2
    let writes := ((image.load storage.recorded.write).run (before, [])).2.2
    let origin := image.origin.toNat
    (writes = image.words.mapIdx fun index word => (place (origin + index), word)) ∧
      ((∀ index word, image.words[index]? = some word →
          ∃ address : Word, address.toNat = origin + index ∧ writes[index]? = some (address, word) ∧
            storage.read after address = word) ∧
        (writes.map Prod.fst).Nodup ↔
          origin + image.words.length ≤ 65536) := by
  intro after writes origin
  have record : writes = image.words.mapIdx fun index word => (place (origin + index), word) := by
    have recorded := run_loadFrom_recorded storage image.words origin before [] passed
    rw [List.nil_append] at recorded
    exact congrArg (·.2.2) recorded
  refine ⟨record, ?_, ?_⟩
  · rintro ⟨own, _⟩
    rcases Nat.eq_zero_or_pos image.words.length with none | some
    · have small := image.origin.toNat_lt
      omega
    · -- The last word has an address of its own, and so do all before it.
      obtain ⟨address, number, _⟩ :=
        own (image.words.length - 1) _ (List.getElem?_eq_getElem (Nat.sub_one_lt_of_lt some))
      have small := address.toNat_lt
      omega
  · intro named
    rw [record]
    refine ⟨?_, nodup_places image.words named⟩
    intro index word found
    have inside : index < image.words.length := (List.getElem?_eq_some_iff.mp found).1
    have number : (place (origin + index)).toNat = origin + index := toNat_place (by omega)
    refine ⟨place (origin + index), number, ?_, ?_⟩
    · rw [List.getElem?_mapIdx, found]
      rfl
    · have held := read_loadFrom storage image.words origin before named passed (place (origin + index))
      rw [number, if_pos (Nat.le_add_right _ _), Nat.add_sub_cancel_left, found] at held
      exact held

/-- An image of two words that ends with the last address is kept whole, though some addresses are refused. -/
theorem load_keeps_words_last :
    let image : Image := ⟨0xFFFE, [7, 8]⟩
    let storage := Storage.refusing fun address => if address < 0x1000 then some .addressInvalid else none
    let loaded := (image.load storage.write).run fun _ => 0
    loaded.1 = none ∧ loaded.2 0xFFFE = 7 ∧ loaded.2 0xFFFF = 8 := by
  intro image storage loaded
  have passed : loaded.1 = none := rfl
  obtain ⟨_, kept⟩ := load_keeps_words_iff storage image (fun _ => 0) passed
  obtain ⟨own, _⟩ := kept.mpr (by decide)
  obtain ⟨first, firstNumber, _, firstHeld⟩ := own 0 7 rfl
  obtain ⟨second, secondNumber, _, secondHeld⟩ := own 1 8 rfl
  obtain rfl : first = 0xFFFE := UInt16.toNat_inj.mp firstNumber
  obtain rfl : second = 0xFFFF := UInt16.toNat_inj.mp secondNumber
  exact ⟨passed, firstHeld, secondHeld⟩

/-- An image of three words from the same origin is loaded without a fault, but its second word is lost. -/
theorem load_loses_word :
    let image : Image := ⟨0xFFFE, [7, 8, 9]⟩
    let storage := Storage.refusing fun _ => none
    let loaded := (image.load storage.write).run fun _ => 0
    loaded.1 = none ∧ loaded.2 0xFFFF = 9 ∧
      ¬ ∀ index word, image.words[index]? = some word →
        ∃ address : Word, address.toNat = image.origin.toNat + index ∧ storage.read loaded.2 address = word := by
  intro image storage loaded
  have last : loaded.2 0xFFFF = 9 := rfl
  refine ⟨rfl, last, ?_⟩
  intro own
  -- The second word belongs to the last address, which holds the third.
  obtain ⟨address, number, held⟩ := own 1 8 rfl
  obtain rfl : address = 0xFFFF := UInt16.toNat_inj.mp number
  exact absurd (held.symm.trans last) (by decide)

end Image

end StackMachine
