import StackMachine.Watch

/-! What a panel shows of the machine it watches, while the machine operates. -/

namespace StackMachine

namespace Address

/-- Every address is one that its word names. -/
theorem ofWord?_toWord (place : Address) : ofWord? place.toWord = some place := by
  -- An address is small enough that a word holds it without loss.
  have small : place.val < UInt16.size := Nat.lt_trans place.isLt (by decide)
  have named : place.toWord.toNat = place.val := UInt16.toNat_ofNat_of_lt small
  have inside : place.toWord.toNat < 4096 := named ▸ place.isLt
  rw [ofWord?, dif_pos inside]
  exact congrArg some (Fin.ext named)

/-- A word names an address by its number. -/
theorem val_of_named {word : Word} {place : Address} (named : ofWord? word = some place) :
    place.val = word.toNat := by
  unfold ofWord? at named
  split at named
  · cases named
    rfl
  · cases named

/-- A word that names an address is the word of that address. -/
theorem toWord_of_named {word : Word} {place : Address} (named : ofWord? word = some place) :
    place.toWord = word := by
  rw [toWord, val_of_named named]
  exact UInt16.ofNat_toNat

end Address

/--
Some words of a memory are shown, and the words that are not shown have stayed as they were.

`since` is the memory as it was when no word had been shown.
-/
structure Memory.Shown (memory since : Memory) (shown : Std.TreeMap Word Word) : Prop where
  current : ∀ (address word : Word), shown[address]? = some word →
    ∃ place, Address.ofWord? address = some place ∧ memory.read place = word
  untouched : ∀ place : Address, shown[place.toWord]? = none → memory.read place = since.read place

namespace Memory.Shown

/-- No word of a memory has to be shown before it changes. -/
theorem nothing (memory : Memory) : memory.Shown memory ∅ where
  current address word found := by simp at found
  untouched place _ := rfl

/-- A word that is shown when it is written keeps the shown words current. -/
theorem write {memory since : Memory} {shown : Std.TreeMap Word Word} (before : memory.Shown since shown)
    {address : Word} {place : Address} (named : Address.ofWord? address = some place) (word : Word) :
    (memory.write place word).Shown since (shown.insert address word) where
  current asked found known := by
    simp only [Std.TreeMap.getElem?_insert, Std.compare_eq_iff_eq] at known
    split at known
    -- The word just written is the one that is shown.
    · rename_i same
      cases known
      refine ⟨place, same ▸ named, ?_⟩
      rw [read_write, if_pos rfl]
    -- A word shown before lies at another address, where nothing was written.
    · rename_i apart
      obtain ⟨other, otherNamed, read⟩ := before.current asked found known
      have differs : other ≠ place := by
        rintro rfl
        exact apart ((Address.toWord_of_named named).symm.trans (Address.toWord_of_named otherNamed))
      refine ⟨other, otherNamed, ?_⟩
      rw [read_write, if_neg differs]
      exact read
  untouched asked hidden := by
    simp only [Std.TreeMap.getElem?_insert, Std.compare_eq_iff_eq] at hidden
    split at hidden
    · cases hidden
    -- An address that is still hidden is not the one that was written.
    · rename_i apart
      have differs : asked ≠ place := by
        rintro rfl
        exact apart (Address.toWord_of_named named).symm
      rw [read_write, if_neg differs]
      exact before.untouched asked hidden

end Memory.Shown

namespace Panel

/-- The registers on a panel are those of a machine, and the memory words on it are shown as they are. -/
structure Shows (panel : Panel) (machine : Machine) (since : Memory) : Prop where
  slots : ∀ (slot : Nat) (inside : slot < 16), panel.registers[slot] = machine.stack.slots[slot]
  pc : panel.registers[16] = machine.pc
  depth : panel.registers[17] = machine.stack.depth.toUInt16
  memory : machine.memory.Shown since panel.memory

/-- How many batches a panel has counted does not matter to what it shows. -/
theorem Shows.counting {panel : Panel} {machine : Machine} {since : Memory} (shows : panel.Shows machine since)
    (updates : Nat) : ({ panel with updates } : Panel).Shows machine since :=
  ⟨shows.slots, shows.pc, shows.depth, shows.memory⟩

/-- A register that is shown takes the place of the one with its number. -/
theorem registers_apply (panel : Panel) (number value : Word) (asked : Nat) (inside : asked < 18) :
    (panel.apply ⟨.register, number, value⟩).registers[asked] =
      if number.toNat = asked then value else panel.registers[asked] := by
  simp only [apply, Vector.getElem_setIfInBounds]

/-- Slots that are shown from a number on hold their words, and every other register is left alone. -/
theorem registers_show_slots (words : List Word) (panel : Panel) (start : Nat)
    (fits : start + words.length ≤ 16) (asked : Nat) (inside : asked < 18) :
    ((words.mapIdx fun slot word => (⟨.register, (start + slot).toUInt16, word⟩ : Change)).foldl apply
      panel).registers[asked] =
      if start ≤ asked then words[asked - start]?.getD panel.registers[asked] else panel.registers[asked] := by
  induction words generalizing panel start with
  | nil => simp
  | cons word rest ih =>
    -- The first word is shown at the start, and the rest from the next number on.
    have room : start + 1 + rest.length ≤ 16 := by simpa [Nat.add_assoc, Nat.add_comm 1] using fits
    have number : (start + 0).toUInt16.toNat = start :=
      UInt16.toNat_ofNat_of_lt (Nat.lt_of_lt_of_le (by omega : start + 0 < 17) (by decide))
    have later : (rest.mapIdx fun slot word => (⟨.register, (start + (slot + 1)).toUInt16, word⟩ : Change)) =
        rest.mapIdx fun slot word => ⟨.register, (start + 1 + slot).toUInt16, word⟩ := by
      simp only [Nat.add_comm, Nat.add_left_comm]
    rw [List.mapIdx_cons, List.foldl_cons, later, ih _ _ room, registers_apply, number]
    -- A register below the start is never shown, the one at the start only once, the ones above in the rest.
    rcases Nat.lt_trichotomy asked start with below | rfl | above
    · rw [if_neg (by omega : ¬ start + 1 ≤ asked), if_neg (by omega : ¬ start = asked),
        if_neg (by omega : ¬ start ≤ asked)]
    · rw [if_neg (by omega : ¬ asked + 1 ≤ asked), if_pos rfl, if_pos (Nat.le_refl asked), Nat.sub_self]
      rfl
    · have shifted : asked - start = asked - (start + 1) + 1 := by omega
      rw [if_pos (by omega : start + 1 ≤ asked), if_neg (by omega : ¬ start = asked),
        if_pos (by omega : start ≤ asked), shifted, List.getElem?_cons_succ]

/-- Showing registers leaves the memory words alone. -/
theorem memory_show_registers (batch : Batch) (panel : Panel)
    (registers : ∀ change ∈ batch, change.kind = .register) :
    (batch.foldl apply panel).memory = panel.memory := by
  induction batch generalizing panel with
  | nil => rfl
  | cons change rest ih =>
    -- The first change goes to the registers, and the memory words are left to the rest of the batch.
    obtain ⟨first, others⟩ := List.forall_mem_cons.1 registers
    rw [List.foldl_cons, ih _ others, apply, first]

/-- Showing a stack sets the slots and the stack pointer. -/
theorem registers_show_stack (panel : Panel) (machine : Machine) (number : Nat) (inside : number < 18) :
    (machine.stackBatch.foldl apply panel).registers[number] =
      if 17 = number then machine.stack.depth.toUInt16
      else machine.stack.slots.toList[number]?.getD panel.registers[number] := by
  -- The slots are shown from number zero on, and the stack pointer after them.
  have fits : 0 + machine.stack.slots.toList.length ≤ 16 := by simp
  have slots := registers_show_slots machine.stack.slots.toList panel 0 fits number inside
  simp only [Nat.zero_add, Nat.zero_le, if_true, Nat.sub_zero] at slots
  rw [Machine.stackBatch, List.foldl_append, List.foldl_cons, List.foldl_nil, registers_apply, slots]
  rfl

/-- Showing a stack leaves the memory words alone. -/
theorem memory_show_stack (panel : Panel) (machine : Machine) :
    (machine.stackBatch.foldl apply panel).memory = panel.memory := by
  -- Every change of the batch is about a slot or about the stack pointer.
  apply memory_show_registers
  intro change listed
  simp only [Machine.stackBatch, List.mem_append, List.mem_mapIdx, List.mem_singleton] at listed
  rcases listed with ⟨_, _, rfl⟩ | rfl
  · rfl
  · rfl

/-- A panel that shows everything but the stack shows the whole machine after its stack batch. -/
theorem Shows.stack {panel : Panel} {machine : Machine} {since : Memory}
    (counted : panel.registers[16] = machine.pc) (shown : machine.memory.Shown since panel.memory) :
    (machine.stackBatch.foldl apply panel).Shows machine since where
  slots slot inside := by
    rw [registers_show_stack panel machine slot (by omega), if_neg (by omega)]
    simp [inside]
  pc := by
    rw [registers_show_stack panel machine 16 (by omega), if_neg (by omega)]
    simpa using counted
  depth := by rw [registers_show_stack panel machine 17 (by omega), if_pos rfl]
  memory := by rw [memory_show_stack]; exact shown

/-- A panel shows another program counter after the batch of that counter. -/
theorem Shows.counter {panel : Panel} {machine : Machine} {since : Memory} (shows : panel.Shows machine since)
    (pc : Word) : (({ machine with pc } : Machine).pcBatch.foldl apply panel).Shows { machine with pc } since where
  slots slot inside := by
    rw [Machine.pcBatch, List.foldl_cons, List.foldl_nil, registers_apply]
    -- The number of the program counter lies above those of the slots.
    have apart : ¬ Register.pc.toNat = slot := by
      have sixteen : Register.pc.toNat = 16 := rfl
      omega
    rw [if_neg apart]
    exact shows.slots slot inside
  pc := by
    rw [Machine.pcBatch, List.foldl_cons, List.foldl_nil, registers_apply]
    exact if_pos rfl
  depth := by
    rw [Machine.pcBatch, List.foldl_cons, List.foldl_nil, registers_apply]
    exact (if_neg (by decide)).trans shows.depth
  memory := shows.memory

/-- Showing the stack and the program counter makes up for every register that was wrong before. -/
theorem Shows.registers {panel : Panel} {machine : Machine} {since : Memory}
    (shown : machine.memory.Shown since panel.memory) :
    ((machine.stackBatch ++ machine.pcBatch).foldl apply panel).Shows machine since := by
  -- Between the two the panel shows a machine with the counter that it started from.
  let stale : Machine := { machine with pc := panel.registers[16] }
  have stacked : (stale.stackBatch.foldl apply panel).Shows stale since := Shows.stack rfl shown
  rw [List.foldl_append]
  exact stacked.counter machine.pc

/-- A panel shows a memory with a word replaced after that word. -/
theorem Shows.word {panel : Panel} {machine : Machine} {since : Memory} (shows : panel.Shows machine since)
    {address : Word} {place : Address} (named : Address.ofWord? address = some place) (word : Word) :
    (panel.apply ⟨.memory, address, word⟩).Shows (machine.withWord place word) since where
  slots := shows.slots
  pc := shows.pc
  depth := shows.depth
  memory := shows.memory.write named word

end Panel

end StackMachine
