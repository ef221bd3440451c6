import StackMachine.Panel

/-!
What a panel shows after a batch: the last change of each place wins, and nothing stops the changes after it.

A panel is determined by one value for each place, so a batch is described by the last value that it gives a place.
-/

namespace StackMachine

namespace ChangeKind

/-- Only zero and one are numbers of a kind with a meaning. -/
theorem ofNumber_meaning (number : Int) :
    (ofNumber number = memory ↔ number = 0) ∧ (ofNumber number = register ↔ number = 1) := by
  unfold ofNumber
  split
  · simp_all
  · split <;> simp_all

end ChangeKind

namespace Change

/-- The value that a change gives a place of a kind, if it is about that place. -/
def valueAt? (change : Change) (kind : ChangeKind) (place : Nat) : Option Word :=
  if change.kind = kind ∧ change.address.toNat = place then some change.value else none

/-- The value that a batch gives a place of a kind last. -/
def lastValue? (batch : Batch) (kind : ChangeKind) (place : Nat) : Option Word :=
  (batch.filter fun change => change.kind = kind ∧ change.address.toNat = place).getLast?.map (·.value)

/-- Whether the kind of a change has a meaning. -/
def isMeaningful (change : Change) : Bool :=
  change.kind = .memory ∨ change.kind = .register

/-- Whether a change is about a register that does not exist. -/
def isStray (change : Change) : Bool :=
  change.kind = .register ∧ Register.count ≤ change.address.toNat

/-- A later change wins over the first one. -/
theorem lastValue?_cons (change : Change) (rest : Batch) (kind : ChangeKind) (place : Nat) :
    lastValue? (change :: rest) kind place = (lastValue? rest kind place).or (change.valueAt? kind place) := by
  unfold lastValue? valueAt?
  by_cases about : change.kind = kind ∧ change.address.toNat = place
  · rw [List.filter_cons_of_pos (by simpa using about), List.getLast?_cons, if_pos about]
    cases (rest.filter _).getLast? <;> rfl
  · rw [List.filter_cons_of_neg (by simpa using about), if_neg about, Option.or_none]

end Change

namespace Fault

/-- The register that a fault by itself says does not exist. -/
def register? : Fault → Option Word
  | register number => some number
  | _ => none

/-- The registers that a fault says do not exist, wherever they stand in it, in order. -/
def unknownRegisters (fault : Option Fault) : List Word :=
  (causeParts fault).filterMap register?

/-- Faults about registers have no other parts than themselves. -/
theorem allParts_registers (numbers : List Word) : allParts (numbers.map .register) = numbers.map .register := by
  induction numbers with
  | nil => rfl
  | cons number rest ih =>
    rw [List.map_cons, allParts, ih]
    rfl

/-- Faults about registers name just these registers. -/
theorem filterMap_register?_allParts (numbers : List Word) :
    (allParts (numbers.map .register)).filterMap register? = numbers := by
  rw [allParts_registers, List.filterMap_map]
  exact List.filterMap_some

end Fault

namespace Panel

open Change

/-! ### One change -/

/-- A change shows in the register that it is about, and in no other. -/
theorem registers_get_apply (panel : Panel) (change : Change) (number : Fin 18) :
    (panel.apply change).registers.get number =
      (change.valueAt? .register number).getD (panel.registers.get number) := by
  obtain ⟨kind, address, value⟩ := change
  cases kind with
  | memory => rfl
  | other _ => rfl
  | register =>
    show (panel.registers.setIfInBounds address.toNat value)[number.val] = _
    rw [Vector.getElem_setIfInBounds]
    by_cases same : address.toNat = number.val
    · rw [if_pos same, valueAt?, if_pos ⟨rfl, same⟩, Option.getD_some]
    · rw [if_neg same, valueAt?, if_neg fun about => same about.2, Option.getD_none]
      rfl

/-- A change shows in the memory word that it is about, and in no other. -/
theorem memory_apply (panel : Panel) (change : Change) (address : Word) :
    (panel.apply change).memory[address]? =
      (change.valueAt? .memory address.toNat).or panel.memory[address]? := by
  obtain ⟨kind, changed, value⟩ := change
  cases kind with
  | register => rfl
  | other _ => rfl
  | memory =>
    simp only [apply, valueAt?, Std.TreeMap.getElem?_insert, Std.compare_eq_iff_eq, UInt16.toNat_inj, true_and]
    split <;> rfl

/-- A change of a kind without a meaning shows nothing. -/
theorem apply_meaningless (panel : Panel) {change : Change} (meaningless : ¬ change.isMeaningful) :
    panel.apply change = panel := by
  obtain ⟨kind, address, value⟩ := change
  cases kind with
  | memory => simp [isMeaningful] at meaningless
  | register => simp [isMeaningful] at meaningless
  | other _ => rfl

/-- How many batches a panel has counted is no matter of the changes. -/
theorem apply_counting (panel : Panel) (change : Change) (updates : Nat) :
    ({ panel with updates } : Panel).apply change = { panel.apply change with updates } := by
  obtain ⟨kind, address, value⟩ := change
  cases kind <;> rfl

/-! ### Any number of changes -/

/-- A register shows the last value that the changes give it, or what it showed before. -/
theorem registers_get_foldl (batch : Batch) (panel : Panel) (number : Fin 18) :
    (batch.foldl apply panel).registers.get number =
      (lastValue? batch .register number).getD (panel.registers.get number) := by
  induction batch generalizing panel with
  | nil => rfl
  | cons change rest ih =>
    -- A value that the rest gives the register comes after that of the first change.
    rw [List.foldl_cons, ih, registers_get_apply, lastValue?_cons, Option.getD_or]

/-- The same argument holds for memory, where a word that was never announced has no entry to fall back on. -/
theorem memory_foldl (batch : Batch) (panel : Panel) (address : Word) :
    (batch.foldl apply panel).memory[address]? =
      (lastValue? batch .memory address.toNat).or panel.memory[address]? := by
  induction batch generalizing panel with
  | nil => rfl
  | cons change rest ih =>
    rw [List.foldl_cons, ih, memory_apply, lastValue?_cons, Option.or_assoc]

/-- How many batches a panel has counted is no matter of any number of changes. -/
theorem foldl_counting (batch : Batch) (panel : Panel) (updates : Nat) :
    batch.foldl apply { panel with updates } = { batch.foldl apply panel with updates } := by
  induction batch generalizing panel with
  | nil => rfl
  | cons change rest ih => rw [List.foldl_cons, List.foldl_cons, apply_counting, ih]

/-- Changes of a kind without a meaning can be left out of what is shown. -/
theorem foldl_filter_meaningful (batch : Batch) (panel : Panel) :
    (batch.filter isMeaningful).foldl apply panel = batch.foldl apply panel := by
  induction batch generalizing panel with
  | nil => rfl
  | cons change rest ih =>
    by_cases meaningful : change.isMeaningful
    · rw [List.filter_cons_of_pos meaningful, List.foldl_cons, List.foldl_cons, ih]
    · rw [List.filter_cons_of_neg meaningful, List.foldl_cons, apply_meaningless panel meaningful, ih]

/-! ### The fault of a batch -/

/-- The faults of a batch are those of its changes to registers that do not exist, in order. -/
theorem filterMap_changeFault? (batch : Batch) :
    (batch.map changeFault?).filterMap id = (batch.filter isStray).map fun change => .register change.address := by
  induction batch with
  | nil => rfl
  | cons change rest ih =>
    by_cases stray : change.kind = .register ∧ Register.count ≤ change.address.toNat
    · rw [List.filter_cons_of_pos (by simpa [isStray] using stray), List.map_cons, List.map_cons, ← ih,
        changeFault?, if_pos stray]
      rfl
    · rw [List.filter_cons_of_neg (by simpa [isStray] using stray), List.map_cons, ← ih, changeFault?,
        if_neg stray]
      rfl

/-- An update reports the stray registers of its batch, joined in order, and nothing if there are none. -/
theorem fault_update (panel : Panel) (batch : Batch) :
    (panel.update batch).1 =
      if batch.filter isStray = [] then none
      else some (.joined ((batch.filter isStray).map fun change => .register change.address)) := by
  rw [update, Fault.join, filterMap_changeFault?]
  cases batch.filter isStray <;> rfl

/-- The registers that an update says do not exist are the stray ones of its batch. -/
theorem unknownRegisters_update (panel : Panel) (batch : Batch) :
    Fault.unknownRegisters (panel.update batch).1 = (batch.filter isStray).map (·.address) := by
  rw [fault_update]
  split
  case isTrue none =>
    rw [none]
    rfl
  case isFalse =>
    -- The joined fault itself names no register, and each of its causes names one.
    have strays := Fault.filterMap_register?_allParts ((batch.filter isStray).map (·.address))
    rw [List.map_map] at strays
    exact strays

/-- A batch is accepted exactly when all its registers exist. -/
theorem fault_update_eq_none (panel : Panel) (batch : Batch) :
    (panel.update batch).1 = none ↔
      ∀ change ∈ batch, change.kind = .register → change.address.toNat < Register.count := by
  have quiet : (panel.update batch).1 = none ↔ batch.filter isStray = [] := by
    rw [fault_update]
    split <;> simp_all
  rw [quiet, List.filter_eq_nil_iff]
  simp [isStray]

/-! ### Whole batches -/

/-- Two batches show what they show as one, and differ only in how many they are. -/
theorem update_append (panel : Panel) (first second : Batch) :
    ((panel.update first).2.update second).2 =
      { (panel.update (first ++ second)).2 with updates := (panel.update first).2.updates + 1 } := by
  simp only [update, List.foldl_append, foldl_counting]

/-- An update is counted once, however many changes its batch has. -/
theorem updates_update (panel : Panel) (batch : Batch) :
    (panel.update batch).2.updates = panel.updates + 1 := by
  rw [update, foldl_counting]

/-- Changes of a kind without a meaning can be left out of a batch. -/
theorem update_filter_meaningful (panel : Panel) (batch : Batch) :
    panel.update (batch.filter isMeaningful) = panel.update batch := by
  -- A change that is reported is about a register, so that the filter drops none of them.
  have strays : (batch.filter isMeaningful).filter isStray = batch.filter isStray := by
    rw [List.filter_filter]
    apply List.filter_congr
    intro change _
    cases kind : change.kind <;> simp [isStray, isMeaningful, kind]
  apply Prod.ext
  · rw [fault_update, fault_update, strays]
  · exact foldl_filter_meaningful batch _

/-- The last change of each place wins, a change without a meaning has no effect, and every register that does not exist
is reported without stopping the changes after it. -/
theorem update_last_wins (panel : Panel) (batch : Batch) :
    (∀ number : Fin 18, (panel.update batch).2.registers.get number =
      (lastValue? batch .register number).getD (panel.registers.get number)) ∧
    (∀ address : Word, (panel.update batch).2.memory[address]? =
      (lastValue? batch .memory address.toNat).or panel.memory[address]?) ∧
    (∀ number : Int, (ChangeKind.ofNumber number = .memory ↔ number = 0) ∧
      (ChangeKind.ofNumber number = .register ↔ number = 1)) ∧
    panel.update (batch.filter isMeaningful) = panel.update batch ∧
    (panel.update batch).2.updates = panel.updates + 1 ∧
    ((panel.update batch).1 = none ↔ ∀ change ∈ batch, change.kind = .register → change.address.toNat < 18) ∧
    (panel.update batch).1 =
      (if batch.filter isStray = [] then none
      else some (.joined ((batch.filter isStray).map fun change => .register change.address))) ∧
    ∀ first second : Batch,
      ((panel.update first).2.update second).2.registers = (panel.update (first ++ second)).2.registers ∧
      ((panel.update first).2.update second).2.memory = (panel.update (first ++ second)).2.memory ∧
      Fault.unknownRegisters (panel.update (first ++ second)).1 =
        Fault.unknownRegisters (panel.update first).1 ++
          Fault.unknownRegisters ((panel.update first).2.update second).1 := by
  refine ⟨registers_get_foldl batch _, memory_foldl batch _, ChangeKind.ofNumber_meaning,
    panel.update_filter_meaningful batch, panel.updates_update batch, panel.fault_update_eq_none batch,
    panel.fault_update batch, ?_⟩
  intro first second
  have together := panel.update_append first second
  refine ⟨by rw [together], by rw [together], ?_⟩
  rw [unknownRegisters_update, unknownRegisters_update, unknownRegisters_update, List.filter_append,
    List.map_append]

end Panel

end StackMachine
