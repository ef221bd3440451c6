import Mathlib.Data.List.Basic
import StackMachine.Proofs.Panel.Update

/-!
Showing a batch in one loop, which joins each fault to those before it.

The faults are nested as deep as there are stray changes, and yet say and involve what the flat join of them does.
-/

namespace StackMachine

/-- A list that comes last is set off from those before it. -/
theorem intercalate_concat {α : Type} (separator last : List α) {earlier : List (List α)} (others : earlier ≠ []) :
    separator.intercalate (earlier ++ [last]) = separator.intercalate earlier ++ separator ++ last := by
  induction earlier with
  | nil => exact absurd rfl others
  | cons first rest ih =>
    cases rest with
    | nil => simp
    | cons second rest =>
      have later := ih (List.cons_ne_nil second rest)
      rw [List.cons_append] at later
      rw [List.cons_append, List.cons_append, List.intercalate_cons_cons, later, List.intercalate_cons_cons]
      simp only [List.append_assoc]

namespace Fault

/-- Whether a fault is several faults at once, and by itself none of them. -/
def isJoined : Fault → Bool
  | joined _ => true
  | _ => false

/-- The faults inside a fault, without those that only hold others together. -/
def singles (fault : Option Fault) : List Fault :=
  (causeParts fault).filter (!·.isJoined)

/-- A joined fault by itself counts as no other. -/
theorem countsAs_of_isJoined {fault : Fault} (holds : fault.isJoined) (target : Fault) :
    fault.countsAs target = false := by
  cases fault with
  | joined causes => cases target <;> rfl
  | _ => cases holds

/-- What a fault involves is decided by its single faults. -/
theorem any_singles (fault target : Fault) :
    (singles (some fault)).any (·.countsAs target) = fault.involves target := by
  -- What is left out counts as nothing.
  rw [singles, involves, causeParts, List.any_filter]
  congr 1
  funext part
  cases holds : part.isJoined with
  | false => simp
  | true => simp [countsAs_of_isJoined holds]

/-- The registers that a fault names are named by its single faults. -/
theorem filterMap_singles (fault : Option Fault) : (singles fault).filterMap register? = unknownRegisters fault := by
  rw [singles, unknownRegisters, List.filterMap_filter]
  congr 1
  funext part
  cases part <;> rfl

/-- What a fault says of registers that do not exist, one to a line. -/
def registerLines (numbers : List Word) : Bytes :=
  List.intercalate [Bytes.newline] (numbers.map fun number => (register number).message)

/-- A register that is named last is named on a line of its own. -/
theorem registerLines_concat {numbers : List Word} (others : numbers ≠ []) (number : Word) :
    registerLines (numbers ++ [number]) =
      registerLines numbers ++ [Bytes.newline] ++ (register number).message := by
  unfold registerLines
  rw [List.map_append, List.map_singleton]
  exact intercalate_concat _ _ (mt List.map_eq_nil_iff.mp others)

/-- The messages of a list are those of its faults. -/
theorem messages_eq_map (faults : List Fault) : messages faults = faults.map message := by
  induction faults with
  | nil => rfl
  | cons fault rest ih => rw [messages, ih, List.map_cons]

/-- A fault says of some registers, in order, that they do not exist, and says nothing else. -/
structure Names (fault : Option Fault) (numbers : List Word) : Prop where
  message : fault.map message = if numbers = [] then none else some (registerLines numbers)
  singles : singles fault = numbers.map .register

namespace Names

/-- No fault names no register. -/
theorem none : Names none [] := ⟨rfl, rfl⟩

/-- A fault is missing exactly when it names no register. -/
theorem eq_none_iff {fault : Option Fault} {numbers : List Word} (names : Names fault numbers) :
    fault = .none ↔ numbers = [] := by
  have said : fault.map Fault.message = .none ↔ numbers = [] := by
    rw [names.message]
    simp
  rw [← said, Option.map_eq_none_iff]

/-- The registers that a fault names are those found in it. -/
theorem unknownRegisters_eq {fault : Option Fault} {numbers : List Word} (names : Names fault numbers) :
    unknownRegisters fault = numbers := by
  rw [← filterMap_singles, names.singles, List.filterMap_map]
  exact List.filterMap_some

/-- A register that is joined to a fault is named after the others. -/
theorem join {fault : Option Fault} {numbers : List Word} (names : Names fault numbers) (number : Word) :
    Names (Fault.join [fault, some (.register number)]) (numbers ++ [number]) where
  message := by
    rw [if_neg (List.append_ne_nil_of_right_ne_nil _ (List.cons_ne_nil _ _))]
    cases fault with
    | none =>
      rw [names.eq_none_iff.mp rfl]
      rfl
    | some fault =>
      have others : numbers ≠ [] := by
        intro empty
        cases names.eq_none_iff.mpr empty
      -- The message of the fault so far is all the lines before the last one.
      have said := names.message
      rw [if_neg others, Option.map_some, Option.some_inj] at said
      rw [registerLines_concat others, ← said]
      show some (List.intercalate [Bytes.newline] [fault.message, (register number).message]) = _
      rw [List.intercalate_cons_cons, List.intercalate_singleton]
  singles := by
    rw [List.map_append, ← names.singles]
    cases fault with
    | none => rfl
    | some fault =>
      -- The join around both is itself no single fault.
      show List.filter _ (fault.parts ++ [.register number]) = List.filter _ fault.parts ++ [.register number]
      rw [List.filter_append]
      rfl

/-- A flat join of registers names them. -/
theorem joined {numbers : List Word} (named : numbers ≠ []) :
    Names (some (.joined (numbers.map .register))) numbers where
  message := by
    rw [if_neg named, Option.map_some, Fault.message, messages_eq_map, List.map_map]
    rfl
  singles := by
    show List.filter _ (allParts (numbers.map .register)) = numbers.map .register
    rw [allParts_registers, List.filter_eq_self]
    simp [isJoined]

variable {left right : Option Fault} {numbers : List Word}

/-- Faults that name the same registers have the same message. -/
theorem message_eq (leftNames : Names left numbers) (rightNames : Names right numbers) :
    left.map Fault.message = right.map Fault.message := by
  rw [leftNames.message, rightNames.message]

/-- Faults that name the same registers involve the same faults. -/
theorem optionInvolves_eq (leftNames : Names left numbers) (rightNames : Names right numbers)
    (target : Option Fault) : optionInvolves left target = optionInvolves right target := by
  have missing := leftNames.eq_none_iff.trans rightNames.eq_none_iff.symm
  cases left with
  | none =>
    rw [missing.mp rfl]
  | some left =>
    cases right with
    | none => cases missing.mpr rfl
    | some right =>
      cases target with
      | none => rfl
      | some target =>
        show left.involves target = right.involves target
        rw [← any_singles, ← any_singles, leftNames.singles, rightNames.singles]

end Names

end Fault

namespace Panel

open Change

/-- One round of the loop: a change is shown, or its fault is joined to those before it. -/
def round (state : Option Fault × Panel) (change : Change) : Option Fault × Panel :=
  let (fault, panel) := state
  match change.kind with
  | .register =>
    if inside : change.address.toNat < 18 then
      (fault, { panel with registers := panel.registers.set change.address.toNat change.value inside })
    else (Fault.join [fault, some (.register change.address)], panel)
  | .memory => (fault, { panel with memory := panel.memory.insert change.address change.value })
  | .other _ => (fault, panel)

/-- Counts a batch and shows its changes, in a single loop. -/
def loop (panel : Panel) (batch : Batch) : Option Fault × Panel :=
  batch.foldl round (none, { panel with updates := panel.updates + 1 })

/-- A round shows its change. -/
theorem panel_round (fault : Option Fault) (panel : Panel) (change : Change) :
    (round (fault, panel) change).2 = panel.apply change := by
  obtain ⟨kind, address, value⟩ := change
  cases kind with
  | memory => rfl
  | other _ => rfl
  | register =>
    unfold round apply
    dsimp only
    -- A register that does not exist is left out by either.
    by_cases inside : address.toNat < 18
    · have same : panel.registers.set address.toNat value inside =
          panel.registers.setIfInBounds address.toNat value := by
        apply Vector.ext
        intro slot bound
        rw [Vector.getElem_set, Vector.getElem_setIfInBounds]
      rw [dif_pos inside, same]
    · rw [dif_neg inside, Vector.setIfInBounds_eq_of_size_le (Nat.not_lt.mp inside)]

/-- A round joins the fault of a stray change, and otherwise leaves the fault as it is. -/
theorem fault_round (fault : Option Fault) (panel : Panel) (change : Change) :
    (round (fault, panel) change).1 =
      if change.isStray then Fault.join [fault, some (.register change.address)] else fault := by
  obtain ⟨kind, address, value⟩ := change
  cases kind with
  | memory => rfl
  | other _ => rfl
  | register =>
    unfold round isStray
    dsimp only
    by_cases inside : address.toNat < 18
    · rw [dif_pos inside]
      simp [Register.count, Nat.not_le.mpr inside]
    · rw [dif_neg inside]
      simp [Register.count, Nat.not_lt.mp inside]

/-- After some changes of the loop the fault names their stray registers behind those that it named before. -/
theorem foldl_round (batch : Batch) (fault : Option Fault) (panel : Panel) {numbers : List Word}
    (names : Fault.Names fault numbers) :
    (batch.foldl round (fault, panel)).2 = batch.foldl apply panel ∧
      Fault.Names (batch.foldl round (fault, panel)).1 (numbers ++ (batch.filter isStray).map (·.address)) := by
  -- The fault and what it names are free, because each stray change moves them.
  induction batch generalizing fault panel numbers with
  | nil => exact ⟨rfl, by simpa using names⟩
  | cons change rest ih =>
    have shown := panel_round fault panel change
    have joined := fault_round fault panel change
    rw [List.foldl_cons, List.foldl_cons, ← shown]
    generalize round (fault, panel) change = next at shown joined ⊢
    obtain ⟨nextFault, nextPanel⟩ := next
    by_cases stray : change.isStray
    · rw [if_pos stray] at joined
      have first := names.join change.address
      rw [← joined] at first
      have later := ih nextFault nextPanel first
      rw [List.append_assoc] at later
      rw [List.filter_cons_of_pos stray, List.map_cons]
      exact later
    · rw [if_neg stray] at joined
      rw [← joined] at names
      rw [List.filter_cons_of_neg stray]
      exact ih nextFault nextPanel names

/-- The fault of an update names the stray registers of the batch. -/
theorem names_update (panel : Panel) (batch : Batch) :
    Fault.Names (panel.update batch).1 ((batch.filter isStray).map (·.address)) := by
  rw [fault_update]
  split
  case isTrue quiet =>
    rw [quiet]
    exact .none
  case isFalse stray =>
    have named : (batch.filter isStray).map (·.address) ≠ [] := mt List.map_eq_nil_iff.mp stray
    have names := Fault.Names.joined named
    rw [List.map_map] at names
    exact names

/--
The loop shows what the update shows, and reports the same.

Its fault is there exactly when that of the update is. It has the same message, names the same registers in the same
order, and involves the same faults.
-/
theorem loop_agrees (panel : Panel) (batch : Batch) :
    (panel.loop batch).2 = (panel.update batch).2 ∧
      ((panel.loop batch).1 = none ↔ (panel.update batch).1 = none) ∧
      (panel.loop batch).1.map Fault.message = (panel.update batch).1.map Fault.message ∧
      Fault.unknownRegisters (panel.loop batch).1 = Fault.unknownRegisters (panel.update batch).1 ∧
      ∀ target,
        Fault.optionInvolves (panel.loop batch).1 target = Fault.optionInvolves (panel.update batch).1 target := by
  obtain ⟨shown, looped⟩ := foldl_round batch none { panel with updates := panel.updates + 1 } .none
  have updated := panel.names_update batch
  rw [List.nil_append] at looped
  exact ⟨shown, looped.eq_none_iff.trans updated.eq_none_iff.symm, looped.message_eq updated,
    looped.unknownRegisters_eq.trans updated.unknownRegisters_eq.symm, looped.optionInvolves_eq updated⟩

end Panel

end StackMachine
