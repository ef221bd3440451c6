import Mathlib.Data.List.Induction
import StackMachine.Proofs.Bench
import StackMachine.Proofs.Machine.Simulation

/-! The flags are a function of the past: of the last comparison, and of the sums and differences after it. -/

namespace StackMachine

/-- Something that concerns the flags. -/
inductive FlagEvent where
  /-- The machine was reset. -/
  | cleared
  /-- The word on top was compared with zero. -/
  | compared (top : Word)
  /-- A sum or a difference was formed whose exact result is this. -/
  | computed (result : Int)
  deriving DecidableEq

namespace FlagEvent

/-- What an operation means for the flags, by its number and the words on the stack, the top one first. -/
def ofOperation? (number : Nat) (words : List Word) : Option FlagEvent :=
  match number, words with
  | 0x01, top :: _ => some (compared top)
  | 0x20, top :: next :: _ => some (computed (top.toNat + next.toNat))
  | 0x21, top :: next :: _ => some (computed (next.toNat - top.toNat))
  | _, _ => none

/-- The flags after an event. -/
def apply (flags : Flags) : FlagEvent → Flags
  | cleared => .none
  | compared top => .ofSign (signedValue top)
  | computed result => if result < 0 ∨ 65535 < result then flags.union .carry else flags

/-- Comparisons, sums and differences are the only operations that concern the flags. -/
theorem ofOperation?_eq_none {number : Nat} (words : List Word) (compare : number ≠ 0x01) (add : number ≠ 0x20)
    (sub : number ≠ 0x21) : ofOperation? number words = none := by
  unfold ofOperation?
  split
  · exact absurd rfl compare
  · exact absurd rfl add
  · exact absurd rfl sub
  · rfl

/-- The event is in a history, and since then there were only sums and differences. -/
def Lasts (history : List FlagEvent) (event : FlagEvent) : Prop :=
  ∃ earlier later, history = earlier ++ event :: later ∧ ∀ newer ∈ later, ∃ result, newer = computed result

/-- Nothing lasts from a history in which nothing happened. -/
theorem not_lasts_nil (event : FlagEvent) : ¬ Lasts [] event := by
  rintro ⟨earlier, later, split, _⟩
  simp at split

/-- The newest event lasts, and unless it is a sum or a difference no other event does. -/
theorem lasts_append_singleton {past : List FlagEvent} {newest event : FlagEvent} :
    Lasts (past ++ [newest]) event ↔
      event = newest ∨ Lasts past event ∧ ∃ result, newest = computed result := by
  constructor
  · rintro ⟨earlier, later, split, computed⟩
    -- Either nothing comes after the event, or what comes last after it is the newest event.
    rcases List.eq_nil_or_concat later with rfl | ⟨between, last, rfl⟩
    · have same := (List.append_inj' split rfl).2
      exact .inl (List.singleton_inj.mp same).symm
    · have split : past ++ [newest] = (earlier ++ event :: between) ++ [last] := by simpa using split
      obtain ⟨pastSplit, same⟩ := List.append_inj' split rfl
      obtain rfl := List.singleton_inj.mp same
      refine .inr ⟨⟨earlier, between, pastSplit, ?_⟩, computed newest (by simp)⟩
      intro newer listed
      exact computed newer (by simp [listed])
  · rintro (rfl | ⟨⟨earlier, later, rfl, computed⟩, result, rfl⟩)
    · exact ⟨past, [], rfl, by simp⟩
    · refine ⟨earlier, later ++ [.computed result], by simp, ?_⟩
      intro newer listed
      rcases List.mem_append.mp listed with old | new
      · exact computed newer old
      · exact ⟨result, List.mem_singleton.mp new⟩

end FlagEvent

namespace Flags

/-- The carry flag is set once it has been added. -/
theorem has_carry_union (flags : Flags) : (flags.union carry).has carry = true := by
  have absorbed : (flags.bits ||| carry.bits) &&& carry.bits = carry.bits := by
    apply UInt8.toBitVec_inj.1
    ext index inside
    rw [UInt8.toBitVec_and, UInt8.toBitVec_or, BitVec.getElem_and, BitVec.getElem_or]
    cases flags.bits.toBitVec[index] <;> simp
  simp [has, union, absorbed]

/-- The flags of a comparison do not include the carry flag. -/
theorem has_carry_ofSign (number : Int) : (ofSign number).has carry = false := by
  unfold ofSign
  split
  · decide
  · split <;> decide

/-- Exactly the flag that fits the sign of a number is set. -/
theorem has_ofSign (number : Int) :
    ((ofSign number).has zero ↔ number = 0) ∧ ((ofSign number).has greater ↔ 0 < number) ∧
      ((ofSign number).has less ↔ number < 0) := by
  unfold ofSign
  rcases Int.lt_trichotomy number 0 with below | rfl | above
  · have nonzero : number ≠ 0 := by omega
    have notAbove : ¬ 0 < number := by omega
    rw [if_neg nonzero, if_neg notAbove]
    simp only [nonzero, notAbove, below]
    decide
  · decide
  · have nonzero : number ≠ 0 := by omega
    have notBelow : ¬ number < 0 := by omega
    rw [if_neg nonzero, if_pos above]
    simp only [nonzero, notBelow, above]
    decide

end Flags

namespace Contents

/-- A row of an operation that carries no address changes the flags as its event says. -/
theorem flags_zeroRow {number operand : Nat} {before after : Contents}
    (defined : before.zeroRow number operand = some after) :
    after.flags = (FlagEvent.ofOperation? number before.words).toList.foldl FlagEvent.apply before.flags := by
  obtain ⟨flags, words, memory⟩ := before
  unfold zeroRow at defined
  split at defined
  -- A comparison.
  case h_2 =>
    rcases words with _ | ⟨top, rest⟩
    · cases defined
    · cases defined
      exact signFlag_eq top
  -- A sum, which is never below zero.
  case h_10 =>
    rcases words with _ | ⟨top, _ | ⟨below, rest⟩⟩
    · cases defined
    · cases defined
    · cases defined
      have outside : ((top.toNat + below.toNat : Int) < 0 ∨ 65535 < (top.toNat + below.toNat : Int)) ↔
          0xFFFF < below.toNat + top.toNat := by omega
      simp only [FlagEvent.ofOperation?, FlagEvent.apply, outside, Option.toList_some, List.foldl_cons,
        List.foldl_nil]
  -- A difference, which is never above a word.
  case h_11 =>
    rcases words with _ | ⟨top, _ | ⟨below, rest⟩⟩
    · cases defined
    · cases defined
    · cases defined
      have small := below.toNat_lt
      have outside : ((below.toNat - top.toNat : Int) < 0 ∨ 65535 < (below.toNat - top.toNat : Int)) ↔
          (below.toNat - top.toNat : Int) < 0 := by omega
      simp only [FlagEvent.ofOperation?, FlagEvent.apply, outside, Option.toList_some, List.foldl_cons,
        List.foldl_nil]
  -- A number without a row of its own is none of these three.
  case h_14 _ compare _ _ _ _ _ _ _ add sub _ _ =>
    rw [FlagEvent.ofOperation?_eq_none words compare add sub]
    cases defined
    rfl
  -- Every other row hands the flags on and has no event.
  all_goals rcases words with _ | ⟨top, _ | ⟨below, rest⟩⟩ <;> cases defined <;> rfl

/-- A row of an operation that carries an address leaves the flags alone. -/
theorem flags_addressRow {number address : Nat} {before after : Contents}
    (defined : before.addressRow number address = some after) : after.flags = before.flags := by
  obtain ⟨flags, words, memory⟩ := before
  unfold addressRow at defined
  split at defined
  · cases defined
    rfl
  · rcases words with _ | ⟨top, rest⟩ <;> cases defined
    rfl
  · cases defined
    rfl

/-- The row of a word changes the flags as its event says, and leaves them alone if it has none. -/
theorem flags_row {word : Word} {before after : Contents} (defined : before.row word = some after) :
    after.flags =
      (FlagEvent.ofOperation? (word.toNat / 256) before.words).toList.foldl FlagEvent.apply before.flags := by
  unfold row at defined
  split at defined
  · exact flags_zeroRow defined
  · -- A word that carries an address is too large for the number of an operation with an event.
    rw [FlagEvent.ofOperation?_eq_none _ (by omega) (by omega) (by omega)]
    exact flags_addressRow defined

end Contents

namespace Machine

/-- What an instruction means for the flags; nothing, if it is refused. -/
def flagEvents (machine : Machine) (code : Code) : List FlagEvent :=
  match (machine.execute code).fault with
  | none => (FlagEvent.ofOperation? (code.word.toNat / 256) machine.stack.live.reverse).toList
  | some _ => []

/-- An instruction changes the flags by its events and in no other way. -/
theorem flags_execute {machine : Machine} (bounded : machine.stack.depth ≤ Stack.capacity) (code : Code) :
    (machine.execute code).machine.flags = (machine.flagEvents code).foldl FlagEvent.apply machine.flags := by
  unfold flagEvents
  rcases execute_cases bounded code with ⟨cause, _, executed⟩ | ⟨final, reaches, executed⟩
  · -- A refused instruction changes nothing and has no event.
    rw [executed]
    rfl
  · -- The actions ran to their end, so the row of the word is defined and does the same.
    have length : machine.contents.words.length ≤ Stack.capacity := by
      rw [length_contents bounded]
      exact bounded
    have rowed := Contents.row_eq code machine.contents length
    rw [code.micro.runListed_run machine bounded reaches] at rowed
    obtain ⟨after, defined, fits⟩ := Option.bind_eq_some_iff.mp rowed
    have same : after = (code.micro.run machine).1.contents := by
      unfold Contents.fitted at fits
      split at fits
      · exact Option.some.inj fits
      · cases fits
    rw [executed]
    have changed := Contents.flags_row defined
    rw [same] at changed
    exact changed

end Machine

/-- What an operation of a machine means for the flags. -/
def Operation.flagEvents (machine : Machine) : Operation → List FlagEvent
  | step => machine.flagEvents machine.fetch
  | execute code => machine.flagEvents code
  | reset => [.cleared]
  | setWord _ _ => []
  | load _ => []

namespace Bench

/-- What an action means for the flags. -/
def flagEvents (bench : Bench) : Action → List FlagEvent
  | .operate operation => operation.flagEvents bench.machine
  | .subscribe _ => []
  | .setVerbose _ => []

/-- What actions in order mean for the flags, the oldest event first. -/
def flagHistory (bench : Bench) : List Action → List FlagEvent
  | [] => []
  | action :: rest => bench.flagEvents action ++ (bench.act action).flagHistory rest

/-- Writing a word leaves the flags alone, whether it is refused or not. -/
theorem flags_setWord (address word : Word) (bench : Bench) :
    (bench.setWord address word).2.machine.flags = bench.machine.flags := by
  simp only [setWord, perform, Machine.setWord]
  split <;> rfl

/-- An action changes the flags by its events and in no other way. -/
theorem flags_act {bench : Bench} (bounded : bench.machine.stack.depth ≤ Stack.capacity) (action : Action) :
    (bench.act action).machine.flags = (bench.flagEvents action).foldl FlagEvent.apply bench.machine.flags := by
  cases action with
  | operate operation =>
    cases operation with
    | step => exact Machine.flags_execute bounded bench.machine.fetch
    | execute code => exact Machine.flags_execute bounded code
    | reset => rfl
    | setWord address word => exact flags_setWord address word bench
    | load image =>
      refine @Image.load_keeps Bench (·.machine.flags = bench.machine.flags) _ ?_ image bench rfl
      intro address word state same
      exact (flags_setWord address word state).trans same
  | subscribe subscriber => rfl
  | setVerbose verbose => rfl

/-- The flags are those from before with the whole history applied to them. -/
theorem flags_actAll (actions : List Action) : ∀ {bench : Bench}, bench.machine.Sound →
    (bench.actAll actions).machine.flags =
      (bench.flagHistory actions).foldl FlagEvent.apply bench.machine.flags := by
  induction actions with
  | nil =>
    intro bench _
    rfl
  | cons action rest ih =>
    intro bench sound
    -- The rest of the history starts from the flags that the first action leaves.
    have later := ih (act_sound sound action)
    rw [flags_act sound.formed.bounded action] at later
    rw [flagHistory, List.foldl_append]
    exact later

end Bench

namespace FlagEvent

/-- The carry is set by the sums and differences that last and do not fit a word. -/
theorem has_carry_foldl (history : List FlagEvent) :
    (history.foldl apply .none).has .carry ↔
      ∃ result, Lasts history (computed result) ∧ (result < 0 ∨ 65535 < result) := by
  -- The induction takes off the newest event, since an event is ended by what comes after it.
  induction history using List.reverseRecOn with
  | nil =>
    constructor
    · intro set
      cases set
    · rintro ⟨result, lasts, _⟩
      exact absurd lasts (not_lasts_nil _)
  | append_singleton past newest ih =>
    rw [List.foldl_append]
    simp only [List.foldl_cons, List.foldl_nil, lasts_append_singleton]
    cases newest with
    -- A reset and a comparison clear the carry, and nothing from before them lasts.
    | cleared => simp [apply, show Flags.none.has .carry = false from rfl]
    | compared top => simp [apply, Flags.has_carry_ofSign]
    | computed newer =>
      by_cases outside : newer < 0 ∨ 65535 < newer
      · have set := Flags.has_carry_union (past.foldl apply .none)
        simp only [apply, if_pos outside, set, true_iff]
        exact ⟨newer, .inl rfl, outside⟩
      · -- A result that fits a word adds nothing to what lasted already.
        rw [apply, if_neg outside, ih]
        constructor
        · rintro ⟨result, lasts, lost⟩
          exact ⟨result, .inr ⟨lasts, newer, rfl⟩, lost⟩
        · rintro ⟨result, same | ⟨lasts, _⟩, lost⟩
          · cases same
            exact absurd lost outside
          · exact ⟨result, lasts, lost⟩

/-- A flag other than the carry is as the comparison that lasts has set it, and is not set if there is none. -/
theorem has_foldl (mask : Flags) (apart : Flags.carry.bits &&& mask.bits = 0)
    (unset : Flags.none.has mask = false) (history : List FlagEvent) :
    (∀ top, Lasts history (compared top) →
      (history.foldl apply .none).has mask = (Flags.ofSign (signedValue top)).has mask) ∧
    ((∀ top, ¬ Lasts history (compared top)) → (history.foldl apply .none).has mask = false) := by
  induction history using List.reverseRecOn with
  | nil => exact ⟨fun top lasts => absurd lasts (not_lasts_nil _), fun _ => unset⟩
  | append_singleton past newest ih =>
    rw [List.foldl_append]
    simp only [List.foldl_cons, List.foldl_nil, lasts_append_singleton]
    cases newest with
    | cleared => simp [apply, unset]
    | compared newer => simp [apply]
    | computed result =>
      -- A sum or a difference changes the carry only, and lets the comparison last.
      have kept : (apply (past.foldl apply .none) (computed result)).has mask = (past.foldl apply .none).has mask := by
        generalize past.foldl apply .none = flags
        simp only [apply]
        split
        · exact Flags.has_union_carry apart flags
        · rfl
      rw [kept]
      simpa using ih

end FlagEvent

namespace Bench

/--
After any actions on a fresh bench the flags are determined by what happened since the last reset.

The carry is set if a sum or a difference since the last reset and the last comparison did not fit a word. The other
flags say how the word on top compared with zero at the last comparison since the reset, and are not set without one.
An instruction that is refused counts for none of these.
-/
theorem flags_determined (actions : List Action) :
    let flags := (Bench.initial.actAll actions).machine.flags
    let history := Bench.initial.flagHistory actions
    (flags.has .carry ↔ ∃ result, FlagEvent.Lasts history (.computed result) ∧ (result < 0 ∨ 65535 < result)) ∧
    (∀ top, FlagEvent.Lasts history (.compared top) →
      (flags.has .zero ↔ signedValue top = 0) ∧ (flags.has .greater ↔ 0 < signedValue top) ∧
        (flags.has .less ↔ signedValue top < 0)) ∧
    ((∀ top, ¬ FlagEvent.Lasts history (.compared top)) →
      flags.has .zero = false ∧ flags.has .greater = false ∧ flags.has .less = false) := by
  intro flags history
  -- Of the machine only the fold over its history is left to look at.
  have folded : flags = history.foldl FlagEvent.apply .none := flags_actAll actions .initial
  have zero := FlagEvent.has_foldl .zero (by decide) (by decide) history
  have greater := FlagEvent.has_foldl .greater (by decide) (by decide) history
  have less := FlagEvent.has_foldl .less (by decide) (by decide) history
  rw [← folded] at zero greater less
  refine ⟨?_, ?_, ?_⟩
  · rw [folded]
    exact FlagEvent.has_carry_foldl history
  · intro top lasts
    rw [zero.1 top lasts, greater.1 top lasts, less.1 top lasts]
    exact Flags.has_ofSign (signedValue top)
  · intro never
    exact ⟨zero.2 never, greater.2 never, less.2 never⟩

/-- A borrow leaves the flag of the comparison before it, and a comparison that is refused counts for nothing. -/
theorem flags_determined_borrow :
    let codes : List Code := [⟨0x1005⟩, ⟨0x0100⟩, ⟨0x1006⟩, ⟨0x2100⟩, ⟨0x1400⟩, ⟨0x0100⟩]
    let actions := codes.map (Action.operate ∘ .execute)
    let flags := (Bench.initial.actAll actions).machine.flags
    Bench.initial.flagHistory actions = [.compared 5, .computed (-1)] ∧
      flags.has .carry ∧ flags.has .greater := by
  intro codes actions flags
  have history : Bench.initial.flagHistory actions = [.compared 5, .computed (-1)] := by decide +kernel
  obtain ⟨carry, sign, _⟩ := flags_determined actions
  rw [history] at carry sign
  have compared : FlagEvent.Lasts [.compared 5, .computed (-1)] (.compared 5) :=
    ⟨[], [.computed (-1)], rfl, by simp⟩
  refine ⟨history, carry.mpr ⟨-1, ⟨[.compared 5], [], rfl, by simp⟩, by decide⟩, ?_⟩
  exact (sign 5 compared).2.1.mpr (by decide)

end Bench

end StackMachine
