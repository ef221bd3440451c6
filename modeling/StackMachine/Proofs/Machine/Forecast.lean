import StackMachine.Proofs.Machine.Frame

/-! Which word of a program is refused, and for what reason, can be told beforehand from the depth of the stack. -/

namespace StackMachine

/-- A statement about every place in a list speaks of its first element and of every place after that. -/
theorem forall_splits_cons {α : Type} {holds : List α → α → Prop} {first : α} {rest : List α} :
    (∀ before item after, first :: rest = before ++ item :: after → holds before item) ↔
      holds [] first ∧ ∀ before item after, rest = before ++ item :: after → holds (first :: before) item := by
  constructor
  · intro every
    refine ⟨every [] first rest rfl, ?_⟩
    intro before item after split
    exact every (first :: before) item after (by rw [split, List.cons_append])
  · rintro ⟨atFirst, atRest⟩ before item after split
    -- Nothing stands before the first element, and the first element stands before every other one.
    cases before with
    | nil =>
      cases split
      exact atFirst
    | cons head before =>
      rw [List.cons_append, List.cons.injEq] at split
      obtain ⟨rfl, split⟩ := split
      exact atRest before item after split

namespace Code

/-- At this depth the words that an instruction asks for are there, and so is the room. -/
def Fits (code : Code) (depth : Int) : Prop :=
  code.demand.down ≤ depth ∧ depth ≤ 16 - code.demand.up

instance (code : Code) (depth : Int) : Decidable (code.Fits depth) :=
  inferInstanceAs (Decidable (_ ∧ _))

/-- Why an instruction is refused at a depth where it does not fit. -/
def refusal (code : Code) (depth : Int) : StackFault :=
  -- Missing words are reported before missing room.
  if depth < code.demand.down then .underflow else .overflow

/-- How many words more some instructions leave on the stack. -/
def totalGrowth : List Code → Int
  | [] => 0
  | code :: rest => code.growth + totalGrowth rest

/-- Each instruction fits at its turn, when those before it have changed the depth by their growth. -/
def AllFit (depth : Int) (codes : List Code) : Prop :=
  ∀ before code after, codes = before ++ code :: after → code.Fits (depth + totalGrowth before)

/-- Instructions all fit when the first does, and the others do at the depth that it leaves. -/
theorem allFit_cons {depth : Int} {code : Code} {rest : List Code} :
    AllFit depth (code :: rest) ↔ code.Fits depth ∧ AllFit (depth + code.growth) rest := by
  -- The first instruction starts at the depth itself, and its growth goes to the account of all the others.
  simp only [AllFit, forall_splits_cons, totalGrowth, Int.add_zero, Int.add_assoc]

/-- An instruction never takes more words than it asks for. -/
theorem neg_down_le_growth (code : Code) : -(code.demand.down : Int) ≤ code.growth := by
  unfold Code.demand Code.growth
  cases code.instruction? with
  | none => decide
  | some instruction =>
    cases instruction with
    | addressed operation address =>
      show -(operation.demand.down : Int) ≤ operation.growth
      cases operation <;> decide
    | zero operation operand =>
      show -(operation.demand.down : Int) ≤ operation.growth
      cases operation <;> decide

end Code

namespace Machine

/-- The depth alone decides whether an instruction is refused, and for what reason. -/
theorem fault_execute (machine : Machine) (code : Code) :
    (machine.execute code).fault =
      if code.Fits machine.stack.depth then none
      else some (.joined [.opcode code, .stack (code.refusal machine.stack.depth)]) := by
  have limit : Stack.capacity = 16 := rfl
  unfold execute Stack.check
  -- The check has three outcomes, and the reason follows the order of its two comparisons.
  by_cases short : machine.stack.depth < code.demand.down
  · have misfit : ¬ code.Fits machine.stack.depth := fun fits => by
      have enough := fits.1
      omega
    have reason : (machine.stack.depth : Int) < code.demand.down := by omega
    simp only [if_pos short, if_neg misfit, Code.refusal, if_pos reason]
  · have reason : ¬ (machine.stack.depth : Int) < code.demand.down := by omega
    by_cases full : Stack.capacity < machine.stack.depth + code.demand.up
    · have misfit : ¬ code.Fits machine.stack.depth := fun fits => by
        have room := fits.2
        omega
      simp only [if_neg short, if_pos full, if_neg misfit, Code.refusal, if_neg reason]
    · have fits : code.Fits machine.stack.depth := ⟨by omega, by omega⟩
      simp only [if_neg short, if_neg full, if_pos fits]

/-- The depth alone decides how deep the stack is after an instruction, whatever the words on it. -/
theorem depth_execute_fits {machine : Machine} (bounded : machine.stack.depth ≤ Stack.capacity) (code : Code) :
    ((machine.execute code).machine.stack.depth : Int) =
      if code.Fits machine.stack.depth then machine.stack.depth + code.growth else machine.stack.depth := by
  have answered := machine.fault_execute code
  split
  · -- An instruction that fits runs to its end, and the depth cannot fall below zero on the way.
    rename_i fits
    rw [if_pos fits] at answered
    have down := code.neg_down_le_growth
    have enough := fits.1
    rw [depth_execute bounded answered]
    omega
  · -- One that does not fit is refused, which leaves the whole machine alone.
    rename_i misfit
    rw [if_neg misfit] at answered
    rcases execute_cases bounded code with ⟨cause, _, executed⟩ | ⟨_, _, executed⟩
    · rw [executed]
      rfl
    · rw [executed] at answered
      cases answered

end Machine

namespace Bench

/-- The bench after words are executed in order; one that is refused does not keep the next from being tried. -/
def afterCodes (bench : Bench) (codes : List Code) : Bench :=
  codes.foldl (fun bench code => (bench.execute code).2) bench

/-- None of the words is refused when they are executed in order. -/
def Accepts (bench : Bench) (codes : List Code) : Prop :=
  ∀ before code after, codes = before ++ code :: after → ((bench.afterCodes before).execute code).1 = none

/-- Words are accepted when the first is, and the others are on the bench that it leaves. -/
theorem accepts_cons {bench : Bench} {code : Code} {rest : List Code} :
    bench.Accepts (code :: rest) ↔ (bench.execute code).1 = none ∧ (bench.execute code).2.Accepts rest := by
  unfold Accepts
  exact forall_splits_cons

/-- A word that fits moves the depth by its growth. -/
theorem depth_execute_of_fits {bench : Bench} (formed : bench.machine.stack.WellFormed) {code : Code}
    (fits : code.Fits bench.machine.stack.depth) :
    ((bench.execute code).2.machine.stack.depth : Int) = bench.machine.stack.depth + code.growth :=
  (Machine.depth_execute_fits formed.bounded code).trans (if_pos fits)

/-- Words that all fit change the depth by the sum of their growths. -/
theorem depth_afterCodes {bench : Bench} (formed : bench.machine.stack.WellFormed) {codes : List Code}
    (fit : Code.AllFit bench.machine.stack.depth codes) :
    ((bench.afterCodes codes).machine.stack.depth : Int) =
      bench.machine.stack.depth + Code.totalGrowth codes := by
  -- The induction is on the words; the depth after the first is where the others start.
  induction codes generalizing bench with
  | nil => exact (Int.add_zero _).symm
  | cons code rest ih =>
    obtain ⟨fits, restFit⟩ := Code.allFit_cons.mp fit
    have moved := depth_execute_of_fits formed fits
    rw [← moved] at restFit
    have after := ih (Machine.formed_execute formed code) restFit
    rw [moved, Int.add_assoc] at after
    exact after

/-- Words are accepted exactly when each fits at the depth that the growths foretell. -/
theorem accepts_iff_allFit {bench : Bench} (formed : bench.machine.stack.WellFormed) (codes : List Code) :
    bench.Accepts codes ↔ Code.AllFit bench.machine.stack.depth codes := by
  induction codes generalizing bench with
  | nil => simp [Accepts, Code.AllFit]
  | cons code rest ih =>
    rw [accepts_cons, Code.allFit_cons, ih (Machine.formed_execute formed code)]
    -- The first word passes exactly when it fits, and then it has moved the depth by its growth.
    have passes : (bench.execute code).1 = none ↔ code.Fits bench.machine.stack.depth := by
      show (bench.machine.execute code).fault = none ↔ _
      rw [bench.machine.fault_execute code]
      split <;> simp_all
    rw [passes, and_congr_right_iff]
    intro fits
    rw [depth_execute_of_fits formed fits]

/-- Machines of equal depth stay so, whatever else they hold and whichever words are refused. -/
theorem depth_afterCodes_level {bench other : Bench} (formed : bench.machine.stack.WellFormed)
    (otherFormed : other.machine.stack.WellFormed)
    (level : other.machine.stack.depth = bench.machine.stack.depth) (codes : List Code) :
    (other.afterCodes codes).machine.stack.depth = (bench.afterCodes codes).machine.stack.depth := by
  induction codes generalizing bench other with
  | nil => exact level
  | cons code rest ih =>
    -- Both depths after the first word are the same function of the depth before it.
    have next : (other.execute code).2.machine.stack.depth = (bench.execute code).2.machine.stack.depth := by
      have left := Machine.depth_execute_fits formed.bounded code
      have right := Machine.depth_execute_fits otherFormed.bounded code
      rw [level, ← left] at right
      exact Int.ofNat_inj.mp right
    exact ih (Machine.formed_execute formed code) (Machine.formed_execute otherFormed code) next

/--
Refusals by the stack can be told from the depth and the words alone.

All words are accepted exactly when each finds at its turn the depth it needs, with the depth moved by the growths of
the words before it. The first word that does not find it is the first to be refused. Two machines of equal depth,
whatever they hold, refuse the same words for the same reason and stay equally deep.
-/
theorem execute_foretold (bench : Bench) (formed : bench.machine.stack.WellFormed) (codes : List Code) :
    let depth (before : List Code) : Int := bench.machine.stack.depth + Code.totalGrowth before
    (bench.Accepts codes ↔
      ∀ before code after, codes = before ++ code :: after → code.Fits (depth before)) ∧
    (∀ before code after, codes = before ++ code :: after →
      (∀ earlier fitting later, before = earlier ++ fitting :: later → fitting.Fits (depth earlier)) →
      ¬ code.Fits (depth before) →
        bench.Accepts before ∧
          ((bench.afterCodes before).execute code).1 =
            some (.joined [.opcode code,
              .stack (if depth before < code.demand.down then .underflow else .overflow)])) ∧
    ∀ other : Bench, other.machine.stack.WellFormed → other.machine.stack.depth = bench.machine.stack.depth →
      (∀ before after, codes = before ++ after →
        (other.afterCodes before).machine.stack.depth = (bench.afterCodes before).machine.stack.depth) ∧
      ∀ before code after, codes = before ++ code :: after →
        ((other.afterCodes before).execute code).1 = ((bench.afterCodes before).execute code).1 := by
  intro depth
  refine ⟨accepts_iff_allFit formed codes, ?_, ?_⟩
  · intro before code after _ fit misfit
    refine ⟨(accepts_iff_allFit formed before).mpr fit, ?_⟩
    -- The words before have been accepted, so that the depth is the one foretold.
    have reached : ((bench.afterCodes before).machine.stack.depth : Int) = depth before := depth_afterCodes formed fit
    have answered := (bench.afterCodes before).machine.fault_execute code
    rw [reached, if_neg misfit] at answered
    exact answered
  · intro other otherFormed level
    have stay := depth_afterCodes_level formed otherFormed level
    refine ⟨fun before _ _ => stay before, ?_⟩
    intro before code after _
    show ((other.afterCodes before).machine.execute code).fault = ((bench.afterCodes before).machine.execute code).fault
    rw [Machine.fault_execute, Machine.fault_execute, stay before]

/-- A sum of a word with itself leaves too little for a second sum, on whatever single word the program starts. -/
theorem execute_foretold_single :
    let bench : Bench := ⟨Machine.initial.withStack (Stack.empty.pushUnchecked 7), .idle⟩
    let other : Bench :=
      ⟨{ Machine.initial with pc := 9, flags := .carry, stack := Stack.empty.pushUnchecked 0xFFFF }, .idle⟩
    bench.machine.stack.WellFormed ∧ other.machine.stack.WellFormed ∧
      bench.Accepts [⟨0x1500⟩, ⟨0x2000⟩] ∧
      ((bench.afterCodes [⟨0x1500⟩, ⟨0x2000⟩]).execute ⟨0x2000⟩).1 =
        some (.joined [.opcode ⟨0x2000⟩, .stack .underflow]) ∧
      ((other.afterCodes [⟨0x1500⟩, ⟨0x2000⟩]).execute ⟨0x2000⟩).1 =
        some (.joined [.opcode ⟨0x2000⟩, .stack .underflow]) := by
  intro bench other
  have formed : bench.machine.stack.WellFormed := Stack.WellFormed.empty.pushUnchecked (by decide) 7
  have otherFormed : other.machine.stack.WellFormed := Stack.WellFormed.empty.pushUnchecked (by decide) 0xFFFF
  obtain ⟨_, first, level⟩ := execute_foretold bench formed [⟨0x1500⟩, ⟨0x2000⟩, ⟨0x2000⟩]
  -- Doubling fits on one word and the sum on two, but the second sum meets a single word again.
  have fit : Code.AllFit 1 [⟨0x1500⟩, ⟨0x2000⟩] := by
    simp only [Code.allFit_cons]
    exact ⟨by decide, by decide, fun before code after split => by simp at split⟩
  obtain ⟨accepted, refused⟩ := first [⟨0x1500⟩, ⟨0x2000⟩] ⟨0x2000⟩ [] rfl fit (by decide)
  have same := (level other otherFormed rfl).2 [⟨0x1500⟩, ⟨0x2000⟩] ⟨0x2000⟩ [] rfl
  exact ⟨formed, otherFormed, accepted, refused, same.trans refused⟩

end Bench

end StackMachine
