import StackMachine.Proofs.Machine.Depth

/-! What every operation keeps true of a machine: the form of its stack, its status and its flags. -/

namespace StackMachine

namespace Flags

/-- Only the bits with a meaning are set, and at most one of those that say how a word compares with zero. -/
structure Consistent (flags : Flags) : Prop where
  bounded : flags.bits < 16
  single : ([zero, greater, less].filter flags.has).length ≤ 1

/-- No flags are consistent flags. -/
theorem Consistent.none : Flags.none.Consistent :=
  ⟨by decide, by decide⟩

/-- The flags of a sign are consistent, whatever was set before. -/
theorem Consistent.ofSign (number : Int) : (Flags.ofSign number).Consistent := by
  unfold Flags.ofSign
  split
  · exact ⟨by decide, by decide⟩
  · split
    · exact ⟨by decide, by decide⟩
    · exact ⟨by decide, by decide⟩

/-- Setting the carry does not touch a flag that shares no bit with it. -/
theorem has_union_carry {mask : Flags} (apart : carry.bits &&& mask.bits = 0) (flags : Flags) :
    (flags.union carry).has mask = flags.has mask := by
  -- The mask distributes over the union, and leaves nothing of the carry.
  have spread : (flags.bits ||| carry.bits) &&& mask.bits =
      (flags.bits &&& mask.bits) ||| (carry.bits &&& mask.bits) :=
    UInt8.toBitVec_inj.1 BitVec.and_or_distrib_right
  have same : (flags.bits ||| carry.bits) &&& mask.bits = flags.bits &&& mask.bits := by
    rw [spread, apart, UInt8.or_zero]
  simp only [has, union, same]

/-- Setting the carry leaves flags consistent. -/
theorem Consistent.union_carry {flags : Flags} (consistent : flags.Consistent) :
    (flags.union carry).Consistent where
  bounded := by
    have small : flags.bits.toNat < 2 ^ 4 := consistent.bounded
    have carrySmall : carry.bits.toNat < 2 ^ 4 := by decide
    have both : (flags.bits ||| carry.bits).toNat < 2 ^ 4 := by
      rw [UInt8.toNat_or]
      exact Nat.or_lt_two_pow small carrySmall
    exact both
  single := by
    -- The carry is none of the three flags that are counted.
    have same : [zero, greater, less].filter (flags.union carry).has =
        [zero, greater, less].filter flags.has := by
      apply List.filter_congr
      intro mask listed
      apply has_union_carry
      revert mask
      decide
    rw [same]
    exact consistent.single

/-- Setting the carry or not leaves flags consistent. -/
theorem Consistent.carryIf {flags : Flags} (consistent : flags.Consistent) (lost : Bool) :
    (flags.carryIf lost).Consistent := by
  unfold Flags.carryIf
  split
  · exact consistent.union_carry
  · exact consistent

end Flags

/-- Every change of the flags among some actions leaves consistent flags consistent. -/
def Micro.KeepsFlags : Micro → Prop
  | done => True
  | push _ next => next.KeepsFlags
  | pop next => ∀ word, (next word).KeepsFlags
  | top next => ∀ word, (next word).KeepsFlags
  | second next => ∀ word, (next word).KeepsFlags
  | read _ next => ∀ word, (next word).KeepsFlags
  | write _ _ next => next.KeepsFlags
  | flag change next => (∀ flags, flags.Consistent → (change flags).Consistent) ∧ next.KeepsFlags
  | report _ next => next.KeepsFlags
  | unknown _ next => next.KeepsFlags

/-- Actions that keep the flags consistent one by one keep them so as a whole. -/
theorem Micro.KeepsFlags.run {micro : Micro} (keeps : micro.KeepsFlags) (machine : Machine)
    (consistent : machine.flags.Consistent) : (micro.run machine).1.flags.Consistent := by
  -- Only a change of the flags has to be looked at; every other action hands them on.
  induction micro generalizing machine with
  | done => exact consistent
  | push word next ih => exact ih keeps (machine.withStack _) consistent
  | pop next ih => exact ih _ (keeps _) (machine.withStack _) consistent
  | top next ih => exact ih _ (keeps _) machine consistent
  | second next ih => exact ih _ (keeps _) machine consistent
  | read address next ih => exact ih _ (keeps _) machine consistent
  | write address word next ih => exact ih keeps (machine.withWord address word) consistent
  | flag change next ih =>
    exact ih keeps.2 { machine with flags := change machine.flags } (keeps.1 _ consistent)
  | report word next ih => exact ih keeps machine consistent
  | unknown code next ih => exact ih keeps machine consistent

/-- No word has an action that spoils the flags. -/
theorem Code.micro_keepsFlags (code : Code) : code.micro.KeepsFlags := by
  unfold Code.micro
  cases code.instruction? with
  | none => trivial
  | some instruction =>
    cases instruction with
    | addressed operation address => cases operation <;> simp [Instruction.micro, AddressOp.micro, Micro.KeepsFlags]
    | zero operation operand =>
      -- Only a comparison replaces the flags, and only a sum or a difference adds to them.
      cases operation with
      | compare => exact fun _ => ⟨fun _ _ => .ofSign _, trivial⟩
      | add => exact fun _ _ => ⟨fun _ consistent => consistent.carryIf _, trivial⟩
      | sub => exact fun _ _ => ⟨fun _ consistent => consistent.carryIf _, trivial⟩
      | _ => simp [Instruction.micro, ZeroOp.micro, Micro.KeepsFlags]

/-- What holds of every machine that its operations can reach. -/
structure Machine.Sound (machine : Machine) : Prop where
  formed : machine.stack.WellFormed
  status : machine.status = 0
  flags : machine.flags.Consistent

namespace Machine.Sound

/-- A machine is sound when it is switched on. -/
theorem initial : Machine.initial.Sound :=
  ⟨.empty, rfl, .none⟩

/-- An instruction leaves a machine sound, whether it is refused or runs to its end. -/
theorem execute {machine : Machine} (sound : machine.Sound) (code : Code) :
    (machine.execute code).machine.Sound := by
  -- A refused instruction changes nothing, and the actions of any other keep each part on its own.
  rcases execute_cases sound.formed.bounded code with ⟨cause, _, executed⟩ | ⟨final, reaches, executed⟩
  · rw [executed, refused]
    exact sound
  · rw [executed, completed]
    exact ⟨code.micro.run_formed machine sound.formed reaches,
      (code.micro.status_run machine).trans sound.status,
      code.micro_keepsFlags.run machine sound.flags⟩

/-- A reset makes every machine sound. -/
theorem reset (machine : Machine) : machine.reset.machine.Sound :=
  ⟨.empty, rfl, .none⟩

/-- Writing a word leaves a machine sound. -/
theorem setWord {machine : Machine} (sound : machine.Sound) (address word : Word) :
    (machine.setWord address word).machine.Sound := by
  unfold Machine.setWord
  split
  · exact ⟨sound.formed, sound.status, sound.flags⟩
  · exact sound

end Machine.Sound

end StackMachine
