import StackMachine.Proofs.Machine.Simulation
import StackMachine.Proofs.Session.Run

/-! Steps of a bench up to the first fault, which are the run of a session and the beginning of any number of steps. -/

namespace StackMachine

namespace Watch

/-- An entry in the log leaves the log as verbose as it was. -/
theorem verbose_note (watch : Watch) (entry : LogEntry) : (watch.note entry).verbose = watch.verbose := by
  unfold note
  split
  · rfl
  · rfl

/-- Whatever a subscriber makes of a batch leaves the log as verbose as it was. -/
theorem verbose_noteVerdict (watch : Watch) (verdict : Verdict) :
    (watch.noteVerdict verdict).verbose = watch.verbose := by
  cases verdict with
  | accepted => rfl
  | failed message => exact watch.verbose_note _
  | crashed message => exact watch.verbose_note _

/-- An event leaves the log as verbose as it was. -/
theorem verbose_observe (watch : Watch) (event : Event) : (watch.observe event).verbose = watch.verbose := by
  cases event with
  | log entry => exact watch.verbose_note entry
  | changes batch =>
    simp only [observe, announce]
    split
    · rfl
    · rw [verbose_noteVerdict]
    · rw [verbose_noteVerdict]

/-- Events leave the log as verbose as it was. -/
theorem verbose_observeAll (watch : Watch) (events : List Event) :
    (watch.observeAll events).verbose = watch.verbose := by
  induction events generalizing watch with
  | nil => rfl
  | cons event rest ih => exact (ih _).trans (watch.verbose_observe event)

end Watch

/-- An instruction that is refused leaves the machine as it was. -/
theorem Machine.execute_of_fault {machine : Machine} {code : Code} {fault : Fault}
    (refused : (machine.execute code).fault = some fault) : (machine.execute code).machine = machine := by
  cases checked : machine.stack.check code.demand with
  | error cause => simp only [execute, checked]
  | ok passed => simp [execute, checked] at refused

namespace Bench

/-- A step leaves the log as verbose as it was. -/
theorem verbose_step (bench : Bench) : bench.step.2.watch.verbose = bench.watch.verbose :=
  bench.watch.verbose_observeAll _

/-- A step that is refused leaves the machine as it was. -/
theorem machine_step_of_fault {bench : Bench} {fault : Fault} (refused : bench.step.1 = some fault) :
    bench.step.2.machine = bench.machine :=
  Machine.execute_of_fault refused

/-- The first step is made, and the others follow unless it is refused. -/
theorem stepsFrom_succ (ran limit : Nat) (bench : Bench) :
    bench.stepsFrom ran (limit + 1) =
      match bench.step.1 with
      | none => bench.step.2.stepsFrom (ran + 1) limit
      | some fault => ((ran, some fault), bench.step.2) := by
  rw [stepsFrom]
  obtain ⟨_ | fault, next⟩ := bench.step
  · rfl
  · rfl

/-- What was counted before is added to the count, and changes nothing else. -/
theorem stepsFrom_eq_steps (ran limit : Nat) (bench : Bench) :
    bench.stepsFrom ran limit = ((ran + (bench.steps limit).1.1, (bench.steps limit).1.2), (bench.steps limit).2) := by
  unfold steps
  -- Both counts move on together, whatever they start from.
  induction limit generalizing ran bench with
  | zero => rfl
  | succ limit ih =>
    rw [stepsFrom_succ, stepsFrom_succ]
    cases bench.step.1 with
    | some fault => rfl
    | none =>
      dsimp only
      rw [ih (ran + 1), ih (0 + 1), ← Nat.add_assoc]

/-- A step that succeeds is counted before the steps that follow it. -/
theorem steps_succ (limit : Nat) (bench : Bench) :
    bench.steps (limit + 1) =
      match bench.step.1 with
      | none =>
        let ((ran, fault), final) := bench.step.2.steps limit
        ((ran + 1, fault), final)
      | some fault => ((0, some fault), bench.step.2) := by
  rw [steps, stepsFrom_succ]
  cases bench.step.1 with
  | some fault => rfl
  | none =>
    dsimp only
    rw [stepsFrom_eq_steps, Nat.zero_add, Nat.add_comm]

/--
Steps up to a limit begin like any number of steps, and end at the limit or at the first that is refused.

The number that comes back counts the steps before that one.
-/
theorem steps_eq_afterSteps (limit : Nat) (bench : Bench) :
    let ((ran, fault), final) := bench.steps limit
    (∀ number < ran, (bench.afterSteps number).step.1 = none) ∧
      (ran = limit ∧ fault = none ∧ final = bench.afterSteps limit ∨
        ran < limit ∧ fault.isSome ∧ (fault, final) = (bench.afterSteps ran).step) := by
  induction limit generalizing bench with
  | zero => exact ⟨fun number before => absurd before (Nat.not_lt_zero _), .inl ⟨rfl, rfl, rfl⟩⟩
  | succ limit ih =>
    rw [steps_succ]
    cases stepped : bench.step.1 with
    | some fault =>
      -- No step succeeds before the one that is refused at once.
      refine ⟨fun number before => absurd before (Nat.not_lt_zero _), .inr ⟨Nat.succ_pos _, rfl, ?_⟩⟩
      exact Prod.ext stepped.symm rfl
    | none =>
      -- The first step succeeds, and the others are steps of the bench after it.
      obtain ⟨succeed, ended⟩ := ih bench.step.2
      refine ⟨?_, ?_⟩
      · intro number before
        cases number with
        | zero => exact stepped
        | succ number => exact succeed number (Nat.lt_of_succ_lt_succ before)
      · rcases ended with ⟨all, passed, final⟩ | ⟨fewer, refused, final⟩
        · exact .inl ⟨congrArg (· + 1) all, passed, final⟩
        · exact .inr ⟨Nat.succ_lt_succ fewer, refused, final⟩

end Bench

namespace Session

/-- A bench that is as verbose as its session is prepared already. -/
theorem preparedBench_eq {bench : Bench} {verbose : Bool} (ready : bench.watch.verbose = verbose) (image : Image)
    (ticks : Nat) : preparedBench ⟨bench, image, ticks, verbose⟩ = bench := by
  rw [← ready]
  rfl

/--
A run of a session is made of the steps of its bench.

It fails at the program counter that the bench has stopped at, it leaves that bench to the next run, and it adds the
steps that succeeded to the count.
-/
theorem run_eq_steps (limit : Nat) (session : Session) :
    let ((ran, fault), final) := session.preparedBench.steps limit
    (session.run limit).1 = fault.map (fun fault => .runtime final.machine.pc (some fault)) ∧
      (session.run limit).2.preparedBench = final ∧ (session.run limit).2.ticks = session.ticks + ran := by
  induction limit generalizing session with
  | zero => exact ⟨rfl, rfl, rfl⟩
  | succ limit ih =>
    have ready : session.preparedBench.step.2.watch.verbose = session.verbose := session.preparedBench.verbose_step
    have answered : session.preparedBench.step.1 = session.bench.machine.step.fault := rfl
    rw [Bench.steps_succ, run_succ, session.tick_eq, answered]
    cases faulted : session.bench.machine.step.fault with
    | none =>
      -- The next tick prepares the bench again, which is as verbose as it should be.
      have next := ih ⟨session.preparedBench.step.2, session.image, session.ticks + 1, session.verbose⟩
      rw [preparedBench_eq ready] at next
      obtain ⟨fault, final, ticks⟩ := next
      exact ⟨fault, final, ticks.trans (Nat.add_right_comm _ _ _)⟩
    | some fault =>
      -- The step that is refused leaves the program counter where it was.
      have stopped := Bench.machine_step_of_fault (answered.trans faulted)
      refine ⟨?_, preparedBench_eq ready _ _, rfl⟩
      show some (Fault.runtime _ (some fault)) = some (.runtime session.preparedBench.step.2.machine.pc (some fault))
      rw [stopped]
      rfl

end Session

end StackMachine
