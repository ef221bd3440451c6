import StackMachine.Proofs.Machine.ListMachine
import StackMachine.Proofs.Session

/-! Runs of a session can be made in parts, and a run that has stopped at a fault stays where it is. -/

namespace StackMachine.Session

/-- What a session holds and shows, its log left aside. -/
structure View where
  machine : Machine
  panel : Panel
  ticks : Nat

/-- What a session holds and shows now. -/
def view (session : Session) : View :=
  ⟨session.bench.machine, session.bench.watch.panel, session.ticks⟩

/-- The fault that an action returns, if it returns one. -/
def fault? (session : Session) : Action → Option Fault
  | .reset => session.reset.1
  | .tick => session.tick.1
  | .run limit => (session.run limit.toNat).1
  | .operate operation => (operation.perform session.bench).1
  | .insert _ | .setVerbose _ => none

/-- What each of some actions returns, with the view after it. -/
def transcript (session : Session) : List Action → List (Option Fault × View)
  | [] => []
  | action :: rest =>
    (session.fault? action, (session.act action).view) :: (session.act action).transcript rest

/-- Goes on with a run, unless it has stopped at a fault. -/
def resume (limit : Nat) : Option Fault × Session → Option Fault × Session
  | (none, session) => session.run limit
  | (some fault, stopped) => (some fault, stopped)

/-- The session after a number of ticks; one that fails does not keep the next from being tried. -/
def afterTicks : Nat → Session → Session
  | 0, session => session
  | more + 1, session => afterTicks more session.tick.2

/-- How many ticks of a run succeed. -/
def successes : Nat → Session → Nat
  | 0, _ => 0
  | limit + 1, session =>
    match session.tick with
    | (none, ticked) => successes limit ticked + 1
    | (some _, _) => 0

/-- A run makes its first tick and then goes on, unless that tick failed. -/
theorem run_succ (limit : Nat) (session : Session) : session.run (limit + 1) = resume limit session.tick := by
  rw [run]
  split
  · rename_i ticked done
    rw [done, resume]
  · rename_i fault stopped done
    rw [done, resume]

/-- A run can be made in two parts, of which the second is not begun after a fault. -/
theorem run_add (first second : Nat) (session : Session) :
    session.run (first + second) = resume second (session.run first) := by
  -- The induction is on the first part, with the session free because each tick moves it.
  induction first generalizing session with
  | zero => rw [Nat.zero_add, run, resume]
  | succ first ih =>
    rw [Nat.add_right_comm, run_succ, run_succ]
    cases session.tick with
    | mk fault ticked =>
      cases fault with
      | none => exact ih ticked
      | some fault => rfl

/-- The last of some ticks is made from where the ticks before it ended. -/
theorem afterTicks_succ (count : Nat) (session : Session) :
    session.afterTicks (count + 1) = (session.afterTicks count).tick.2 := by
  induction count generalizing session with
  | zero => rfl
  | succ count ih => exact ih session.tick.2

/-- A tick answers with the machine's fault and the program counter it arose at, and counts only successes. -/
theorem tick_eq (session : Session) :
    session.tick =
      (session.bench.machine.step.fault.map fun fault => .runtime session.bench.machine.pc (some fault),
        ⟨session.preparedBench.step.2, session.image,
          if session.bench.machine.step.fault.isNone then session.ticks + 1 else session.ticks,
          session.verbose⟩) := by
  -- The step of the bench answers as the machine does, whatever the verbosity of the log.
  have stepped : session.preparedBench.step = (session.bench.machine.step.fault, session.preparedBench.step.2) := rfl
  obtain ⟨bench, image, ticks, verbose⟩ := session
  simp only [preparedBench] at stepped ⊢
  simp only [tick]
  cases faulted : bench.machine.step.fault with
  | none =>
    rw [faulted] at stepped
    rw [stepped]
    rfl
  | some fault =>
    rw [faulted] at stepped
    rw [stepped]
    rfl

/--
A tick fails because of the stack and changes nothing to be seen, or it executes the next instruction.

Either way the word in question is the one that the program counter points at before the tick.
-/
theorem tick_cases {session : Session} (formed : session.bench.machine.stack.WellFormed) :
    let machine := session.bench.machine
    (∃ cause,
      session.tick.1 = some (.runtime machine.pc (some (.joined [.opcode machine.fetch, .stack cause]))) ∧
        session.tick.2.view = session.view) ∨
    (session.tick.1 = none ∧ session.tick.2.ticks = session.ticks + 1 ∧
      session.tick.2.bench = (session.preparedBench.execute machine.fetch).2 ∧
      session.tick.2.bench.machine.pc = machine.pc + 1) := by
  intro machine
  have ticked := session.tick_eq
  have step : session.bench.machine.step = machine.execute machine.fetch := rfl
  rcases Machine.execute_cases formed.bounded machine.fetch with ⟨cause, _, executed⟩ | ⟨_, _, executed⟩
  · -- A refused instruction announces nothing but its trace entry, which the panel does not show.
    refine .inl ⟨cause, ?_, ?_⟩
    · rw [ticked, step, executed]
      rfl
    · have stopped : session.preparedBench.step.2 =
          ⟨machine, session.preparedBench.watch.note (.executing machine.pc machine.fetch)⟩ := by
        show Bench.mk (machine.execute machine.fetch).machine
          (session.preparedBench.watch.observeAll (machine.execute machine.fetch).events) = _
        rw [executed]
        rfl
      rw [ticked, step, executed, stopped]
      simp only [view, Watch.panel_note]
      rfl
  · -- An instruction that runs to its end leaves the next program counter behind.
    have passed : (machine.execute machine.fetch).fault = none := by
      rw [executed]
      rfl
    refine .inr ⟨?_, ?_, ?_, ?_⟩
    · rw [ticked, step, passed]
      rfl
    · rw [ticked, step, passed]
      rfl
    · rw [ticked]
      rfl
    · rw [ticked]
      show (machine.execute machine.fetch).machine.pc = machine.pc + 1
      rw [executed]
      rfl

/-- A tick that fails names the instruction it has stopped at, and changes nothing to be seen. -/
theorem tick_failed {session : Session} (formed : session.bench.machine.stack.WellFormed) {fault : Fault}
    (failed : session.tick.1 = some fault) :
    let machine := session.bench.machine
    (∃ cause, fault = .runtime machine.pc (some (.joined [.opcode machine.fetch, .stack cause]))) ∧
      session.tick.2.view = session.view := by
  rcases tick_cases formed with ⟨cause, answered, stays⟩ | ⟨passed, _⟩
  · rw [answered] at failed
    exact ⟨⟨cause, (Option.some.inj failed).symm⟩, stays⟩
  · rw [passed] at failed
    cases failed

/-- A tick leaves the stack well formed. -/
theorem formed_tick {session : Session} (formed : session.bench.machine.stack.WellFormed) :
    session.tick.2.bench.machine.stack.WellFormed := by
  rw [session.tick_eq]
  exact Machine.formed_execute formed session.bench.machine.fetch

/-- Any number of ticks leave the stack well formed. -/
theorem formed_afterTicks {session : Session} (formed : session.bench.machine.stack.WellFormed) (count : Nat) :
    (session.afterTicks count).bench.machine.stack.WellFormed := by
  induction count generalizing session with
  | zero => exact formed
  | succ count ih => exact ih (formed_tick formed)

/-- Ticks that all succeed are counted, and each moves the program counter on by one. -/
theorem afterTicks_counters {session : Session} (formed : session.bench.machine.stack.WellFormed) {count : Nat}
    (succeed : ∀ number < count, (session.afterTicks number).tick.1 = none) :
    (session.afterTicks count).ticks = session.ticks + count ∧
      (session.afterTicks count).bench.machine.pc.toNat = (session.bench.machine.pc.toNat + count) % 65536 := by
  induction count with
  | zero =>
    have small : session.bench.machine.pc.toNat < 65536 := session.bench.machine.pc.toNat_lt
    exact ⟨rfl, (Nat.mod_eq_of_lt small).symm⟩
  | succ count ih =>
    obtain ⟨ticks, pc⟩ := ih fun number before => succeed number (by omega)
    -- The last tick starts from where the ticks before it ended.
    have last := succeed count (Nat.lt_succ_self count)
    rw [afterTicks_succ]
    rcases tick_cases (formed_afterTicks formed count) with ⟨cause, failed, _⟩ | ⟨_, counted, _, moved⟩
    · rw [failed] at last
      cases last
    · refine ⟨by rw [counted, ticks]; omega, ?_⟩
      rw [moved, UInt16.toNat_add, pc]
      show ((session.bench.machine.pc.toNat + count) % 65536 + 1) % 65536 = _
      omega

/-- A run is its successful ticks, and then either the limit is reached or the next tick fails. -/
theorem run_eq_afterTicks (limit : Nat) (session : Session) :
    (∀ number < session.successes limit, (session.afterTicks number).tick.1 = none) ∧
      ((session.successes limit = limit ∧ session.run limit = (none, session.afterTicks limit)) ∨
        (session.successes limit < limit ∧ session.run limit = (session.afterTicks (session.successes limit)).tick ∧
          (session.run limit).1.isSome)) := by
  induction limit generalizing session with
  | zero => exact ⟨fun number before => absurd before (Nat.not_lt_zero _), .inl ⟨rfl, rfl⟩⟩
  | succ limit ih =>
    cases ticked : session.tick with
    | mk fault next =>
      have first : session.tick.2 = next := by rw [ticked]
      cases fault with
      | some fault =>
        -- No tick succeeds before the one that fails at once.
        have none : session.successes (limit + 1) = 0 := by rw [successes, ticked]
        have stopped : session.run (limit + 1) = session.tick := by rw [run_succ, ticked, resume]
        rw [none]
        refine ⟨fun number before => absurd before (Nat.not_lt_zero _), .inr ⟨Nat.succ_pos _, stopped, ?_⟩⟩
        rw [stopped, ticked]
        rfl
      | none =>
        -- The first tick succeeds, and the rest of the run is a run from the session after it.
        have more : session.successes (limit + 1) = next.successes limit + 1 := by rw [successes, ticked]
        have rest : session.run (limit + 1) = next.run limit := by rw [run_succ, ticked, resume]
        obtain ⟨succeed, ended⟩ := ih next
        rw [more, rest]
        refine ⟨?_, ?_⟩
        · intro number before
          cases number with
          | zero => rw [afterTicks, ticked]
          | succ number =>
            rw [afterTicks, first]
            exact succeed number (by omega)
        · simp only [afterTicks, first]
          rcases ended with ⟨all, final⟩ | ⟨fewer, final, failed⟩
          · exact .inl ⟨by rw [all], final⟩
          · exact .inr ⟨by omega, final, failed⟩

/-- Whether an action tries to go on: a tick, or a run that makes at least one. -/
def Action.GoesOn : Action → Prop
  | .tick => True
  | .run limit => 0 < limit
  | .reset | .operate _ | .insert _ | .setVerbose _ => False

/-- The answer of a tick depends on nothing but the machine. -/
theorem tick_fault_congr {left right : Session} (same : right.bench.machine = left.bench.machine) :
    right.tick.1 = left.tick.1 := by
  rw [left.tick_eq, right.tick_eq, same]

/-- Where the next tick fails, whatever tries to go on is that tick. -/
theorem act_stuck {session : Session} {fault : Fault} (failed : session.tick.1 = some fault) {action : Action}
    (goesOn : action.GoesOn) : session.fault? action = some fault ∧ session.act action = session.tick.2 := by
  cases action with
  | tick => exact ⟨failed, rfl⟩
  | run limit =>
    -- A positive limit allows for a first tick, and the run stops there.
    obtain ⟨more, positive⟩ : ∃ more, limit.toNat = more + 1 := by
      have positive : 0 < limit := goesOn
      exact ⟨limit.toNat - 1, by omega⟩
    have stopped : session.run limit.toNat = session.tick := by
      rw [positive, run_succ]
      cases ticked : session.tick with
      | mk answer next =>
        rw [ticked] at failed
        obtain rfl : answer = some fault := failed
        rfl
    simp only [fault?, act, stopped, failed, and_self]
  | reset | operate operation | insert image | setVerbose verbose => exact goesOn.elim

/-- Where the next tick fails, every attempt to go on fails in the same way and changes nothing to be seen. -/
theorem transcript_stuck {session : Session} (formed : session.bench.machine.stack.WellFormed) {fault : Fault}
    (failed : session.tick.1 = some fault) (actions : List Action) (goOn : ∀ action ∈ actions, action.GoesOn) :
    session.transcript actions = actions.map fun _ => (some fault, session.view) := by
  induction actions generalizing session with
  | nil => rfl
  | cons action rest ih =>
    obtain ⟨goesOn, restGoOn⟩ := List.forall_mem_cons.mp goOn
    obtain ⟨answered, acted⟩ := act_stuck failed goesOn
    -- The failed tick leaves the machine alone, so that the next attempt meets the same fault.
    have stays : session.tick.2.view = session.view := (tick_failed formed failed).2
    have machine : session.tick.2.bench.machine = session.bench.machine := congrArg View.machine stays
    have again : session.tick.2.tick.1 = some fault := (tick_fault_congr machine).trans failed
    have later := ih (formed_tick formed) again restGoOn
    rw [transcript, answered, acted, later, stays]
    rfl

/-- A run ends in the state after its successful ticks, because a tick that fails changes nothing to be seen. -/
theorem view_run {session : Session} (formed : session.bench.machine.stack.WellFormed) (limit : Nat) :
    (session.run limit).2.view = (session.afterTicks (session.successes limit)).view := by
  rcases (session.run_eq_afterTicks limit).2 with ⟨all, ended⟩ | ⟨_, ended, failed⟩
  · rw [ended, all]
  · rw [ended] at failed ⊢
    obtain ⟨fault, failed⟩ := Option.isSome_iff_exists.mp failed
    exact (tick_failed (formed_afterTicks formed _) failed).2

/-- A counter of sixteen bits points at the word that the same count without a limit points at. -/
theorem fetch_eq_read {machine : Machine} {place : Nat} (counted : machine.pc.toNat = place % 65536) :
    machine.fetch = ⟨machine.memory.read (.ofNumber place)⟩ := by
  -- The counter is cut to twelve bits, and those are the same before and after it wraps round.
  have same : Address.ofWord machine.pc = .ofNumber place := by
    apply Fin.ext
    show machine.pc.toNat % 4096 = place % 4096
    omega
  rw [Machine.fetch, same]

/-- A run that fails stops short of its limit, where the next tick fails with the same fault. -/
theorem run_failed {session : Session} (formed : session.bench.machine.stack.WellFormed) {limit : Nat} {fault : Fault}
    (failed : (session.run limit).1 = some fault) :
    let final := (session.run limit).2
    session.successes limit < limit ∧ final.tick.1 = some fault ∧ final.bench.machine.stack.WellFormed ∧
      ∃ cause, fault =
        .runtime final.bench.machine.pc (some (.joined [.opcode final.bench.machine.fetch, .stack cause])) := by
  intro final
  have machine : final.bench.machine = (session.afterTicks (session.successes limit)).bench.machine :=
    congrArg View.machine (view_run formed limit)
  have formedLast := formed_afterTicks formed (session.successes limit)
  rcases (session.run_eq_afterTicks limit).2 with ⟨_, ended⟩ | ⟨fewer, ended, _⟩
  · rw [ended] at failed
    cases failed
  · rw [ended] at failed
    refine ⟨fewer, (tick_fault_congr machine).trans failed, machine ▸ formedLast, ?_⟩
    rw [machine]
    exact (tick_failed formedLast failed).1

/--
Runs compose, and faults are stable.

A run can be made in parts. It counts its successful ticks, each of which moves the program counter on by one and
executes the word at the program counter at that moment. A run that fails does so before its limit, and names the
program counter and the instruction it has stopped at. From there every attempt to go on fails with the same fault and
changes nothing that can be seen.
-/
theorem run_composes (session : Session) (formed : session.bench.machine.stack.WellFormed) :
    (∀ first second, session.run (first + second) = resume second (session.run first)) ∧
    ∀ limit : Int,
      let start := session.bench.machine.pc.toNat
      let count := session.successes limit.toNat
      let final := (session.run limit.toNat).2
      final.ticks = session.ticks + count ∧
      final.bench.machine.pc.toNat = (start + count) % 65536 ∧
      final.view = (session.afterTicks count).view ∧
      (∀ number < count,
        let moment := session.afterTicks number
        let word := moment.bench.machine.memory.read (.ofNumber (start + number))
        moment.tick.1 = none ∧ moment.tick.2.bench = (moment.preparedBench.execute ⟨word⟩).2) ∧
      ((session.run limit.toNat).1 = none → count = limit.toNat) ∧
      ∀ fault, (session.run limit.toNat).1 = some fault →
        count < limit ∧
        (∃ cause, fault =
          .runtime final.bench.machine.pc (some (.joined [.opcode final.bench.machine.fetch, .stack cause]))) ∧
        ∀ actions : List Action, (∀ action ∈ actions, action.GoesOn) →
          final.transcript actions = actions.map fun _ => (some fault, final.view) := by
  refine ⟨fun first second => session.run_add first second, ?_⟩
  intro limit start count final
  obtain ⟨succeed, ended⟩ := session.run_eq_afterTicks limit.toNat
  have last : final.view = (session.afterTicks count).view := view_run formed limit.toNat
  obtain ⟨ticks, pc⟩ := afterTicks_counters formed succeed
  refine ⟨(congrArg View.ticks last).trans ticks, ?_, last, ?_, ?_, ?_⟩
  · rw [show final.bench.machine = _ from congrArg View.machine last]
    exact pc
  · intro number before moment word
    -- The ticks before this one have all succeeded, so that the counter has moved on by their number.
    obtain ⟨_, counted⟩ := afterTicks_counters formed fun earlier sooner => succeed earlier (Nat.lt_trans sooner before)
    have fetched : moment.bench.machine.fetch = ⟨word⟩ := fetch_eq_read counted
    refine ⟨succeed number before, ?_⟩
    rw [moment.tick_eq, ← fetched]
    rfl
  · intro passed
    rcases ended with ⟨all, _⟩ | ⟨_, _, failed⟩
    · exact all
    · rw [passed] at failed
      cases failed
  · intro fault failed
    obtain ⟨fewer, stuck, formedFinal, named⟩ := run_failed formed failed
    exact ⟨by omega, named, transcript_stuck formedFinal stuck⟩

/-- A program that pushes two words and adds up twice stops at the second sum, and cannot be moved from there. -/
theorem run_composes_stopping :
    let memory := (((Memory.zero.write 0 0x1003).write 1 0x1004).write 2 0x2000).write 3 0x2000
    let session : Session := { initial with bench := { initial.bench with machine := { Machine.initial with memory } } }
    let final := (session.run 9).2
    session.bench.machine.stack.WellFormed ∧
      ∃ cause,
        let fault : Fault := .runtime final.bench.machine.pc (some (.joined [.opcode ⟨0x2000⟩, .stack cause]))
        (session.run 9).1 = some fault ∧ final.ticks = 3 ∧ final.bench.machine.pc.toNat = 3 ∧
          final.transcript [.tick, .run 5, .tick] = List.replicate 3 (some fault, final.view) := by
  intro memory session final
  have formed : session.bench.machine.stack.WellFormed := .empty
  obtain ⟨ticks, pc, _, _, _, stopped⟩ := (run_composes session formed).2 9
  have count : session.successes (Int.toNat 9) = 3 := by decide +kernel
  have fetched : final.bench.machine.fetch = ⟨0x2000⟩ := by decide +kernel
  obtain ⟨fault, failed⟩ : ∃ fault, (session.run 9).1 = some fault := Option.isSome_iff_exists.mp (by decide +kernel)
  obtain ⟨_, ⟨cause, rfl⟩, stuck⟩ := stopped fault failed
  have goOn : ∀ action ∈ [Action.tick, .run 5, .tick], action.GoesOn := by simp [Action.GoesOn]
  refine ⟨formed, cause, ?_⟩
  rw [← fetched]
  exact ⟨failed, ticks.trans (by rw [count]; rfl), pc.trans (by rw [count]; rfl), stuck _ goOn⟩

end StackMachine.Session
