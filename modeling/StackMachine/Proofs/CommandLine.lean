import StackMachine.CommandLine.Program
import StackMachine.Proofs.Session.Reset

/-! The command runs an image as a session does, and prints the panels of the ticks that succeed and the last state. -/

namespace StackMachine

namespace Session

/-- A fresh session that is given an image. -/
def holding (image : Image) (verbose : Bool) : Session :=
  { Session.initial with image, verbose }

/-- The panels after the first tick of a run, the second and so on up to a number of them, one behind the other. -/
def panelTexts (session : Session) (count : Nat) : String :=
  String.join ((List.range count).map fun number => (session.run (number + 1)).2.bench.watch.panel.text)

/-- The panels of a run are the one after its first tick and the panels of the run that goes on from there. -/
theorem panelTexts_succ {session ticked : Session} (passed : session.tick = (none, ticked)) (count : Nat) :
    session.panelTexts (count + 1) = ticked.bench.watch.panel.text ++ ticked.panelTexts count := by
  -- Every run of the session makes this tick first.
  have onward (number : Nat) : session.run (number + 1) = ticked.run number := by rw [run_succ, passed, resume]
  simp only [panelTexts, List.range_succ_eq_map, List.map_cons, List.map_map, String.join_cons, onward]
  rfl

/-- As many ticks succeed for twins. -/
theorem Twins.successes {left right : Session} (twins : left.Twins right) (limit : Nat) :
    left.successes limit = right.successes limit := by
  induction limit generalizing left right with
  | zero => rfl
  | succ limit ih =>
    obtain ⟨answers, ticked⟩ := twins.tick
    rw [Session.successes, Session.successes]
    -- Both first ticks succeed or both fail.
    generalize left.tick = leftTick at answers ticked ⊢
    generalize right.tick = rightTick at answers ticked ⊢
    obtain ⟨fault, leftNext⟩ := leftTick
    obtain ⟨otherFault, rightNext⟩ := rightTick
    obtain rfl : fault = otherFault := answers
    cases fault with
    | none => exact congrArg (· + 1) (ih ticked)
    | some fault => rfl

/-- Runs of twins show the same panels. -/
theorem Twins.panelTexts {left right : Session} (twins : left.Twins right) (count : Nat) :
    left.panelTexts count = right.panelTexts count := by
  simp only [Session.panelTexts, (twins.run _).2.bench.watch.panel]

end Session

namespace CommandLine

open Session

/-- Where the image comes from: standard input for a dash, and otherwise the file of that name. -/
def imageOpening (options : Options) (host : Host) : Opening :=
  if options.image = "-" then .opened host.stdin else host.openFile options.image

/-- The loop of the command is a run, and it prints the panel after every tick that succeeds. -/
theorem tickFrom_eq (showPanel : Bool) (limit : Nat) (session : Session) (printed : String) :
    tickFrom showPanel limit session printed =
      (session.run limit, printed ++ if showPanel then session.panelTexts (session.successes limit) else "") := by
  -- The induction is on the limit, from whatever session and with whatever is printed already.
  induction limit generalizing session printed with
  | zero => cases showPanel <;> simp [tickFrom, Session.run, Session.successes, Session.panelTexts]
  | succ limit ih =>
    cases ticked : session.tick with
    | mk fault next =>
      cases fault with
      | some fault =>
        -- The loop stops here as the run does, and nothing more is printed.
        cases showPanel <;> simp [tickFrom, run_succ, ticked, resume, Session.successes, Session.panelTexts]
      | none =>
        have onward : session.run (limit + 1) = next.run limit := by rw [run_succ, ticked, resume]
        have more : session.successes (limit + 1) = next.successes limit + 1 := by rw [Session.successes, ticked]
        simp only [tickFrom, ticked, ih, onward, more, panelTexts_succ ticked]
        cases showPanel with
        | false => simp only [Bool.false_eq_true, if_false]
        | true => simp only [if_true, String.append_assoc]

/-- An image that can be opened is read from its source, and a fault in it becomes a message. -/
theorem readImage_opened {options : Options} {host : Host} {source : Source}
    (opened : imageOpening options host = .opened source) :
    let reading := (⟨options.origin.toUInt16, []⟩ : Image).read source
    (reading.1.2 = none → readImage options host = .ok reading.2) ∧
      (reading.1.2.isSome → ∃ message, readImage options host = .error message) := by
  intro reading
  -- The name in front of a message tells standard input from a file, and the source is the same.
  have named : ∃ name, (if options.image = "-" then ("stdin", Opening.opened host.stdin)
      else (options.image, host.openFile options.image)) = (name, .opened source) := by
    unfold imageOpening at opened
    split at opened
    · rename_i dash
      exact ⟨_, by rw [if_pos dash, opened]⟩
    · rename_i file
      exact ⟨_, by rw [if_neg file, opened]⟩
  obtain ⟨name, named⟩ := named
  have result : (⟨options.origin.toUInt16, []⟩ : Image).read source = reading := rfl
  simp only [readImage, named, result]
  obtain ⟨⟨bytes, _ | fault⟩, image⟩ := reading
  · exact ⟨fun _ => rfl, nofun⟩
  · exact ⟨nofun, fun _ => ⟨_, rfl⟩⟩

/-- What the execution of an image leaves behind, told by a session that resets and runs. -/
theorem execute_agrees (options : Options) (image : Image) (verbose : Bool) :
    let loaded := (Session.holding image verbose).reset
    let ran := loaded.2.run options.steps.toNat
    ((execute options image).exit = 0 ↔ loaded.1 = none ∧ ran.1 = none) ∧
      (loaded.1.isSome → (execute options image).stdout = "") ∧
      (loaded.1 = none → (execute options image).stdout =
        (if options.showPanel then loaded.2.panelTexts (loaded.2.successes options.steps.toNat) else "") ++
          ran.2.bench.machine.text) := by
  intro loaded ran
  -- The session of the command may differ from this one in its verbosity, which no result depends on.
  obtain ⟨faults, twins⟩ : ({ Session.initial with image, verbose := options.verbose } : Session).reset.1 = loaded.1 ∧
      ({ Session.initial with image, verbose := options.verbose } : Session).reset.2.Twins loaded.2 :=
    reset_twins rfl rfl rfl fun _ _ => rfl
  unfold execute
  generalize ({ Session.initial with image, verbose := options.verbose } : Session).reset = reset at faults twins ⊢
  obtain ⟨fault, session⟩ := reset
  obtain rfl : fault = loaded.1 := faults
  cases failed : loaded.1 with
  | some fault =>
    -- The load has failed, and the command ends with nothing printed.
    simp [fatal]
  | none =>
    obtain ⟨answers, final⟩ := twins.run options.steps.toNat
    simp only [tickFrom_eq, twins.panelTexts, twins.successes, answers, final.bench.machine, String.empty_append]
    cases stopped : (loaded.2.run options.steps.toNat).1 with
    | none => simp [ran]
    | some fault => simp [ran, fatal]

/--
The command agrees with a session that reads, resets and runs.

It exits with zero exactly if none of the three fails. If reading or resetting fails, nothing is printed. Otherwise the
panels of all ticks that succeed are printed if that is asked for, and then the state in which the run has ended,
whether it was completed or stopped at a fault.
-/
theorem run_agrees_session (arguments : List String) (host : Host) (options : Options) (source : Source)
    (parsed : Options.standard.read arguments = .ok (options, [])) (inside : options.origin ≤ 0xFFF)
    (executes : options.list = false) (opened : imageOpening options host = .opened source) (verbose : Bool) :
    let outcome := run arguments host
    let reading := (⟨options.origin.toUInt16, []⟩ : Image).read source
    let loaded := (Session.holding reading.2 verbose).reset
    let ran := loaded.2.run options.steps.toNat
    (outcome.exit = 0 ↔ reading.1.2 = none ∧ loaded.1 = none ∧ ran.1 = none) ∧
      (reading.1.2.isSome ∨ loaded.1.isSome → outcome.stdout = "" ∧ outcome.exit ≠ 0) ∧
      (reading.1.2 = none → loaded.1 = none →
        outcome.stdout =
          (if options.showPanel then loaded.2.panelTexts (loaded.2.successes options.steps.toNat) else "") ++
            ran.2.bench.machine.text) := by
  intro outcome reading loaded ran
  obtain ⟨accepted, rejected⟩ := readImage_opened opened
  have followed : outcome = runOptions options host := by
    show run arguments host = _
    simp only [run, parsed]
  rw [followed, runOptions, if_neg (Nat.not_lt.mpr inside)]
  cases read : reading.1.2 with
  | some fault =>
    -- The command ends with the message of the reader before there is a session.
    obtain ⟨message, refused⟩ := rejected (Option.isSome_iff_exists.mpr ⟨fault, read⟩)
    simp [refused, fatal]
  | none =>
    obtain ⟨exit, silent, printed⟩ := execute_agrees options reading.2 verbose
    simp only [accepted read, executes, Bool.false_eq_true, if_false, true_and, Option.isSome_none, false_or,
      true_implies]
    refine ⟨exit, ?_, printed⟩
    intro failed
    refine ⟨silent failed, fun zero => ?_⟩
    rw [(exit.mp zero).1] at failed
    cases failed

/-- A program that adds up once too often is shown three times before the command ends with a failure. -/
theorem run_agrees_session_stopping :
    let source : Source := ⟨utf8 "1003 1004 20;twice\n00\n2000", none⟩
    let host : Host := ⟨source, fun _ => .opened ⟨[], none⟩⟩
    let options : Options := ⟨"-", 9, 0, true, false, false⟩
    let reading := (⟨options.origin.toUInt16, []⟩ : Image).read source
    let loaded := (Session.holding reading.2 false).reset
    let ran := loaded.2.run options.steps.toNat
    Options.standard.read ["-m", "-n", "9"] = .ok (options, []) ∧ imageOpening options host = .opened source ∧
      (run ["-m", "-n", "9"] host).exit ≠ 0 ∧
      (run ["-m", "-n", "9"] host).stdout = loaded.2.panelTexts 3 ++ ran.2.bench.machine.text := by
  intro source host options reading loaded ran
  have parsed : Options.standard.read ["-m", "-n", "9"] = .ok (options, []) := rfl
  obtain ⟨exit, _, printed⟩ := run_agrees_session ["-m", "-n", "9"] host options source parsed (by decide) rfl rfl false
  have read : reading.1.2 = none := Option.isNone_iff_eq_none.mp (by decide +kernel)
  have placed : loaded.1 = none := Option.isNone_iff_eq_none.mp (by decide +kernel)
  have count : loaded.2.successes options.steps.toNat = 3 := by decide +kernel
  have stopped : ran.1.isSome := by decide +kernel
  refine ⟨parsed, rfl, ?_, ?_⟩
  · intro zero
    rw [show ran.1 = none from (exit.mp zero).2.2] at stopped
    cases stopped
  · have shown := printed read placed
    rw [if_pos rfl, count] at shown
    simpa only [ran, loaded, reading] using shown

end CommandLine

end StackMachine
