import StackMachine.Bench
import StackMachine.Image.Basic

/-! Sessions: a machine on the bench with a program image, a panel and a count of instructions. -/

namespace StackMachine

/-- A machine that runs an image. -/
structure Session where
  bench : Bench
  image : Image
  /-- How many instructions have succeeded since the last reset. -/
  ticks : Nat
  /-- Whether the next operation makes the log verbose. -/
  verbose : Bool

namespace Session

/-- A fresh machine with an empty image, watched by its panel. -/
def initial : Session :=
  ⟨⟨.initial, { Watch.idle with subscriber := .panel }⟩, .empty, 0, false⟩

/-- Stops watching. -/
def close (session : Session) : Session :=
  { session with bench := session.bench.rewatch ({ · with subscriber := .nobody }) }

/-- The bench with the verbosity of the session. -/
def preparedBench (session : Session) : Bench :=
  session.bench.rewatch ({ · with verbose := session.verbose })

/-- Clears the panel, the machine and the count, and loads the image. -/
def reset (session : Session) : Option Fault × Session :=
  let cleared := (session.preparedBench.rewatch ({ · with panel := .blank })).reset
  let image := session.image
  let loading : StateM Bench (Option Fault) := image.load fun address word => Bench.setWord address word
  let (fault, loaded) := loading.run cleared
  let noted := if fault.isSome then loaded
    else loaded.rewatch (·.note (.loaded image.words.length image.origin))
  (fault, ⟨noted, image, 0, session.verbose⟩)

/-- Executes one instruction and counts it; a fault is reported with the program counter it arose at. -/
def tick (session : Session) : Option Fault × Session :=
  let ⟨bench, image, ticks, verbose⟩ := session
  let prepared := bench.rewatch ({ · with verbose })
  let pc := prepared.machine.pc
  match prepared.step with
  | (none, stepped) => (none, ⟨stepped, image, ticks + 1, verbose⟩)
  | (some fault, stopped) => (some (.runtime pc (some fault)), ⟨stopped, image, ticks, verbose⟩)

/-- Executes up to a number of instructions, and stops at the first fault. -/
def run : Nat → Session → Option Fault × Session
  | 0, session => (none, session)
  | limit + 1, session =>
    match session.tick with
    | (none, ticked) => run limit ticked
    | (some fault, stopped) => (some fault, stopped)

end Session

end StackMachine
