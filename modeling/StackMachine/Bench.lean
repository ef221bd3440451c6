import StackMachine.Watch

/-! A machine on the bench: every operation of the machine, with its events taken in by a watch. -/

namespace StackMachine

/-- A machine and who watches it. -/
structure Bench where
  machine : Machine
  watch : Watch

namespace Bench

/-- A fresh machine that nobody watches. -/
def initial : Bench :=
  ⟨.initial, .idle⟩

/-- Lets the machine operate and the watch take in the events. -/
def perform (bench : Bench) (operation : Machine → Response) : Option Fault × Bench :=
  let ⟨machine, watch⟩ := bench
  let response := operation machine
  (response.fault, ⟨response.machine, watch.observeAll response.events⟩)

/-- Executes an instruction. -/
def execute (code : Code) (bench : Bench) : Option Fault × Bench :=
  bench.perform (·.execute code)

/-- Executes the instruction that the program counter points at. -/
def step (bench : Bench) : Option Fault × Bench :=
  bench.perform Machine.step

/-- Clears the registers and the stack. -/
def reset (bench : Bench) : Bench :=
  (bench.perform Machine.reset).2

/-- Writes a word, if memory reaches to its address. -/
def setWord (address word : Word) (bench : Bench) : Option Fault × Bench :=
  bench.perform (·.setWord address word)

/-- Steps up to a number of times, stops at the first fault, and counts the steps that succeeded after `ran`. -/
def stepsFrom (ran : Nat) : Nat → Bench → (Nat × Option Fault) × Bench
  | 0, bench => ((ran, none), bench)
  | more + 1, bench =>
    match bench.step with
    | (none, stepped) => stepsFrom (ran + 1) more stepped
    | (some fault, stopped) => ((ran, some fault), stopped)

/-- Steps up to `limit` times, stops at the first fault, and counts the steps that succeeded. -/
def steps (limit : Nat) (bench : Bench) : (Nat × Option Fault) × Bench :=
  bench.stepsFrom 0 limit

/-- Changes how the machine is watched. -/
def rewatch (bench : Bench) (change : Watch → Watch) : Bench :=
  { bench with watch := change bench.watch }

end Bench

end StackMachine
