import StackMachine.Proofs.Watch
import StackMachine.Session

/-! What the panel of a session shows after any actions, faults and failed loads among them. -/

namespace StackMachine

/-- Changing the verbosity of the log does not concern the panel. -/
theorem Bench.OnPanel.verbose {bench : Bench} {since : Memory} (onPanel : bench.OnPanel since) (verbose : Bool) :
    (bench.rewatch ({ · with verbose })).OnPanel since :=
  ⟨onPanel.sound, onPanel.follows.attached, onPanel.follows.shows⟩

namespace Session

/-- What is done to a session: its own operations, those of its machine, and another image or verbosity. -/
inductive Action where
  | reset
  | tick
  /-- Runs for a number of instructions, none if it is negative. -/
  | run (limit : Int)
  | operate (operation : Operation)
  | insert (image : Image)
  | setVerbose (verbose : Bool)

/-- The session after an action, whether the action fails or not. -/
def act (session : Session) : Action → Session
  | .reset => session.reset.2
  | .tick => session.tick.2
  | .run limit => (session.run limit.toNat).2
  | .operate operation => { session with bench := (operation.perform session.bench).2 }
  | .insert image => { session with image }
  | .setVerbose verbose => { session with verbose }

/-- The session after actions in order. -/
def actAll (session : Session) (actions : List Action) : Session :=
  actions.foldl act session

/-- The memory to compare with after an action: the one a reset finds, or else the one from before. -/
def baseline (session : Session) (since : Memory) : Action → Memory
  | .reset => session.bench.machine.memory
  | _ => since

/-- The memory that the last reset among some actions finds, or `since` if there is no reset among them. -/
def memoryAtReset (session : Session) (since : Memory) : List Action → Memory
  | [] => since
  | action :: rest => (session.act action).memoryAtReset (session.baseline since action) rest

/-- A reset starts the panel anew, and the panel then follows the loading of the image. -/
theorem reset_onPanel {session : Session} (attached : session.bench.watch.subscriber = .panel) :
    session.reset.2.bench.OnPanel session.bench.machine.memory := by
  -- The panel is blank before the machine is reset, so that it hides the whole memory as the reset found it.
  have cleared : (session.preparedBench.rewatch ({ · with panel := .blank })).reset.OnPanel
      session.bench.machine.memory :=
    .reset attached (.nothing session.bench.machine.memory)
  -- The load may stop at a word outside memory; what it has written until then is on the panel.
  have loaded := (Operation.load session.image).perform_onPanel _ cleared
  simp only [Operation.perform] at loaded
  simp only [reset]
  split
  rename_i fault final ran
  rw [ran] at loaded
  dsimp only
  split
  · exact loaded
  · exact ⟨loaded.sound, loaded.follows.note _⟩

/-- The panel follows a tick, whether it succeeds or not. -/
theorem tick_onPanel {session : Session} {since : Memory} (onPanel : session.bench.OnPanel since) :
    session.tick.2.bench.OnPanel since := by
  -- A fault is reported with its program counter, but the bench is the same either way.
  have stepped := Operation.step.perform_onPanel _ (onPanel.verbose session.verbose)
  simp only [Operation.perform] at stepped
  simp only [tick]
  split
  · rename_i next done
    rw [done] at stepped
    exact stepped
  · rename_i fault stopped done
    rw [done] at stepped
    exact stepped

/-- The panel follows a run, also when it stops at a fault. -/
theorem run_onPanel {since : Memory} (limit : Nat) : ∀ {session : Session},
    session.bench.OnPanel since → (session.run limit).2.bench.OnPanel since := by
  induction limit with
  | zero =>
    intro session onPanel
    exact onPanel
  | succ limit ih =>
    intro session onPanel
    -- The first tick either lets the run go on or ends it.
    have ticked := tick_onPanel onPanel
    unfold run
    split
    · rename_i next done
      rw [done] at ticked
      exact ih ticked
    · rename_i fault stopped done
      rw [done] at ticked
      exact ticked

/-- The panel follows every action, and a reset starts it anew. -/
theorem act_onPanel {session : Session} {since : Memory} (onPanel : session.bench.OnPanel since)
    (action : Action) : (session.act action).bench.OnPanel (session.baseline since action) := by
  cases action with
  | reset => exact reset_onPanel onPanel.follows.attached
  | tick => exact tick_onPanel onPanel
  | run limit => exact run_onPanel limit.toNat onPanel
  | operate operation => exact operation.perform_onPanel session.bench onPanel
  | insert image => exact onPanel
  | setVerbose verbose => exact onPanel

/-- The panel follows any number of actions. -/
theorem actAll_onPanel (actions : List Action) : ∀ {session : Session} {since : Memory},
    session.bench.OnPanel since →
      (session.actAll actions).bench.OnPanel (session.memoryAtReset since actions) := by
  -- The memory to compare with moves along with the session.
  induction actions with
  | nil =>
    intro session since onPanel
    exact onPanel
  | cons action rest ih =>
    intro session since onPanel
    exact ih (act_onPanel onPanel action)

/-- A fresh session has its machine on the panel. -/
theorem initial_onPanel : initial.bench.OnPanel .zero where
  sound := .initial
  follows :=
    { attached := rfl
      shows :=
        { slots := fun slot inside => by
            simp [initial, Machine.initial, Watch.idle, Panel.blank, Stack.empty]
          pc := rfl
          depth := rfl
          memory := .nothing .zero } }

/--
After any actions on a fresh session its panel shows the machine.

The slots, the program counter and the stack pointer are those of the machine. A memory word on the panel is the
current one at an address that exists, and a word that is not on it is as the last reset found it, or zero if the
session was never reset.
-/
theorem actAll_panel_shows (actions : List Action) :
    let session := initial.actAll actions
    let panel := session.bench.watch.panel
    let machine := session.bench.machine
    (∀ (slot : Nat) (inside : slot < 16), panel.registers[slot]? = some machine.stack.slots[slot]) ∧
    panel.registers[16]? = some machine.pc ∧
    panel.registers[17]?.map UInt16.toNat = some machine.stack.depth ∧
    (∀ address word, panel.memory[address]? = some word →
      address.toNat < 4096 ∧ machine.word address = .ok word) ∧
    (∀ place : Address, panel.memory[place.toWord]? = none →
      machine.memory.read place = (initial.memoryAtReset .zero actions).read place) := by
  intro session panel machine
  have onPanel : session.bench.OnPanel (initial.memoryAtReset .zero actions) := actAll_onPanel actions initial_onPanel
  have shows : panel.Shows machine (initial.memoryAtReset .zero actions) := onPanel.follows.shows
  refine ⟨?_, Vector.getElem?_eq_some_iff.2 ⟨by omega, shows.pc⟩, ?_, ?_, shows.memory.untouched⟩
  · intro slot inside
    exact Vector.getElem?_eq_some_iff.2 ⟨by omega, shows.slots slot inside⟩
  -- A depth within the slots fits in a word.
  · have bounded : machine.stack.depth ≤ 16 := onPanel.sound.formed.bounded
    have pointer : panel.registers[17]? = some machine.stack.depth.toUInt16 :=
      Vector.getElem?_eq_some_iff.2 ⟨by omega, shows.depth⟩
    rw [pointer, Option.map_some]
    exact congrArg some (UInt16.toNat_ofNat_of_lt (Nat.lt_of_le_of_lt bounded (by decide)))
  · intro address word shown
    obtain ⟨place, named, rfl⟩ := shows.memory.current address word shown
    have inside : address.toNat < 4096 := Address.val_of_named named ▸ place.isLt
    refine ⟨inside, ?_⟩
    rw [Machine.word, named]

end Session

end StackMachine
