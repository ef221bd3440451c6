import Mathlib.Data.List.Forall2
import StackMachine.Machine.Basic
import StackMachine.Proofs.Feed

/-!
Iterators, which hand out items as feeds do but return nothing.

Whoever goes through an iterator has to remember by itself that it wants no more. A loop keeps that in a variable of its
own, and an iterator together with this variable is a feed.
-/

namespace StackMachine

open Feed

/-- Calls a consumer on items, whatever the consumer itself works on, and returns nothing. -/
structure Iterator (ω α : Type) where
  run : {σ : Type} → (α → StateM (World ω σ α) Bool) → StateM (World ω σ α) Unit

namespace Iterator

variable {ω σ α : Type}

/-! ### Loops -/

/-- The body of a loop: passes an item on, and remembers it if the item was refused. -/
def body (consumer : α → StateM (World ω σ α) Bool) (item : α) : StateM (World ω (Bool × σ) α) Bool := fun world =>
  let (answer, after) := (consumer item).run ⟨world.surroundings, world.state.2, world.calls⟩
  (answer, ⟨after.surroundings, (world.state.1 || !answer, after.state), after.calls⟩)

/-- Goes through an iterator, and tells by the variable of the loop whether no item was refused. -/
def loop (iterator : Iterator ω α) : Feed (StateM (World ω σ α)) α := fun consumer world =>
  -- The variable is there for the time of the loop only, and nothing has been refused at its start.
  let (_, after) := (iterator.run (body consumer)).run ⟨world.surroundings, (false, world.state), world.calls⟩
  (!after.state.1, ⟨after.surroundings, after.state.2, after.calls⟩)

/-- Goes through iterators one after the other, and returns from both loops once an item is refused. -/
def concat : List (Iterator ω α) → Iterator ω α
  | [] => ⟨fun _ => pure ()⟩
  | iterator :: rest => ⟨fun consumer => do
    if ← iterator.loop consumer then (concat rest).run consumer⟩

/-- Iterators one after the other are the feeds of their loops in a row, of which nothing is told at the end. -/
theorem run_concat (iterators : List (Iterator ω α)) (consumer : α → StateM (World ω σ α) Bool) :
    (concat iterators).run consumer = Feed.concat (iterators.map loop) consumer >>= fun _ => pure () := by
  induction iterators with
  | nil => rfl
  | cons iterator rest ih =>
    -- The first loop decides on both sides whether the others are made.
    simp only [concat, List.map_cons, Feed.concat, bind_assoc, ih]
    refine bind_congr fun more => ?_
    cases more with
    | false => rfl
    | true => rfl

/-! ### Items in order -/

/-- An iterator that calls any consumer on items in order, and stops once it refuses one. -/
def Yields (iterator : Iterator ω α) (items : List α) : Prop :=
  ∀ (σ : Type) (consumer : α → StateM σ Bool) (world : World ω σ α), ∃ surroundings calls after,
    Received consumer items world.state calls after ∧
      (iterator.run (recorded consumer)).run world = ((), ⟨surroundings, after, world.calls ++ calls⟩)

/-- A consumer that remembers beside its own state whether it has refused an item. -/
def remembering (consumer : α → StateM σ Bool) (item : α) : StateM (Bool × σ) Bool := fun (refused, state) =>
  let (answer, after) := (consumer item).run state
  (answer, (refused || !answer, after))

/-- The calls of a loop are written down as those of the consumer that remembers. -/
theorem body_recorded (consumer : α → StateM σ Bool) :
    (body (recorded consumer) : α → StateM (World ω (Bool × σ) α) Bool) = recorded (remembering consumer) :=
  rfl

/-- A consumer that remembers answers as before, and knows at the end whether it has refused an item. -/
theorem run_mapM_remembering (consumer : α → StateM σ Bool) (items : List α) (refused : Bool) (state : σ) :
    (items.mapM (remembering consumer)).run (refused, state) =
      let answered := (items.mapM consumer).run state
      (answered.1, (refused || !answered.1.all id, answered.2)) := by
  -- The induction is on the items, with the variable free because each answer may set it.
  induction items generalizing refused state with
  | nil =>
    show ([], (refused, state)) = ([], (refused || false, state))
    rw [Bool.or_false]
  | cons item rest ih =>
    have first := run_mapM_append (remembering consumer) [item] rest (refused, state)
    have second := run_mapM_append consumer [item] rest state
    rw [List.singleton_append] at first second
    have called : ([item].mapM (remembering consumer)).run (refused, state) =
        ([((consumer item).run state).1],
          (refused || !((consumer item).run state).1, ((consumer item).run state).2)) := rfl
    have answer : ([item].mapM consumer).run state =
        ([((consumer item).run state).1], ((consumer item).run state).2) := rfl
    rw [first, second, called, answer]
    simp only [ih, List.singleton_append, List.all_cons, id_eq, Bool.not_and, Bool.or_assoc]

/-- What a consumer that remembers receives is received by the consumer itself. -/
theorem received_of_remembering {consumer : α → StateM σ Bool} {items : List α} {state : σ}
    {calls : List (α × Bool)} {after : Bool × σ}
    (received : Received (remembering consumer) items (false, state) calls after) :
    Received consumer items state calls after.2 ∧ after.1 = !calls.all Prod.snd := by
  have answered := received.answered
  rw [run_mapM_remembering] at answered
  -- The answers are those that were written down with the calls.
  have answers : (((calls.map Prod.fst).mapM consumer).run state).1 = calls.map Prod.snd := congrArg Prod.fst answered
  have remembered := congrArg (fun result => result.2.1) answered
  have final := congrArg (fun result => result.2.2) answered
  simp only [answers, Bool.false_or, List.all_map, Function.id_comp] at remembered
  exact ⟨⟨Prod.ext answers final, received.inOrder, received.wanted, received.complete⟩, remembered.symm⟩

/-- The loop over an iterator offers the items that the iterator yields. -/
theorem offers_loop {iterator : Iterator ω α} {items : List α} (yields : iterator.Yields items) :
    (iterator.loop : Feed (StateM (World ω σ α)) α).Offers items := by
  intro consumer world
  -- The loop runs the iterator on the consumer that remembers.
  obtain ⟨surroundings, calls, after, received, run⟩ :=
    yields (Bool × σ) (remembering consumer) ⟨world.surroundings, (false, world.state), world.calls⟩
  obtain ⟨plain, remembered⟩ := received_of_remembering received
  refine ⟨surroundings, calls, after.2, plain, ?_⟩
  have looped : (iterator.loop (recorded consumer)).run world =
      let ran := (iterator.run (recorded (remembering consumer))).run
        ⟨world.surroundings, (false, world.state), world.calls⟩
      (!ran.2.state.1, ⟨ran.2.surroundings, ran.2.state.2, ran.2.calls⟩) := rfl
  rw [looped, run]
  simp only [remembered, Bool.not_not]

/-- The loops over iterators, made one after the other, offer the items of each in turn. -/
theorem offers_loops {iterators : List (Iterator ω α)} {sequences : List (List α)}
    (yield : List.Forall₂ Yields iterators sequences) :
    (Feed.concat (iterators.map loop) : Feed (StateM (World ω σ α)) α).Offers sequences.flatten :=
  offers_concat (List.forall₂_map_left_iff.mpr (yield.imp fun _ _ yields => offers_loop yields))

/-- Iterators one after the other yield the items of each in turn, however they work on their surroundings. -/
theorem yields_concat {iterators : List (Iterator ω α)} {sequences : List (List α)}
    (yield : List.Forall₂ Yields iterators sequences) : (concat iterators).Yields sequences.flatten := by
  intro σ consumer world
  -- The loops are feeds, and feeds in a row are known to offer all the items in order.
  obtain ⟨surroundings, calls, after, received, run⟩ := offers_loops yield consumer world
  refine ⟨surroundings, calls, after, received, ?_⟩
  rw [run_concat, StateT.run_bind, run]
  rfl

/-- Once an item is refused no later iterator is started, whatever it would do. -/
theorem run_concat_refused (iterators later : List (Iterator ω α)) (consumer : α → StateM (World ω σ α) Bool)
    (world : World ω σ α) (refused : ((Feed.concat (iterators.map loop) consumer).run world).1 = false) :
    ((concat (iterators ++ later)).run consumer).run world = ((concat iterators).run consumer).run world := by
  rw [run_concat, run_concat, List.map_append, StateT.run_bind, StateT.run_bind, concat_append, run_while_wanted,
    refused]
  rfl

/-- An iterator that goes through a list yields its items. -/
theorem yields_of_run {iterator : Iterator ω α} {items : List α}
    (run : ∀ {σ : Type} (consumer : α → StateM (World ω σ α) Bool),
      iterator.run consumer = Feed.ofList items consumer >>= fun _ => pure ()) : iterator.Yields items := by
  intro σ consumer world
  obtain ⟨calls, after, received, offered⟩ := received_ofList items consumer world
  refine ⟨world.surroundings, calls, after, received, ?_⟩
  rw [run, StateT.run_bind, offered]
  rfl

/-! ### Collecting -/

/-- A consumer that keeps every item and always wants more. -/
def keep (item : α) : StateM (List α) Bool := fun kept =>
  (true, kept ++ [item])

/-- Every item that an iterator hands out, in order. -/
def collect (iterator : Iterator Unit α) : List α :=
  ((iterator.run (recorded keep)).run ⟨(), [], []⟩).2.state

/-- What is kept of items one after the other is all of them. -/
theorem run_mapM_keep (items kept : List α) :
    (items.mapM keep).run kept = (items.map fun _ => true, kept ++ items) := by
  induction items generalizing kept with
  | nil =>
    rw [List.append_nil]
    rfl
  | cons item rest ih =>
    have both := run_mapM_append keep [item] rest kept
    have called : ([item].mapM keep).run kept = ([true], kept ++ [item]) := rfl
    rw [List.singleton_append, called] at both
    simp only [both, ih, List.map_cons, List.append_assoc, List.singleton_append]

/-- What is collected from an iterator are the items that it yields. -/
theorem collect_of_yields {iterator : Iterator Unit α} {items : List α} (yields : iterator.Yields items) :
    iterator.collect = items := by
  obtain ⟨surroundings, calls, after, received, run⟩ := yields (List α) keep ⟨(), [], []⟩
  have answered := received.answered
  rw [run_mapM_keep] at answered
  have answers : ((calls.map Prod.fst).map fun _ => true) = calls.map Prod.snd := congrArg Prod.fst answered
  have kept : calls.map Prod.fst = after := congrArg Prod.snd answered
  -- No item is refused, so that none is held back.
  have all : ∀ call ∈ calls, call.2 = true := by
    intro call within
    have answer : call.2 ∈ calls.map Prod.snd := List.mem_map_of_mem within
    rw [← answers] at answer
    obtain ⟨item, _, told⟩ := List.mem_map.mp answer
    exact told.symm
  rw [collect, run, ← received.complete all, kept]

end Iterator

/-! ### The iterators of a machine -/

namespace Machine

variable {ω : Type}

/-- Hands out every stack slot, and then the stack pointer unless a slot was refused. -/
def stackUpdates (machine : Machine) : Iterator ω Change :=
  ⟨fun consumer => do
    let slots := machine.stack.slots.toList.mapIdx fun slot word => ⟨.register, slot.toUInt16, word⟩
    if ← Feed.ofList slots consumer then
      -- Nothing comes after the stack pointer, so that the answer does not matter.
      let _ ← consumer ⟨.register, Register.sp, machine.stack.depth.toUInt16⟩⟩

/-- Hands out the program counter. -/
def pcUpdate (machine : Machine) : Iterator ω Change :=
  ⟨fun consumer => do
    let _ ← consumer ⟨.register, Register.pc, machine.pc⟩⟩

/-- Hands out the word at an address. -/
def wordUpdate (machine : Machine) (address : Address) : Iterator ω Change :=
  ⟨fun consumer => do
    let _ ← consumer ⟨.memory, address.toWord, machine.memory.read address⟩⟩

/-- The iterator of the stack goes through the batch of the stack. -/
theorem yields_stackUpdates (machine : Machine) :
    (machine.stackUpdates : Iterator ω Change).Yields machine.stackBatch := by
  apply Iterator.yields_of_run
  intro σ consumer
  rw [stackBatch, Feed.ofList_append, Feed.ofList_singleton, bind_assoc]
  refine bind_congr fun more => ?_
  cases more with
  | false => rfl
  | true => rfl

/-- The iterator of the program counter goes through its batch. -/
theorem yields_pcUpdate (machine : Machine) : (machine.pcUpdate : Iterator ω Change).Yields machine.pcBatch := by
  apply Iterator.yields_of_run
  intro σ consumer
  rw [pcBatch, Feed.ofList_singleton]
  rfl

/-- The iterator of a memory word goes through that word alone. -/
theorem yields_wordUpdate (machine : Machine) (address : Address) :
    (machine.wordUpdate address : Iterator ω Change).Yields
      [⟨.memory, address.toWord, machine.memory.read address⟩] := by
  apply Iterator.yields_of_run
  intro σ consumer
  rw [Feed.ofList_singleton]
  rfl

/-- The stack and then the program counter, by two iterators one after the other. -/
def registerUpdates (machine : Machine) : Iterator ω Change :=
  .concat [machine.stackUpdates, machine.pcUpdate]

/-- The two iterators go through the two batches of the registers. -/
theorem yield_registers (machine : Machine) :
    List.Forall₂ Iterator.Yields [(machine.stackUpdates : Iterator ω Change), machine.pcUpdate]
      [machine.stackBatch, machine.pcBatch] :=
  .cons machine.yields_stackUpdates (.cons machine.yields_pcUpdate .nil)

/-- The batches of the registers in a row are the batch that a reset announces. -/
theorem flatten_registers (machine : Machine) :
    [machine.stackBatch, machine.pcBatch].flatten = machine.stackBatch ++ machine.pcBatch := by
  rw [List.flatten_cons, List.flatten_cons, List.flatten_nil, List.append_nil]

/-- The registers are yielded in the order in which a reset announces them. -/
theorem yields_registerUpdates (machine : Machine) :
    (machine.registerUpdates : Iterator ω Change).Yields (machine.stackBatch ++ machine.pcBatch) := by
  rw [← flatten_registers]
  exact Iterator.yields_concat machine.yield_registers

/-- The loops over the two iterators are feeds in a row, which offer the registers to any consumer. -/
theorem offers_registerLoops {σ : Type} (machine : Machine) :
    (Feed.concat [machine.stackUpdates.loop, machine.pcUpdate.loop] :
      Feed (StateM (Feed.World ω σ Change)) Change).Offers (machine.stackBatch ++ machine.pcBatch) := by
  rw [← flatten_registers]
  exact Iterator.offers_loops machine.yield_registers

/-- A reset announces what is collected from the iterators of the registers it has cleared. -/
theorem reset_events (machine : Machine) :
    machine.reset.events = [.log .reset, .changes machine.reset.machine.registerUpdates.collect] := by
  rw [Iterator.collect_of_yields machine.reset.machine.yields_registerUpdates]
  rfl

end Machine

end StackMachine
