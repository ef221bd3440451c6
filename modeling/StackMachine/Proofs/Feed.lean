import Mathlib.Data.List.Basic
import StackMachine.Feed

/-!
What a consumer gets from feeds, and that feeds in a row are one feed.

A consumer has a state of its own, and what it is called on is written down with its answers. The feeds may work on
surroundings of their own meanwhile, which shows whether a feed was started.
-/

namespace StackMachine.Feed

/-! ### Feeds in a row -/

section Lawful

variable {m : Type → Type} [Monad m] [LawfulMonad m] {α : Type}

/-- A list goes on behind its front only if the consumer still wants more. -/
theorem ofList_append (front later : List α) (consumer : α → m Bool) :
    ofList (front ++ later) consumer =
      ofList front consumer >>= fun more => if more then ofList later consumer else pure false := by
  induction front with
  | nil => simp [ofList]
  | cons item rest ih =>
    -- The first item decides alone whether the others are offered.
    simp only [List.cons_append, ofList, ih, bind_assoc]
    refine bind_congr fun more => ?_
    cases more with
    | false => simp
    | true => rfl

/-- Feeds in a row go on with the later ones only if the consumer still wants more. -/
theorem concat_append (front later : List (Feed m α)) (consumer : α → m Bool) :
    concat (front ++ later) consumer =
      concat front consumer >>= fun more => if more then concat later consumer else pure false := by
  induction front with
  | nil => simp [concat]
  | cons feed rest ih =>
    -- The first feed decides alone whether the others are started.
    simp only [List.cons_append, concat, ih, bind_assoc]
    refine bind_congr fun more => ?_
    cases more with
    | false => simp
    | true => rfl

/-- An answer that is told again is the same answer. -/
theorem bind_told (answer : m Bool) : (answer >>= fun more => if more then pure true else pure false) = answer := by
  have told (more : Bool) : (if more then pure true else pure false : m Bool) = pure more := by
    cases more <;> rfl
  simp only [told, bind_pure]

/-- One item in a list is offered by a single call. -/
theorem ofList_singleton (item : α) (consumer : α → m Bool) : ofList [item] consumer = consumer item :=
  bind_told (consumer item)

/-- One feed in a row is that feed. -/
theorem concat_singleton (feed : Feed m α) : concat [feed] = feed := by
  funext consumer
  exact bind_told (feed consumer)

/-- Rows of feeds in a row are one row. -/
theorem concat_flatten (groups : List (List (Feed m α))) : concat (groups.map concat) = concat groups.flatten := by
  funext consumer
  induction groups with
  | nil => rfl
  -- The first row of feeds decides whether the others are started, as its feeds do one by one.
  | cons group rest ih => rw [List.map_cons, List.flatten_cons, concat_append, concat, ih]

end Lawful

/-- What is done only if a consumer wants more starts from where the consumer was left. -/
theorem run_while_wanted {σ : Type} (first next : StateM σ Bool) (state : σ) :
    (first >>= fun more => if more then next else pure false).run state =
      if (first.run state).1 then next.run (first.run state).2 else (false, (first.run state).2) := by
  rw [StateT.run_bind]
  rcases first.run state with ⟨_ | _, after⟩
  · rfl
  · rfl

/-! ### What a consumer gets -/

variable {ω σ α : Type}

/-- What feeds and their consumer work on. -/
structure World (ω σ α : Type) where
  /-- What the feeds themselves work on. -/
  surroundings : ω
  /-- The state of the consumer. -/
  state : σ
  /-- The items that the consumer was called on, each with its answer. -/
  calls : List (α × Bool)

/-- A consumer whose calls are written down. -/
def recorded (consumer : α → StateM σ Bool) (item : α) : StateM (World ω σ α) Bool := fun world =>
  let (answer, state) := (consumer item).run world.state
  (answer, { world with state, calls := world.calls ++ [(item, answer)] })

/-- The calls of a consumer to which items are offered in order, until it refuses one. -/
structure Received (consumer : α → StateM σ Bool) (items : List α) (state : σ) (calls : List (α × Bool)) (after : σ) :
    Prop where
  /-- The consumer itself gives the answers, one after the other. -/
  answered : ((calls.map Prod.fst).mapM consumer).run state = (calls.map Prod.snd, after)
  inOrder : calls.map Prod.fst <+: items
  /-- Only the last call may have been refused. -/
  wanted : ∀ call ∈ calls.dropLast, call.2 = true
  /-- Nothing but a refusal keeps items back. -/
  complete : (∀ call ∈ calls, call.2 = true) → calls.map Prod.fst = items

/-- A feed that calls any consumer on items in order, until it refuses one, and tells whether it refused none. -/
def Offers (feed : Feed (StateM (World ω σ α)) α) (items : List α) : Prop :=
  ∀ (consumer : α → StateM σ Bool) (world : World ω σ α), ∃ surroundings calls after,
    Received consumer items world.state calls after ∧
      (feed (recorded consumer)).run world = (calls.all Prod.snd, ⟨surroundings, after, world.calls ++ calls⟩)

/-- A consumer that wants so many items: it refuses the last of them, and none before. -/
def StopsAfter (consumer : α → StateM σ Bool) (count : Nat) (state : σ) : Prop :=
  ∀ items : List α, items.length ≤ count →
    ((items.mapM consumer).run state).1 = (List.range items.length).map fun number => decide (number + 1 < count)

/-- A consumer that is called on more items goes on from the state it was left in. -/
theorem run_mapM_append (consumer : α → StateM σ Bool) (first second : List α) (state : σ) :
    ((first ++ second).mapM consumer).run state =
      let front := (first.mapM consumer).run state
      let back := (second.mapM consumer).run front.2
      (front.1 ++ back.1, back.2) := by
  rw [List.mapM_append]
  rfl

namespace Received

variable {consumer : α → StateM σ Bool} {first second : List α} {state between after : σ}
  {calls later : List (α × Bool)}

/-- No items give no calls. -/
theorem nothing (consumer : α → StateM σ Bool) (state : σ) : Received consumer [] state [] state where
  answered := rfl
  inOrder := List.prefix_rfl
  wanted call within := by cases within
  complete _ := rfl

/-- A single item gives one call, whatever the answer. -/
theorem single (consumer : α → StateM σ Bool) (item : α) (state : σ) :
    Received consumer [item] state [(item, ((consumer item).run state).1)] ((consumer item).run state).2 where
  answered := rfl
  inOrder := List.prefix_rfl
  wanted call within := by cases within
  complete _ := rfl

/-- After a refusal nothing of the later items is received. -/
theorem append_refused (received : Received consumer first state calls after) (refused : ∃ call ∈ calls, call.2 = false)
    (second : List α) : Received consumer (first ++ second) state calls after where
  answered := received.answered
  inOrder := received.inOrder.trans (List.prefix_append first second)
  wanted := received.wanted
  complete all := by
    -- There is a call that was not accepted.
    obtain ⟨call, within, no⟩ := refused
    rw [all call within] at no
    cases no

/-- If nothing was refused, the later items are received as they would be by themselves. -/
theorem append (received : Received consumer first state calls between) (all : ∀ call ∈ calls, call.2 = true)
    (more : Received consumer second between later after) :
    Received consumer (first ++ second) state (calls ++ later) after where
  answered := by
    simp only [List.map_append, run_mapM_append, received.answered, more.answered]
  inOrder := by
    rw [List.map_append, received.complete all]
    exact (List.prefix_append_right_inj first).mpr more.inOrder
  wanted := by
    intro call within
    -- The last call is the last of the later ones, or of the first ones if there are no later ones.
    rcases List.eq_nil_or_concat later with rfl | ⟨front, last, rfl⟩
    · rw [List.append_nil] at within
      exact received.wanted call within
    · rw [List.concat_eq_append, ← List.append_assoc, List.dropLast_concat] at within
      rcases List.mem_append.mp within with early | late
      · exact all call early
      · exact more.wanted call (by rwa [List.concat_eq_append, List.dropLast_concat])
  complete allTrue := by
    have rest := more.complete fun call within => allTrue call (List.mem_append_right calls within)
    rw [List.map_append, received.complete all, rest]

/-- A consumer that wants so many items receives these, or all if there are fewer. -/
theorem of_stopsAfter {items : List α} {count : Nat} (received : Received consumer items state calls after)
    (positive : 0 < count) (stops : StopsAfter consumer count state) : calls.map Prod.fst = items.take count := by
  -- A call behind the refusal would make that refusal one that is not the last.
  have short : calls.length ≤ count := by
    by_contra long
    have front : (calls.take count).length = count := List.length_take_of_le (by omega)
    have early := stops ((calls.take count).map Prod.fst) (Nat.le_of_eq (by rw [List.length_map, front]))
    have whole := received.answered
    rw [← List.take_append_drop count calls, List.map_append, List.map_append, run_mapM_append] at whole
    have answers := (List.append_inj (congrArg Prod.fst whole) (by rw [early]; simp)).1
    have refusal : false ∈ (calls.take count).map Prod.snd := by
      rw [← answers, early, List.length_map, front]
      exact List.mem_map.mpr ⟨count - 1, List.mem_range.mpr (by omega), decide_eq_false (by omega)⟩
    obtain ⟨call, within, refused⟩ := List.mem_map.mp refusal
    have inFront : call ∈ calls.dropLast := by
      rw [List.dropLast_eq_take]
      exact (List.take_prefix_take_left (by omega)).subset within
    rw [received.wanted call inFront] at refused
    cases refused
  have answers := stops (calls.map Prod.fst) (by rw [List.length_map]; exact short)
  simp only [received.answered, List.length_map] at answers
  rcases Nat.lt_or_eq_of_le short with fewer | enough
  · -- Fewer calls than it wants were all accepted, so that there are no more items.
    have all : ∀ call ∈ calls, call.2 = true := by
      intro call within
      have answer : call.2 ∈ calls.map Prod.snd := List.mem_map_of_mem within
      rw [answers] at answer
      obtain ⟨number, small, told⟩ := List.mem_map.mp answer
      rw [← told]
      exact decide_eq_true (by have := List.mem_range.mp small; omega)
    have items := received.complete all
    rw [items, List.take_of_length_le]
    rw [← items, List.length_map]
    omega
  · -- The calls are as many as it wants, and they come from the front of the items.
    have front := List.prefix_iff_eq_take.mp received.inOrder
    rw [List.length_map, enough] at front
    exact front

end Received

/-- The items of a list are offered in order, and the surroundings are left alone. -/
theorem received_ofList (items : List α) (consumer : α → StateM σ Bool) (world : World ω σ α) :
    ∃ calls after, Received consumer items world.state calls after ∧
      (ofList items (recorded consumer)).run world =
        (calls.all Prod.snd, ⟨world.surroundings, after, world.calls ++ calls⟩) := by
  induction items generalizing world with
  | nil => exact ⟨[], world.state, .nothing consumer world.state, by rw [List.append_nil]; rfl⟩
  | cons item rest ih =>
    have first := Received.single consumer item world.state
    have called : (recorded consumer item).run world = (((consumer item).run world.state).1,
        ⟨world.surroundings, ((consumer item).run world.state).2,
          world.calls ++ [(item, ((consumer item).run world.state).1)]⟩) := rfl
    rw [ofList, run_while_wanted, called]
    generalize (consumer item).run world.state = result at first ⊢
    obtain ⟨answer, next⟩ := result
    cases answer with
    | false =>
      -- The refusal of the item ends the offer.
      exact ⟨_, _, first.append_refused ⟨_, List.mem_singleton_self _, rfl⟩ rest, rfl⟩
    | true =>
      -- The rest is offered to the consumer as the first item has left it.
      obtain ⟨calls, after, more, run⟩ := ih ⟨world.surroundings, next, world.calls ++ [(item, true)]⟩
      refine ⟨_, after, first.append (by simp) more, ?_⟩
      rw [if_pos rfl, run, List.append_assoc]
      rfl

/-- Feeds in a row offer the items of each in turn. -/
theorem offers_concat {feeds : List (Feed (StateM (World ω σ α)) α)} {sequences : List (List α)}
    (offer : List.Forall₂ Offers feeds sequences) : (concat feeds).Offers sequences.flatten := by
  intro consumer world
  induction offer generalizing world with
  | nil => exact ⟨world.surroundings, [], world.state, .nothing consumer world.state, by rw [List.append_nil]; rfl⟩
  | @cons feed items feeds sequences offers _ ih =>
    obtain ⟨surroundings, calls, between, received, run⟩ := offers consumer world
    rw [concat, run_while_wanted, run]
    by_cases all : calls.all Prod.snd
    · -- The consumer wants more, and the other feeds find the world as this one has left it.
      obtain ⟨final, later, after, more, rest⟩ := ih ⟨surroundings, between, world.calls ++ calls⟩
      refine ⟨final, calls ++ later, after, received.append (List.all_eq_true.mp all) more, ?_⟩
      rw [if_pos all, rest, List.append_assoc, List.all_append, all, Bool.true_and]
    · -- The consumer has refused an item of this feed, and the others are not started.
      obtain ⟨call, within, refused⟩ : ∃ call ∈ calls, call.2 = false := by simpa using all
      refine ⟨surroundings, calls, between, received.append_refused ⟨call, within, refused⟩ _, ?_⟩
      rw [if_neg all, Bool.eq_false_iff.mpr all]

/-- A feed of a list that writes its number down when it is started. -/
def numbered (number : Nat) (items : List α) : Feed (StateM (World (List Nat) σ α)) α := fun consumer world =>
  (ofList items consumer).run { world with surroundings := world.surroundings ++ [number] }

/-- Writing a number down does not change what is offered. -/
theorem offers_numbered (number : Nat) (items : List α) :
    Offers (numbered number items : Feed (StateM (World (List Nat) σ α)) α) items := by
  intro consumer world
  obtain ⟨calls, after, received, run⟩ :=
    received_ofList items consumer { world with surroundings := world.surroundings ++ [number] }
  exact ⟨_, calls, after, received, run⟩

/--
Feeds in a row call a consumer on the items of all of them in order, until it refuses one.

No feed is started after that, whatever it would do. A consumer that wants so many items gets these. Rows of feeds in a
row are one row, and an empty row adds nothing.
-/
theorem concat_offers_flatten {feeds : List (Feed (StateM (World ω σ α)) α)} {sequences : List (List α)}
    (offer : List.Forall₂ Offers feeds sequences) :
    (concat feeds).Offers sequences.flatten ∧
    (∀ (later : List (Feed (StateM (World ω σ α)) α)) (consumer : α → StateM (World ω σ α) Bool)
      (world stopped : World ω σ α), (concat feeds consumer).run world = (false, stopped) →
        (concat (feeds ++ later) consumer).run world = (false, stopped)) ∧
    (∀ (count : Nat) (consumer : α → StateM σ Bool) (world : World ω σ α), 0 < count →
      StopsAfter consumer count world.state →
        ((concat feeds (recorded consumer)).run world).2.calls.map Prod.fst =
          world.calls.map Prod.fst ++ sequences.flatten.take count) ∧
    ∀ (m : Type → Type) [Monad m] [LawfulMonad m],
      (∀ groups : List (List (Feed m α)), concat (groups.map concat) = concat groups.flatten) ∧
      (∀ first second third : Feed m α,
        concat [concat [first, second], third] = concat [first, concat [second, third]]) ∧
      ∀ feed : Feed m α, concat [concat [], feed] = feed ∧ concat [feed, concat []] = feed := by
  have whole := offers_concat offer
  refine ⟨whole, ?_, ?_, ?_⟩
  · intro later consumer world stopped refused
    rw [concat_append, run_while_wanted, refused]
    rfl
  · intro count consumer world positive stops
    obtain ⟨surroundings, calls, after, received, run⟩ := whole consumer world
    rw [run, List.map_append, received.of_stopsAfter positive stops]
  · -- The laws of nested rows are three ways to group the same feeds.
    intro m _ _
    refine ⟨concat_flatten, ?_, ?_⟩
    · intro first second third
      have left := concat_flatten [[first, second], [third]]
      have right := concat_flatten [[first], [second, third]]
      simp only [List.map_cons, List.map_nil, concat_singleton] at left right
      exact left.trans right.symm
    · intro feed
      have left := concat_flatten [[], [feed]]
      have right := concat_flatten [[feed], []]
      simp only [List.map_cons, List.map_nil, concat_singleton] at left right
      exact ⟨left.trans (concat_singleton feed), right.trans (concat_singleton feed)⟩

/-- The second of two items ends the offer in the third feed, and the fourth is not started. -/
theorem concat_offers_flatten_started :
    let feeds : List (Feed (StateM (World (List Nat) Nat Nat)) Nat) :=
      [numbered 0 [7], numbered 1 [], numbered 2 [8, 9]]
    let consumer : Nat → StateM Nat Bool := fun _ taken => (decide (taken + 1 < 2), taken + 1)
    List.Forall₂ Offers feeds [[7], [], [8, 9]] ∧ StopsAfter consumer 2 0 ∧
      ((concat feeds (recorded consumer)).run ⟨[], 0, []⟩).2.calls.map Prod.fst = [7, 8] ∧
      (concat (feeds ++ [numbered 3 [10]]) (recorded consumer)).run ⟨[], 0, []⟩ =
        (false, ⟨[0, 1, 2], 2, [(7, true), (8, false)]⟩) := by
  intro feeds consumer
  have offer : List.Forall₂ Offers feeds [[7], [], [8, 9]] :=
    .cons (offers_numbered 0 [7]) (.cons (offers_numbered 1 []) (.cons (offers_numbered 2 [8, 9]) .nil))
  have stops : StopsAfter consumer 2 0 := by
    rintro (_ | ⟨first, _ | ⟨second, _ | ⟨third, rest⟩⟩⟩) short
    · rfl
    · rfl
    · rfl
    · simp at short
  have facts := concat_offers_flatten offer
  exact ⟨offer, stops, facts.2.2.1 2 consumer ⟨[], 0, []⟩ (by decide) stops,
    facts.2.1 [numbered 3 [10]] (recorded consumer) ⟨[], 0, []⟩ _ rfl⟩

end StackMachine.Feed
