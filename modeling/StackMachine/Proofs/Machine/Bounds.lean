import StackMachine.Proofs.Machine.Depth

/-! The places that instructions reach for without a check, and why every one of them exists. -/

namespace StackMachine

/-- A place that an instruction reaches for without a check. -/
inductive Access where
  | slot (index : Int)
  | word (address : Nat)

/-- A slot is one of the sixteen, and an address one of those that memory has. -/
def Access.InRange : Access → Prop
  | slot index => 0 ≤ index ∧ index < 16
  | word address => address < 4096

/-- The places that actions reach for, in order. -/
def Micro.accesses : Micro → Machine → List Access
  | done, _ => []
  | push word next, machine =>
    .slot machine.stack.depth :: next.accesses (machine.withStack (machine.stack.pushUnchecked word))
  | pop next, machine =>
    let (word, stack) := machine.stack.popUnchecked
    .slot (machine.stack.depth - 1) :: (next word).accesses (machine.withStack stack)
  | top next, machine =>
    .slot (machine.stack.depth - 1 - 0) :: (next (machine.stack.peek 0)).accesses machine
  | second next, machine =>
    .slot (machine.stack.depth - 1 - 1) :: (next (machine.stack.peek 1)).accesses machine
  | read address next, machine =>
    .word address.val :: (next (machine.memory.read address)).accesses machine
  | write address word next, machine =>
    .word address.val :: next.accesses (machine.withWord address word)
  | flag change next, machine => next.accesses { machine with flags := change machine.flags }
  | report _ next, machine => next.accesses machine
  | unknown _ next, machine => next.accesses machine

/-- The places that an instruction reaches for, none if it is refused. -/
def Machine.accesses (machine : Machine) (code : Code) : List Access :=
  match machine.stack.check code.demand with
  | .error _ => []
  | .ok () => code.micro.accesses machine

/-- Actions that the stack allows stay within the slots and within memory. -/
theorem Micro.accesses_inRange {final : Nat} (micro : Micro) :
    ∀ machine : Machine, machine.stack.depth ≤ Stack.capacity →
      micro.Reaches machine.stack.depth (.ok final) →
        ∀ access ∈ micro.accesses machine, access.InRange := by
  -- Each check that an action would make is the bound of the slot that it reaches for.
  have slots : Stack.capacity = 16 := rfl
  induction micro with
  | done =>
    intro machine _ _ access listed
    simp [accesses] at listed
  | push word next ih =>
    intro machine bounded reaches
    obtain ⟨room, reaches⟩ := reaches.push
    rw [accesses, List.forall_mem_cons]
    exact ⟨⟨by omega, by omega⟩, ih (machine.withStack _) room reaches⟩
  | pop next ih =>
    intro machine bounded reaches
    obtain ⟨there, reaches⟩ := reaches.pop
    rw [accesses, List.forall_mem_cons]
    exact ⟨⟨by omega, by omega⟩,
      ih _ (machine.withStack _) (Stack.depth_popUnchecked_le bounded) (reaches _)⟩
  | top next ih =>
    intro machine bounded reaches
    obtain ⟨there, reaches⟩ := reaches.top
    rw [accesses, List.forall_mem_cons]
    exact ⟨⟨by omega, by omega⟩, ih _ machine bounded (reaches _)⟩
  | second next ih =>
    intro machine bounded reaches
    obtain ⟨there, reaches⟩ := reaches.second
    rw [accesses, List.forall_mem_cons]
    exact ⟨⟨by omega, by omega⟩, ih _ machine bounded (reaches _)⟩
  | read address next ih =>
    intro machine bounded reaches
    rw [accesses, List.forall_mem_cons]
    exact ⟨address.isLt, ih _ machine bounded (reaches _)⟩
  | write address word next ih =>
    intro machine bounded reaches
    rw [accesses, List.forall_mem_cons]
    exact ⟨address.isLt, ih (machine.withWord address word) bounded reaches⟩
  | flag change next ih =>
    intro machine bounded reaches
    exact ih { machine with flags := change machine.flags } bounded reaches
  | report word next ih =>
    intro machine bounded reaches
    exact ih machine bounded reaches
  | unknown code next ih =>
    intro machine bounded reaches
    exact ih machine bounded reaches

/-- An instruction stays within the slots and within memory, because its demand is checked first. -/
theorem Machine.accesses_inRange (machine : Machine) (bounded : machine.stack.depth ≤ Stack.capacity)
    (code : Code) : ∀ access ∈ machine.accesses code, access.InRange := by
  -- A refused instruction reaches for nothing, and the actions of any other find what they need.
  have reaches := code.micro_reaches bounded
  rw [machine.stack.outcome_eq_check] at reaches
  unfold accesses
  split
  · intro access listed
    cases listed
  · rename_i met
    rw [met] at reaches
    exact code.micro.accesses_inRange machine bounded reaches

namespace Stack

/-- The slot that lies `below` the top, if there is one. -/
def slotBelow? (stack : Stack) (below : Nat) : Option (Fin 16) :=
  if there : below < stack.depth ∧ stack.depth - 1 - below < 16 then some ⟨_, there.2⟩ else none

/-- The word that lies `below` the top, if its slot exists. -/
def peekInside (stack : Stack) (below : Nat) : Option Word :=
  (stack.slotBelow? below).map fun (slot : Fin 16) => stack.slots[slot]

/-- Puts a word in the next slot, if that slot exists. -/
def pushInside (stack : Stack) (word : Word) : Option Stack :=
  if inside : stack.depth < 16 then some ⟨stack.slots.set stack.depth word, stack.depth + 1⟩ else none

/-- Takes the word out of the top slot, if that slot exists. -/
def popInside (stack : Stack) : Option (Word × Stack) :=
  (stack.slotBelow? 0).map fun (slot : Fin 16) => (stack.slots[slot], ⟨stack.slots.set slot 0, slot.val⟩)

/-- Setting a slot that exists needs no allowance for one that does not. -/
private theorem setIfInBounds_inside (slots : Vector Word 16) {slot : Nat} (inside : slot < 16) (word : Word) :
    slots.setIfInBounds slot word = slots.set slot word := by
  apply Vector.ext
  intro number bound
  rw [Vector.getElem_setIfInBounds, Vector.getElem_set]

/-- A slot in range below the top exists, at the index that an unchecked look uses. -/
theorem slotBelow?_eq {stack : Stack} {below : Nat}
    (inRange : (Access.slot (stack.depth - 1 - below)).InRange) :
    ∃ inside : stack.depth - 1 - below < 16, stack.slotBelow? below = some ⟨_, inside⟩ := by
  obtain ⟨low, high⟩ := inRange
  have there : below < stack.depth := by omega
  have inside : stack.depth - 1 - below < 16 := by omega
  exact ⟨inside, dif_pos ⟨there, inside⟩⟩

/-- An unchecked look at a slot in range finds the word of that slot. -/
theorem peekInside_eq {stack : Stack} {below : Nat}
    (inRange : (Access.slot (stack.depth - 1 - below)).InRange) :
    stack.peekInside below = some (stack.peek below) := by
  obtain ⟨inside, found⟩ := slotBelow?_eq inRange
  simp [peekInside, peek, found, Vector.getD, inside]

/-- An unchecked push to a slot in range sets that slot. -/
theorem pushInside_eq {stack : Stack} (inRange : (Access.slot stack.depth).InRange) (word : Word) :
    stack.pushInside word = some (stack.pushUnchecked word) := by
  have inside : stack.depth < 16 := by
    obtain ⟨_, high⟩ := inRange
    omega
  simp [pushInside, pushUnchecked, inside, setIfInBounds_inside]

/-- An unchecked pop of a slot in range takes the word of that slot and clears it. -/
theorem popInside_eq {stack : Stack} (inRange : (Access.slot (stack.depth - 1)).InRange) :
    stack.popInside = some stack.popUnchecked := by
  obtain ⟨inside, found⟩ : ∃ inside : stack.depth - 1 - 0 < 16, stack.slotBelow? 0 = some ⟨_, inside⟩ := by
    apply slotBelow?_eq
    obtain ⟨low, high⟩ := inRange
    exact ⟨by omega, by omega⟩
  simp only [Nat.sub_zero] at inside found
  simp [popInside, popUnchecked, peek, found, Vector.getD, inside, setIfInBounds_inside]

end Stack

/-- Performs actions in order like an unchecked run, but breaks off where a slot does not exist. -/
def Micro.runInside : Micro → Machine → Option (Machine × List Event)
  | done, machine => some (machine, [])
  | push word next, machine => do
    let stack ← machine.stack.pushInside word
    let after := machine.withStack stack
    let (final, events) ← next.runInside after
    some (final, .changes after.stackBatch :: events)
  | pop next, machine => do
    let (word, stack) ← machine.stack.popInside
    let after := machine.withStack stack
    let (final, events) ← (next word).runInside after
    some (final, .changes after.stackBatch :: events)
  | top next, machine => do
    let word ← machine.stack.peekInside 0
    (next word).runInside machine
  | second next, machine => do
    let word ← machine.stack.peekInside 1
    (next word).runInside machine
  | read address next, machine => (next (machine.memory.read address)).runInside machine
  | write address word next, machine => do
    let (final, events) ← next.runInside (machine.withWord address word)
    some (final, .changes [⟨.memory, address.toWord, word⟩] :: events)
  | flag change next, machine => next.runInside { machine with flags := change machine.flags }
  | report word next, machine => do
    let (final, events) ← next.runInside machine
    some (final, .log (.debug machine.status machine.pc word) :: events)
  | unknown code next, machine => do
    let (final, events) ← next.runInside machine
    some (final, .log (.unknownOpcode machine.pc code) :: events)

/-- Actions that reach only for places in range never break off. -/
theorem Micro.runInside_eq (micro : Micro) :
    ∀ machine : Machine, (∀ access ∈ micro.accesses machine, access.InRange) →
      micro.runInside machine = some (micro.run machine) := by
  -- The first access allows the first action, and the others allow the rest.
  induction micro with
  | done =>
    intro machine _
    rfl
  | push word next ih =>
    intro machine inRange
    obtain ⟨slot, inRange⟩ := List.forall_mem_cons.1 inRange
    simp only [runInside, run, Stack.pushInside_eq slot word, Option.bind_eq_bind, Option.bind_some]
    rw [ih _ inRange]
    rfl
  | pop next ih =>
    intro machine inRange
    obtain ⟨slot, inRange⟩ := List.forall_mem_cons.1 inRange
    simp only [runInside, run, Stack.popInside_eq slot, Option.bind_eq_bind, Option.bind_some]
    rw [ih machine.stack.popUnchecked.1 (machine.withStack machine.stack.popUnchecked.2) inRange]
    rfl
  | top next ih =>
    intro machine inRange
    obtain ⟨slot, inRange⟩ := List.forall_mem_cons.1 inRange
    simp only [runInside, run, Stack.peekInside_eq slot, Option.bind_eq_bind, Option.bind_some]
    exact ih _ machine inRange
  | second next ih =>
    intro machine inRange
    obtain ⟨slot, inRange⟩ := List.forall_mem_cons.1 inRange
    simp only [runInside, run, Stack.peekInside_eq slot, Option.bind_eq_bind, Option.bind_some]
    exact ih _ machine inRange
  | read address next ih =>
    intro machine inRange
    exact ih _ machine (List.forall_mem_cons.1 inRange).2
  | write address word next ih =>
    intro machine inRange
    rw [runInside, ih _ (List.forall_mem_cons.1 inRange).2]
    rfl
  | flag change next ih =>
    intro machine inRange
    exact ih _ inRange
  | report word next ih =>
    intro machine inRange
    rw [runInside, ih machine inRange]
    rfl
  | unknown code next ih =>
    intro machine inRange
    rw [runInside, ih machine inRange]
    rfl

/-- Executes an instruction, but breaks off where it reaches for a slot that does not exist. -/
def Machine.executeInside (machine : Machine) (code : Code) : Option Response :=
  match machine.stack.check code.demand with
  | .error cause => some (machine.refused code cause)
  | .ok () => (code.micro.runInside machine).map (machine.completed code)

/-- No instruction breaks off on a stack within its slots. -/
theorem Machine.executeInside_eq (machine : Machine) (bounded : machine.stack.depth ≤ Stack.capacity)
    (code : Code) : machine.executeInside code = some (machine.execute code) := by
  -- The two differ in nothing but the run, which is made only if the demand is met.
  have inRange := machine.accesses_inRange bounded code
  unfold accesses at inRange
  unfold executeInside execute
  cases checked : machine.stack.check code.demand with
  | error cause => rfl
  | ok _ =>
    rw [checked] at inRange
    simp only [code.micro.runInside_eq machine inRange, Option.map_some]
    rfl

end StackMachine
