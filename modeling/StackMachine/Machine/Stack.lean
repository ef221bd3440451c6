import StackMachine.Machine.Memory

/-! The operand stack: sixteen slots, of which the lowest are in use, with checked and unchecked operations. -/

namespace StackMachine

/-- Why a stack operation is refused. -/
inductive StackFault where
  | overflow
  | underflow
  deriving DecidableEq, Repr

/-- What an operation asks of the stack before it may run. -/
structure Demand where
  /-- How many words must be there. -/
  down : Nat
  /-- How many slots must be free. -/
  up : Nat
  deriving DecidableEq, Repr

/-- Sixteen slots, bottom first, and how many of them are in use. -/
structure Stack where
  slots : Vector Word 16
  depth : Nat
  deriving DecidableEq

namespace Stack

/-- How many words the stack can hold. -/
def capacity : Nat := 16

/-- The stack with no word on it and every slot zero. -/
def empty : Stack :=
  ⟨Vector.replicate 16 0, 0⟩

/-- The words in use, bottom first. -/
def live (stack : Stack) : List Word :=
  stack.slots.toList.take stack.depth

/-- The depth is within the slots, and every slot that is not in use holds zero. -/
structure WellFormed (stack : Stack) : Prop where
  bounded : stack.depth ≤ capacity
  cleared : ∀ (slot : Nat) (inside : slot < 16), stack.depth ≤ slot → stack.slots[slot] = 0

/-- Whether no word is on the stack. -/
def isEmpty (stack : Stack) : Bool :=
  stack.depth = 0

/-- Whether no slot is free. -/
def isFull (stack : Stack) : Bool :=
  stack.depth = capacity

/-- Checks a demand; missing words are reported before missing room. -/
def check (stack : Stack) (demand : Demand) : Except StackFault Unit :=
  if stack.depth < demand.down then .error .underflow
  else if capacity < stack.depth + demand.up then .error .overflow
  else .ok ()

/-- Puts a word in the next slot, without a check. -/
def pushUnchecked (stack : Stack) (word : Word) : Stack :=
  ⟨stack.slots.setIfInBounds stack.depth word, stack.depth + 1⟩

/-- The word that lies `below` the top, without a check. -/
def peek (stack : Stack) (below : Nat) : Word :=
  stack.slots.getD (stack.depth - 1 - below) 0

/-- Takes the top word off without a check, and clears its slot. -/
def popUnchecked (stack : Stack) : Word × Stack :=
  (stack.peek 0, ⟨stack.slots.setIfInBounds (stack.depth - 1) 0, stack.depth - 1⟩)

/-- Puts a word on top, if there is room. -/
def push (stack : Stack) (word : Word) : Except StackFault Stack := do
  stack.check ⟨0, 1⟩
  return stack.pushUnchecked word

/-- Takes the top word off, if there is one. -/
def pop (stack : Stack) : Except StackFault (Word × Stack) := do
  stack.check ⟨1, 0⟩
  return stack.popUnchecked

/-- The top word, if there is one. -/
def top (stack : Stack) : Except StackFault Word := do
  stack.check ⟨1, 0⟩
  return stack.peek 0

/-- The word below the top, if there is one. -/
def second (stack : Stack) : Except StackFault Word := do
  stack.check ⟨2, 0⟩
  return stack.peek 1

/-- Pushes words in order onto a stack until one does not fit; the words that fitted stay. -/
def pushAll (stack : Stack) : List Word → Option StackFault × Stack
  | [] => (none, stack)
  | word :: rest =>
    match stack.push word with
    | .ok grown => grown.pushAll rest
    | .error fault => (some fault, stack)

/-- There are as many words in use as the depth says. -/
theorem length_live {stack : Stack} (bounded : stack.depth ≤ capacity) : stack.live.length = stack.depth := by
  rw [live, List.length_take, Vector.length_toList]
  exact Nat.min_eq_left bounded

/-- A pushed word comes on top of the words in use. -/
theorem live_pushUnchecked {stack : Stack} (room : stack.depth < capacity) (word : Word) :
    (stack.pushUnchecked word).live = stack.live ++ [word] := by
  -- The slots below the depth are untouched, and the next one holds the new word.
  have inside : stack.depth < 16 := room
  simp only [live, pushUnchecked, Vector.toList_setIfInBounds]
  rw [List.take_succ_eq_append_getElem (by simpa using inside), List.take_set_of_le (Nat.le_refl _)]
  simp

/-- The word that lies `below` the top is that far from the end of the words in use. -/
theorem live_getElem?_peek {stack : Stack} (bounded : stack.depth ≤ capacity) {below : Nat}
    (there : below < stack.depth) : stack.live[stack.depth - 1 - below]? = some (stack.peek below) := by
  have inside : stack.depth - 1 - below < 16 := by
    have limit : capacity = 16 := rfl
    omega
  rw [live, List.getElem?_take_of_lt (by omega)]
  simp [peek, Vector.getD, inside]

/-- A popped word was on top of the words that stay in use. -/
theorem live_popUnchecked {stack : Stack} (bounded : stack.depth ≤ capacity) (there : 0 < stack.depth) :
    stack.live = stack.popUnchecked.2.live ++ [stack.popUnchecked.1] := by
  -- One slot less is in use, and clearing that slot does not touch the ones below it.
  obtain ⟨slots, depth⟩ := stack
  obtain ⟨below, rfl⟩ : ∃ below, depth = below + 1 := ⟨depth - 1, by simp only at there; omega⟩
  have inside : below < 16 := bounded
  simp only [live, popUnchecked, peek, Nat.add_sub_cancel, Nat.sub_zero, Vector.toList_setIfInBounds]
  rw [List.take_succ_eq_append_getElem (by simpa using inside), List.take_set_of_le (Nat.le_refl _)]
  simp [Vector.getD, inside]

/-- The empty stack is well formed. -/
theorem WellFormed.empty : Stack.empty.WellFormed where
  bounded := by decide
  cleared slot inside _ := by simp [Stack.empty]

/-- A push that has room leaves the stack well formed. -/
theorem WellFormed.pushUnchecked {stack : Stack} (formed : stack.WellFormed) (room : stack.depth < capacity)
    (word : Word) : (stack.pushUnchecked word).WellFormed where
  bounded := room
  cleared slot inside above := by
    simp only [Stack.pushUnchecked] at above ⊢
    rw [Vector.getElem_setIfInBounds_ne (by omega) (by omega)]
    exact formed.cleared slot inside (by omega)

/-- A pop leaves the stack well formed, because it clears the slot it leaves. -/
theorem WellFormed.popUnchecked {stack : Stack} (formed : stack.WellFormed) :
    stack.popUnchecked.2.WellFormed where
  bounded := by
    have limit := formed.bounded
    simp only [Stack.popUnchecked]
    omega
  cleared slot inside above := by
    simp only [Stack.popUnchecked] at above ⊢
    rw [Vector.getElem_setIfInBounds]
    split
    · rfl
    · exact formed.cleared slot inside (by omega)

end Stack

end StackMachine
