import StackMachine.Proofs.Machine.Depth
import StackMachine.Proofs.Machine.ListMachine

/-! The checked stack is a list of at most sixteen words: it gives the same answers to every sequence of calls. -/

namespace StackMachine

/-- A call of a checked stack operation. -/
inductive StackCall where
  | push (word : Word)
  | pop
  | top
  | second
  | reset
  deriving DecidableEq, Repr

namespace StackCall

/-- What a call returns: a fault, the word that was asked for, or nothing where none was. -/
abbrev Answer := Except StackFault (Option Word)

/-- The fault of a call where a number of words are held, if it is refused there. -/
def fault? : StackCall → Nat → Option StackFault
  | push _, held => if held = 16 then some .overflow else none
  | pop, held | top, held => if held = 0 then some .underflow else none
  | second, held => if held < 2 then some .underflow else none
  | reset, _ => none

end StackCall

/-- Makes a call to a stack; one that is refused leaves it as it is. -/
def Stack.call (stack : Stack) : StackCall → StackCall.Answer × Stack
  | .push word =>
    match stack.push word with
    | .ok grown => (.ok none, grown)
    | .error fault => (.error fault, stack)
  | .pop =>
    match stack.pop with
    | .ok (word, rest) => (.ok (some word), rest)
    | .error fault => (.error fault, stack)
  | .top => (stack.top.map some, stack)
  | .second => (stack.second.map some, stack)
  | .reset => (.ok none, .empty)

/-- Makes calls to a stack in order, and collects what they return. -/
def Stack.callAll (stack : Stack) : List StackCall → List StackCall.Answer × Stack
  | [] => ([], stack)
  | call :: rest =>
    let (answer, next) := stack.call call
    let (answers, final) := next.callAll rest
    (answer :: answers, final)

namespace WordList

/-- The list without words. -/
def empty : WordList :=
  ⟨[], Nat.zero_le _⟩

/-- Makes a call to a list, which holds no more words than the stack has slots. -/
def call (list : WordList) : StackCall → StackCall.Answer × WordList
  | .push word =>
    if room : list.words.length < Stack.capacity then (.ok none, ⟨word :: list.words, room⟩)
    else (.error .overflow, list)
  | .pop =>
    match list with
    | ⟨top :: rest, bounded⟩ => (.ok (some top), ⟨rest, Nat.le_of_succ_le bounded⟩)
    | ⟨[], _⟩ => (.error .underflow, list)
  | .top =>
    match list.words with
    | top :: _ => (.ok (some top), list)
    | [] => (.error .underflow, list)
  | .second =>
    match list.words with
    | _ :: below :: _ => (.ok (some below), list)
    | _ => (.error .underflow, list)
  | .reset => (.ok none, empty)

/-- Makes calls to a list in order, and collects what they return. -/
def callAll (list : WordList) : List StackCall → List StackCall.Answer × WordList
  | [] => ([], list)
  | call :: rest =>
    let (answer, next) := list.call call
    let (answers, final) := next.callAll rest
    (answer :: answers, final)

/-- Calls can be made in two parts. -/
theorem callAll_append (list : WordList) (first second : List StackCall) :
    list.callAll (first ++ second) =
      ((list.callAll first).1 ++ ((list.callAll first).2.callAll second).1,
        ((list.callAll first).2.callAll second).2) := by
  induction first generalizing list with
  | nil => rfl
  | cons call rest ih =>
    -- The first call leaves the list from which the rest of the first part goes on.
    simp only [List.cons_append, callAll, ih]

/-- A push that has room puts its word on top. -/
theorem call_push {list : WordList} (room : list.words.length < Stack.capacity) (word : Word) :
    list.call (.push word) = (.ok none, ⟨word :: list.words, room⟩) :=
  dif_pos room

/-- Words that are pushed are popped in reverse order, and the list is as it was. -/
theorem callAll_push_pop (words : List Word) (list : WordList)
    (room : list.words.length + words.length ≤ Stack.capacity) :
    list.callAll (words.map .push ++ List.replicate words.length .pop) =
      (words.map (fun _ => .ok none) ++ words.reverse.map (fun word => .ok (some word)), list) := by
  induction words generalizing list with
  | nil => rfl
  | cons word rest ih =>
    rw [List.length_cons] at room
    have free : list.words.length < Stack.capacity := by omega
    -- The later words are pushed onto the first one and popped again, which leaves it on top for the last pop.
    have inner := ih ⟨word :: list.words, free⟩ (by rw [List.length_cons]; omega)
    rw [List.length_cons, List.replicate_succ', ← List.append_assoc, callAll_append]
    simp only [List.map_cons, List.cons_append, callAll, call_push free, inner]
    simp only [call, List.reverse_cons, List.map_append, List.append_assoc, List.map_cons, List.map_nil]

end WordList

/-- A well-formed stack whose words in use are those of a list, the top one first. -/
structure Stack.Holds (stack : Stack) (list : WordList) : Prop where
  formed : stack.WellFormed
  live : stack.live = list.words.reverse

namespace Stack.Holds

variable {stack : Stack} {list : WordList}

/-- The empty stack holds the empty list. -/
theorem empty : Stack.empty.Holds .empty :=
  ⟨.empty, rfl⟩

/-- The depth is the number of words in the list. -/
theorem depth (holds : stack.Holds list) : stack.depth = list.words.length := by
  rw [← length_live holds.formed.bounded, holds.live, List.length_reverse]

/-- The slots are the words of the list, bottom first, and zeros above them. -/
theorem slots (holds : stack.Holds list) :
    stack.slots.toList = list.words.reverse ++ List.replicate (16 - list.words.length) 0 := by
  have bounded : stack.depth ≤ 16 := holds.formed.bounded
  -- The slots in use are the live words by definition, and all others are clear.
  have above : stack.slots.toList.drop stack.depth = List.replicate (16 - stack.depth) 0 := by
    rw [List.eq_replicate_iff]
    refine ⟨by rw [List.length_drop, Vector.length_toList], ?_⟩
    intro word within
    obtain ⟨index, inside, rfl⟩ := List.getElem_of_mem within
    rw [List.length_drop, Vector.length_toList] at inside
    rw [List.getElem_drop, Vector.getElem_toList]
    exact holds.formed.cleared _ (by omega) (by omega)
  calc stack.slots.toList
      = stack.live ++ stack.slots.toList.drop stack.depth := (List.take_append_drop _ _).symm
    _ = list.words.reverse ++ List.replicate (16 - list.words.length) 0 := by rw [holds.live, above, holds.depth]

/-- Stacks that hold the same list are the same. -/
theorem unique {other : Stack} (holds : stack.Holds list) (otherHolds : other.Holds list) : stack = other := by
  -- The list fixes every slot, those above its words included.
  have slots : stack.slots = other.slots := Vector.toList_inj.mp (holds.slots.trans otherHolds.slots.symm)
  have depth : stack.depth = other.depth := holds.depth.trans otherHolds.depth.symm
  cases stack
  cases other
  simp only [Stack.mk.injEq]
  exact ⟨slots, depth⟩

/-- The word that lies `below` the top of the stack is that far from the head of the list. -/
theorem peek (holds : stack.Holds list) {below : Nat} (there : below < stack.depth) :
    list.words[below]? = some (stack.peek below) := by
  -- The list counts from the top, the live words from the bottom.
  have found := live_getElem?_peek holds.formed.bounded there
  have length := holds.depth
  rw [holds.live, List.getElem?_reverse (by omega)] at found
  rw [← found]
  congr 1
  omega

/-- A push answers alike on a stack and on the list that it holds, and the stack goes on holding the list. -/
theorem push (holds : stack.Holds list) (word : Word) :
    (stack.call (.push word)).1 = (list.call (.push word)).1 ∧
      (stack.call (.push word)).2.Holds (list.call (.push word)).2 := by
  simp only [Stack.call, push_eq, WordList.call, ← holds.depth]
  by_cases room : stack.depth < capacity
  · simp only [if_pos room, dif_pos room, true_and]
    refine ⟨holds.formed.pushUnchecked room word, ?_⟩
    rw [live_pushUnchecked room, holds.live, List.reverse_cons]
  · -- No slot is free, so that neither the stack nor the list changes.
    simp only [if_neg room, dif_neg room, true_and]
    exact holds

/-- A pop answers alike on a stack and on the list that it holds, and the stack goes on holding the list. -/
theorem pop (holds : stack.Holds list) :
    (stack.call .pop).1 = (list.call .pop).1 ∧ (stack.call .pop).2.Holds (list.call .pop).2 := by
  have bounded := holds.formed.bounded
  have depth := holds.depth
  simp only [Stack.call, pop_eq bounded]
  obtain ⟨_ | ⟨top, rest⟩, fits⟩ := list
  · -- Neither has a word to give.
    rw [if_neg (by rw [depth]; exact Nat.not_succ_le_zero 0)]
    exact ⟨rfl, holds⟩
  · have there : 1 ≤ stack.depth := by
      rw [depth]
      exact Nat.succ_pos rest.length
    -- The last of the live words is the head of the list, and the others are its rest.
    have split := live_popUnchecked bounded there
    rw [holds.live, List.reverse_cons] at split
    obtain ⟨below, above⟩ := List.append_inj' split rfl
    simp only [if_pos there, WordList.call, List.cons.inj above, true_and]
    exact ⟨holds.formed.popUnchecked, below.symm⟩

/-- A look at the top answers alike on a stack and on the list that it holds, and changes neither. -/
theorem top (holds : stack.Holds list) :
    (stack.call .top).1 = (list.call .top).1 ∧ (stack.call .top).2.Holds (list.call .top).2 := by
  have depth := holds.depth
  simp only [Stack.call, top_eq holds.formed.bounded, WordList.call]
  by_cases there : 1 ≤ stack.depth
  · -- The word on top of the stack is the head of the list, which therefore has one.
    have found := holds.peek there
    rw [if_pos there]
    match words : list.words with
    | [] => simp [words] at found
    | word :: rest =>
      simp only [words, List.getElem?_cons_zero, Option.some.injEq] at found
      rw [found]
      exact ⟨rfl, holds⟩
  · have none : list.words = [] := List.eq_nil_of_length_eq_zero (by omega)
    rw [if_neg there]
    simp only [none]
    exact ⟨rfl, holds⟩

/-- A look below the top answers alike on a stack and on the list that it holds, and changes neither. -/
theorem second (holds : stack.Holds list) :
    (stack.call .second).1 = (list.call .second).1 ∧ (stack.call .second).2.Holds (list.call .second).2 := by
  have depth := holds.depth
  simp only [Stack.call, second_eq holds.formed.bounded, WordList.call]
  by_cases there : 2 ≤ stack.depth
  · have found := holds.peek there
    rw [if_pos there]
    match words : list.words with
    | [] | [_] => simp [words] at found
    | word :: below :: rest =>
      simp only [words, List.getElem?_cons_succ, List.getElem?_cons_zero, Option.some.injEq] at found
      rw [found]
      exact ⟨rfl, holds⟩
  · rw [if_neg there]
    match words : list.words with
    | [] | [_] => exact ⟨rfl, holds⟩
    | _ :: _ :: rest =>
      -- Two words would make the stack two deep.
      rw [words, List.length_cons, List.length_cons] at depth
      omega

/-- Every call returns the same from the stack and the list, and leaves the stack holding the list. -/
theorem call (holds : stack.Holds list) (call : StackCall) :
    (stack.call call).1 = (list.call call).1 ∧ (stack.call call).2.Holds (list.call call).2 := by
  cases call with
  | push word => exact holds.push word
  | pop => exact holds.pop
  | top => exact holds.top
  | second => exact holds.second
  | reset => exact ⟨rfl, .empty⟩

/-- Any number of calls return the same from the stack and the list. -/
theorem callAll (holds : stack.Holds list) (calls : List StackCall) :
    (stack.callAll calls).1 = (list.callAll calls).1 ∧ (stack.callAll calls).2.Holds (list.callAll calls).2 := by
  induction calls generalizing stack list with
  | nil => exact ⟨rfl, holds⟩
  | cons call rest ih =>
    -- The first call leaves the stack holding the list, and the later ones go on from there.
    obtain ⟨answer, next⟩ := holds.call call
    obtain ⟨answers, final⟩ := ih next
    refine ⟨?_, final⟩
    simp only [Stack.callAll, WordList.callAll, answer, answers]

end Stack.Holds

namespace Stack

/-- A call is refused exactly where the number of words in use says so. -/
theorem call_error_iff {stack : Stack} (bounded : stack.depth ≤ capacity) (call : StackCall) (fault : StackFault) :
    (stack.call call).1 = .error fault ↔ call.fault? stack.depth = some fault := by
  have limit : capacity = 16 := rfl
  -- The checks compare the depth with the room for one word, or with the one or two words that are needed.
  cases call with
  | push word =>
    simp only [Stack.call, push_eq, StackCall.fault?]
    split <;> grind
  | pop =>
    simp only [Stack.call, pop_eq bounded, StackCall.fault?]
    split <;> grind
  | top =>
    simp only [Stack.call, top_eq bounded, StackCall.fault?]
    split <;> grind [Except.map]
  | second =>
    simp only [Stack.call, second_eq bounded, StackCall.fault?]
    split <;> grind [Except.map]
  | reset => simp [Stack.call, StackCall.fault?]

/-- A call that is refused changes nothing. -/
theorem call_refused {stack : Stack} {call : StackCall} {fault : StackFault}
    (refused : (stack.call call).1 = .error fault) : (stack.call call).2 = stack := by
  cases call with
  | push word =>
    simp only [Stack.call] at refused ⊢
    split at refused
    · cases refused
    · rfl
  | pop =>
    simp only [Stack.call] at refused ⊢
    split at refused
    · cases refused
    · rfl
  | top | second => rfl
  | reset => cases refused

/--
A stack that starts empty behaves as a list of at most sixteen words.

Whatever calls are made, they return what they return from the list. The depth, the tests for an empty and a full stack
and the sixteen slots are those of the list, with zeros above its words. A call is refused exactly where the number of
words says so, and then it changes nothing, as do looks at the stack. Words that are pushed and popped again come back
in reverse order and leave the stack exactly as it was.
-/
theorem callAll_listed (calls : List StackCall) :
    let stack := (Stack.empty.callAll calls).2
    let words := (WordList.empty.callAll calls).2.words
    (Stack.empty.callAll calls).1 = (WordList.empty.callAll calls).1 ∧
      (stack.depth = words.length ∧ (stack.isEmpty ↔ words = []) ∧ (stack.isFull ↔ words.length = 16) ∧
        stack.slots.toList = words.reverse ++ List.replicate (16 - words.length) 0) ∧
      (∀ call fault, (stack.call call).1 = .error fault ↔ call.fault? words.length = some fault) ∧
      (∀ call, (∃ fault, (stack.call call).1 = .error fault) ∨ call = .top ∨ call = .second →
        (stack.call call).2 = stack) ∧
      ∀ more : List Word, more.length ≤ 16 - stack.depth →
        stack.callAll (more.map .push ++ List.replicate more.length .pop) =
          (more.map (fun _ => .ok none) ++ more.reverse.map (fun word => .ok (some word)), stack) := by
  intro stack words
  obtain ⟨answers, holds⟩ := Holds.empty.callAll calls
  have bounded : stack.depth ≤ 16 := holds.formed.bounded
  have depth : stack.depth = words.length := holds.depth
  refine ⟨answers, ⟨depth, ?_, ?_, holds.slots⟩, ?_, ?_, ?_⟩
  · rw [isEmpty, decide_eq_true_iff, depth, List.length_eq_zero_iff]
  · rw [isFull, decide_eq_true_iff, depth]
    rfl
  · intro call fault
    rw [← depth]
    exact call_error_iff bounded call fault
  · rintro call (⟨fault, refused⟩ | rfl | rfl)
    · exact call_refused refused
    · rfl
    · rfl
  · intro more room
    -- The list gives the words back and is as it was, and only one stack holds it.
    have limit : capacity = 16 := rfl
    have fits : words.length + more.length ≤ capacity := by omega
    have listed := WordList.callAll_push_pop more (WordList.empty.callAll calls).2 fits
    obtain ⟨same, after⟩ := holds.callAll (more.map .push ++ List.replicate more.length .pop)
    rw [listed] at same after
    exact Prod.ext same (after.unique holds)

/-- A stack that has refused a seventeenth word and given two back has room for two others. -/
theorem callAll_listed_refilled :
    let calls := (List.replicate 17 (.push 5)) ++ [.pop, .pop]
    let stack := (Stack.empty.callAll calls).2
    ([7, 8] : List Word).length ≤ 16 - stack.depth ∧
      stack.callAll [.push 7, .push 8, .pop, .pop] =
        ([.ok none, .ok none, .ok (some 8), .ok (some 7)], stack) := by
  intro calls stack
  have room : ([7, 8] : List Word).length ≤ 16 - stack.depth := by decide +kernel
  exact ⟨room, (callAll_listed calls).2.2.2.2 [7, 8] room⟩

end Stack

end StackMachine
