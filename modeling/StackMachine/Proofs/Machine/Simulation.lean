import StackMachine.Bench
import StackMachine.Proofs.Machine.Depth
import StackMachine.Proofs.Machine.ListMachine

/-! The machine with a list for a stack simulates every run of the machine, step by step. -/

namespace StackMachine

/-- Performs actions on contents, and stops where a word or the room for one is missing. -/
def Micro.runListed : Micro → Contents → Option Contents
  | done, before => some before
  | push word next, before =>
    if before.words.length < Stack.capacity then
      next.runListed { before with words := word :: before.words }
    else none
  | pop next, before =>
    match before.words with
    | word :: rest => (next word).runListed { before with words := rest }
    | [] => none
  | top next, before =>
    match before.words[0]? with
    | some word => (next word).runListed before
    | none => none
  | second next, before =>
    match before.words[1]? with
    | some word => (next word).runListed before
    | none => none
  | read address next, before => (next (before.memory address)).runListed before
  | write address word next, before =>
    next.runListed { before with memory := Contents.written before.memory address.val word }
  | flag change next, before => next.runListed { before with flags := change before.flags }
  | report _ next, before => next.runListed before
  | unknown _ next, before => next.runListed before

/-- An address is the one in the low twelve bits of its own number. -/
theorem Address.ofNumber_val (address : Address) : ofNumber address.val = address :=
  Fin.ext (Nat.mod_eq_of_lt address.isLt)

/-- The low twelve bits of a word are the same address however they are cut out. -/
theorem Address.ofNumber_toNat (place : Word) : ofNumber place.toNat = ofWord place := rfl

/-- The flag for the sign of a word is the one for the number it stands for. -/
theorem Contents.signFlag_eq (word : Word) : signFlag word = .ofSign (signedValue word) := by
  -- The number is the word itself in the lower half, and lies below zero in the upper half.
  have value : signedValue word =
      if 2 * word.toNat < 65536 then (word.toNat : Int) else (word.toNat : Int) - 65536 := by
    simp [signedValue, BitVec.toInt_eq_toNat_cond]
  have small := word.toNat_lt
  rw [signFlag, Flags.ofSign, value]
  grind

/-- The exact difference of two words, with the borrow dropped, is the difference of words. -/
theorem ofInt_sub_toNat (left right : Word) :
    UInt16.ofInt ((left.toNat : Int) - right.toNat) = left - right := by
  -- Both sides are the difference modulo the number of words.
  have leftSmall := left.toNat_lt
  have rightSmall := right.toNat_lt
  apply UInt16.toNat_inj.mp
  rw [UInt16.ofInt, UInt16.toNat_ofNat', UInt16.toNat_sub]
  omega

/-- The exact sum of two words, with the carry dropped, is the sum of words. -/
theorem toUInt16_add_toNat (left right : Word) : (left.toNat + right.toNat).toUInt16 = left + right := by
  apply UInt16.toNat_inj.mp
  rw [UInt16.toNat_add]
  rfl

/-- The exact difference of two words is below zero exactly when the first is below the second. -/
theorem sub_toNat_neg_iff (left right : Word) : (left.toNat : Int) - right.toNat < 0 ↔ left < right := by
  rw [UInt16.lt_iff_toNat_lt]
  omega

/-- The carry flag is added where a result did not fit. -/
theorem Flags.carryIf_decide (lost : Prop) [Decidable lost] (flags : Flags) :
    flags.carryIf (decide lost) = if lost then flags.union carry else flags := by
  simp only [carryIf, decide_eq_true_eq]

/-- The number of an operation that carries no address. -/
def ZeroOp.number : ZeroOp → Nat
  | nop => 0x00
  | compare => 0x01
  | debug => 0x0F
  | push => 0x10
  | pushHigh => 0x11
  | drop => 0x14
  | dup => 0x15
  | swap => 0x18
  | copyBelow => 0x19
  | add => 0x20
  | sub => 0x21
  | loadIndirect => 0x44
  | storeIndirect => 0x45

/-- The number of an operation that carries an address. -/
def AddressOp.number : AddressOp → Nat
  | load => 0x8
  | store => 0x9

/-- An operation that carries an address is found under its own number only. -/
theorem AddressOp.eq_number {number : Nat} {operation : AddressOp}
    (found : ofNumber? number = some operation) : number = operation.number := by
  unfold ofNumber? at found
  split at found <;> cases found <;> rfl

/-- An operation that carries no address is found under its own number only. -/
theorem ZeroOp.eq_number {number : Nat} {operation : ZeroOp}
    (found : ofNumber? number = some operation) : number = operation.number := by
  unfold ofNumber? at found
  split at found <;> cases found <;> rfl

namespace Contents

/-- The contents, if their words fit the stack. -/
def fitted (contents : Contents) : Option Contents :=
  if contents.words.length ≤ Stack.capacity then some contents else none

/-- A number that no operation with an address has is a row that changes nothing. -/
theorem addressRow_unknown {number : Nat} (missing : AddressOp.ofNumber? number = none) (address : Nat)
    (before : Contents) : before.addressRow number address = some before := by
  unfold addressRow
  split
  · cases missing
  · cases missing
  · rfl

/-- A number that no operation without an address has is a row that changes nothing. -/
theorem zeroRow_unknown {number : Nat} (missing : ZeroOp.ofNumber? number = none) (operand : Nat)
    (before : Contents) : before.zeroRow number operand = some before := by
  unfold zeroRow
  -- The numbers with a row of their own all have an operation, and the first of them changes nothing either.
  split
  case h_1 => rfl
  case h_14 => rfl
  all_goals cases missing

/-- A place in the low twelve bits of a word is written like the word itself. -/
theorem written_ofWord (memory : Address → Word) (place word : Word) :
    written memory (Address.ofWord place).val word = written memory place.toNat word := by
  unfold written
  rw [Address.ofNumber_val, Address.ofNumber_toNat]

/-- Contents whose words fit are kept as they are. -/
theorem fitted_of_le {contents : Contents} (fits : contents.words.length ≤ Stack.capacity) :
    fitted contents = some contents :=
  if_pos fits

/-- One more word fits exactly where it can be pushed. -/
theorem fitted_cons (flags : Flags) (word : Word) (words : List Word) (memory : Address → Word) :
    fitted ⟨flags, word :: words, memory⟩ = (Micro.push word .done).runListed ⟨flags, words, memory⟩ := rfl

/-- The row of an operation that carries an address does what its actions do. -/
theorem addressRow_number (operation : AddressOp) (address : Address) (before : Contents)
    (bounded : before.words.length ≤ Stack.capacity) :
    (before.addressRow operation.number address.val).bind fitted =
      (operation.micro address).runListed before := by
  obtain ⟨flags, words, memory⟩ := before
  cases operation with
  | load =>
    show fitted ⟨flags, memory (.ofNumber address.val) :: words, memory⟩ = _
    rw [Address.ofNumber_val]
    exact fitted_cons flags _ words memory
  | store =>
    rcases words with _ | ⟨top, rest⟩
    · rfl
    · exact fitted_of_le (Nat.le_of_succ_le bounded)

/-- The row of an operation that carries no address does what its actions do. -/
theorem zeroRow_number (operation : ZeroOp) (operand : UInt8) (before : Contents)
    (bounded : before.words.length ≤ Stack.capacity) :
    (before.zeroRow operation.number operand.toNat).bind fitted =
      (operation.micro operand).runListed before := by
  -- Where a word is missing neither side is defined, and otherwise only the room for the result is left to compare.
  obtain ⟨flags, words, memory⟩ := before
  cases operation with
  | nop => exact fitted_of_le bounded
  | compare =>
    rcases words with _ | ⟨top, rest⟩
    · rfl
    · show fitted ⟨signFlag top, top :: rest, memory⟩ = _
      rw [signFlag_eq]
      exact fitted_of_le bounded
  | debug =>
    rcases words with _ | ⟨top, rest⟩
    · rfl
    · exact fitted_of_le bounded
  | push =>
    have same : operand.toNat.toUInt16 = operand.toUInt16 := by simp
    show fitted ⟨flags, operand.toNat.toUInt16 :: words, memory⟩ = _
    rw [same]
    exact fitted_cons flags _ words memory
  | pushHigh =>
    rcases words with _ | ⟨top, rest⟩
    · rfl
    · exact fitted_cons flags _ rest memory
  | drop =>
    rcases words with _ | ⟨top, rest⟩
    · rfl
    · exact fitted_of_le (Nat.le_of_succ_le bounded)
  | dup =>
    rcases words with _ | ⟨top, rest⟩
    · rfl
    · exact fitted_cons flags top (top :: rest) memory
  | swap =>
    rcases words with _ | ⟨top, _ | ⟨below, rest⟩⟩
    · rfl
    · rfl
    · -- Both words come back to the slots that they left.
      have room : rest.length < Stack.capacity := Nat.le_of_succ_le bounded
      show fitted ⟨flags, below :: top :: rest, memory⟩ =
        if rest.length < Stack.capacity then (Micro.push below .done).runListed ⟨flags, top :: rest, memory⟩ else none
      rw [if_pos room]
      exact fitted_cons flags below (top :: rest) memory
  | copyBelow =>
    rcases words with _ | ⟨top, _ | ⟨below, rest⟩⟩
    · rfl
    · rfl
    · exact fitted_cons flags below (top :: below :: rest) memory
  | add =>
    rcases words with _ | ⟨top, _ | ⟨below, rest⟩⟩
    · rfl
    · rfl
    · show fitted ⟨if 0xFFFF < below.toNat + top.toNat then flags.union .carry else flags,
          (below.toNat + top.toNat).toUInt16 :: rest, memory⟩ = _
      rw [← Flags.carryIf_decide, toUInt16_add_toNat]
      exact fitted_cons _ _ rest memory
  | sub =>
    rcases words with _ | ⟨top, _ | ⟨below, rest⟩⟩
    · rfl
    · rfl
    · show fitted ⟨if (below.toNat : Int) - top.toNat < 0 then flags.union .carry else flags,
          .ofInt (below.toNat - top.toNat) :: rest, memory⟩ = _
      rw [← Flags.carryIf_decide, decide_eq_decide.mpr (sub_toNat_neg_iff below top), ofInt_sub_toNat]
      exact fitted_cons _ _ rest memory
  | loadIndirect =>
    rcases words with _ | ⟨place, rest⟩
    · rfl
    · exact fitted_cons flags _ rest memory
  | storeIndirect =>
    rcases words with _ | ⟨place, _ | ⟨word, rest⟩⟩
    · rfl
    · rfl
    · show _ = some (Contents.mk flags rest (written memory (Address.ofWord place).val word))
      rw [written_ofWord]
      exact fitted_of_le (Nat.le_of_succ_le (Nat.le_of_succ_le bounded))

/-- The row of a word does what its actions do. -/
theorem row_eq (code : Code) (before : Contents) (bounded : before.words.length ≤ Stack.capacity) :
    (before.row code.word).bind fitted = code.micro.runListed before := by
  -- The top bit of the word decides the format, and the number in its field the row.
  have kept : fitted before = some before := if_pos bounded
  have operand : code.operand.toNat = code.word.toNat % 256 := UInt16.toNat_toUInt8 _
  unfold row Code.micro Code.instruction? Code.format
  by_cases low : code.word.toNat < 0x8000
  · have zero : ¬ 0x8000 ≤ code.word := by
      rw [UInt16.le_iff_toNat_le]
      exact Nat.not_le.mpr low
    simp only [if_pos low, if_neg zero]
    cases found : ZeroOp.ofNumber? code.zeroOperation with
    | none =>
      rw [Code.zeroOperation] at found
      rw [zeroRow_unknown found]
      exact kept
    | some operation =>
      have same := ZeroOp.eq_number found
      rw [Code.zeroOperation] at same
      rw [same, ← operand]
      exact zeroRow_number operation code.operand before bounded
  · have address : 0x8000 ≤ code.word := by
      rw [UInt16.le_iff_toNat_le]
      exact Nat.not_lt.mp low
    simp only [if_neg low, if_pos address]
    cases found : AddressOp.ofNumber? code.addressOperation with
    | none =>
      rw [Code.addressOperation] at found
      rw [addressRow_unknown found]
      exact kept
    | some operation =>
      have same := AddressOp.eq_number found
      rw [Code.addressOperation] at same
      rw [same]
      exact addressRow_number operation code.address before bounded

end Contents

namespace Machine

/-- What the instruction table sees of a machine. -/
def contents (machine : Machine) : Contents :=
  ⟨machine.flags, machine.stack.live.reverse, machine.memory.read⟩

/-- The table sees as many words as the stack is deep. -/
theorem length_contents {machine : Machine} (bounded : machine.stack.depth ≤ Stack.capacity) :
    machine.contents.words.length = machine.stack.depth := by
  rw [contents, List.length_reverse, Stack.length_live bounded]

/-- A pushed word is seen on top. -/
theorem contents_push {machine : Machine} (room : machine.stack.depth < Stack.capacity) (word : Word) :
    (machine.withStack (machine.stack.pushUnchecked word)).contents =
      { machine.contents with words := word :: machine.contents.words } := by
  simp only [contents, withStack, Stack.live_pushUnchecked room, List.reverse_append,
    List.reverse_singleton, List.singleton_append]

/-- A popped word was seen on top of the words that are seen afterwards. -/
theorem contents_pop {machine : Machine} (bounded : machine.stack.depth ≤ Stack.capacity)
    (there : 1 ≤ machine.stack.depth) :
    machine.contents = { (machine.withStack machine.stack.popUnchecked.2).contents with
      words := machine.stack.popUnchecked.1 ::
        (machine.withStack machine.stack.popUnchecked.2).contents.words } := by
  have popped := Stack.live_popUnchecked bounded there
  simp only [contents, withStack]
  rw [popped, List.reverse_append]
  rfl

/-- The word that lies `below` the top is seen that far down. -/
theorem contents_peek {machine : Machine} (bounded : machine.stack.depth ≤ Stack.capacity) {below : Nat}
    (there : below < machine.stack.depth) :
    machine.contents.words[below]? = some (machine.stack.peek below) := by
  -- The table counts from the top, the words in use from the bottom.
  have found := Stack.live_getElem?_peek bounded there
  have length := Stack.length_live bounded
  rw [contents, List.getElem?_reverse (by omega), length]
  exact found

/-- A written word is seen at its address. -/
theorem contents_withWord (machine : Machine) (address : Address) (word : Word) :
    (machine.withWord address word).contents =
      { machine.contents with
        memory := Contents.written machine.contents.memory address.val word } := by
  simp only [contents, withWord, Contents.mk.injEq, true_and]
  funext asked
  rw [Memory.read_write, Contents.written, Address.ofNumber_val]

end Machine

/-- Actions that the stack allows change what the table sees as they would change a list. -/
theorem Micro.runListed_run {final : Nat} (micro : Micro) :
    ∀ machine : Machine, machine.stack.depth ≤ Stack.capacity →
      micro.Reaches machine.stack.depth (.ok final) →
        micro.runListed machine.contents = some (micro.run machine).1.contents := by
  -- Each action follows one of the laws above, and the rest starts from what is seen then.
  induction micro with
  | done =>
    intro machine _ _
    rfl
  | push word next ih =>
    intro machine bounded reaches
    obtain ⟨room, reaches⟩ := reaches.push
    have rest := ih (machine.withStack (machine.stack.pushUnchecked word)) room reaches
    rw [Machine.contents_push room] at rest
    rw [runListed, Machine.length_contents bounded, if_pos room, rest]
    rfl
  | pop next ih =>
    intro machine bounded reaches
    obtain ⟨there, reaches⟩ := reaches.pop
    have rest := ih _ (machine.withStack machine.stack.popUnchecked.2) (Stack.depth_popUnchecked_le bounded)
      (reaches machine.stack.popUnchecked.1)
    rw [runListed, Machine.contents_pop bounded there]
    exact rest
  | top next ih =>
    intro machine bounded reaches
    obtain ⟨there, reaches⟩ := reaches.top
    have found := Machine.contents_peek bounded there
    simp only [runListed, found]
    exact ih (machine.stack.peek 0) machine bounded (reaches _)
  | second next ih =>
    intro machine bounded reaches
    obtain ⟨there, reaches⟩ := reaches.second
    have found := Machine.contents_peek bounded there
    simp only [runListed, found]
    exact ih (machine.stack.peek 1) machine bounded (reaches _)
  | read address next ih =>
    intro machine bounded reaches
    exact ih _ machine bounded (reaches _)
  | write address word next ih =>
    intro machine bounded reaches
    have rest := ih (machine.withWord address word) bounded reaches
    rw [Machine.contents_withWord] at rest
    exact rest
  | flag change next ih =>
    intro machine bounded reaches
    exact ih { machine with flags := change machine.flags } bounded reaches
  | report word next ih =>
    intro machine bounded reaches
    exact ih machine bounded reaches
  | unknown code next ih =>
    intro machine bounded reaches
    exact ih machine bounded reaches

/-- Actions that the stack refuses are not defined on as many words. -/
theorem Micro.runListed_refused {cause : StackFault} (micro : Micro) :
    ∀ before : Contents, micro.Reaches before.words.length (.error cause) →
      micro.runListed before = none := by
  -- A list lacks a word or the room for one exactly where a stack as deep would.
  induction micro with
  | done =>
    intro before reaches
    cases reaches
  | push word next ih =>
    intro before reaches
    simp only [Reaches, runListed] at reaches ⊢
    split
    · rename_i room
      rw [if_pos room] at reaches
      exact ih _ reaches
    · rfl
  | pop next ih =>
    intro before reaches
    simp only [Reaches, runListed] at reaches ⊢
    split
    · rename_i word rest held
      have there : 1 ≤ (word :: rest).length := Nat.succ_pos _
      rw [held, if_pos there] at reaches
      exact ih word { before with words := rest } (reaches word)
    · rfl
  | top next ih =>
    intro before reaches
    simp only [Reaches, runListed] at reaches ⊢
    split
    · rename_i word found
      have there : 1 ≤ before.words.length := (List.getElem?_eq_some_iff.mp found).1
      rw [if_pos there] at reaches
      exact ih word before (reaches word)
    · rfl
  | second next ih =>
    intro before reaches
    simp only [Reaches, runListed] at reaches ⊢
    split
    · rename_i word found
      have there : 2 ≤ before.words.length := (List.getElem?_eq_some_iff.mp found).1
      rw [if_pos there] at reaches
      exact ih word before (reaches word)
    · rfl
  | read address next ih =>
    intro before reaches
    exact ih _ before (reaches _)
  | write address word next ih =>
    intro before reaches
    exact ih _ reaches
  | flag change next ih =>
    intro before reaches
    exact ih _ reaches
  | report word next ih =>
    intro before reaches
    exact ih before reaches
  | unknown code next ih =>
    intro before reaches
    exact ih before reaches

/-- A machine and a list machine that hold the same. -/
structure Represents (machine : Machine) (listed : ListMachine) : Prop where
  pc : machine.pc.toNat = listed.pc
  status : machine.status = listed.status
  flags : machine.flags = listed.flags
  stack : machine.stack.live = listed.stack.words.reverse
  memory : ∀ address, machine.memory.read address = listed.memory address

namespace Represents

variable {machine : Machine} {listed : ListMachine}

/-- Machines that hold the same show the instruction table the same. -/
theorem contents (related : Represents machine listed) : machine.contents = listed.contents := by
  have memory : machine.memory.read = listed.memory := funext related.memory
  simp only [Machine.contents, ListMachine.contents, related.flags, related.stack, memory,
    List.reverse_reverse]

/-- Machines that agree on the registers and show the instruction table the same hold the same. -/
theorem of_contents (pc : machine.pc.toNat = listed.pc) (status : machine.status = listed.status)
    (same : machine.contents = listed.contents) : Represents machine listed := by
  simp only [Machine.contents, ListMachine.contents, Contents.mk.injEq] at same
  obtain ⟨flags, words, memory⟩ := same
  refine ⟨pc, status, flags, ?_, congrFun memory⟩
  rw [← words, List.reverse_reverse]

/-- Machines that hold the same fetch the same word. -/
theorem fetch (related : Represents machine listed) : machine.fetch.word = listed.fetch := by
  rw [Machine.fetch, ListMachine.fetch, related.memory, ← related.pc]
  rfl

end Represents

namespace ListMachine

/-- A word is executed by its row, if the row is defined and its words fit the stack. -/
theorem execute_eq (listed : ListMachine) (word : Word) :
    (listed.execute word).map contents = (listed.contents.row word).bind Contents.fitted := by
  -- The row may be undefined, and the words it leaves may be too many for the stack.
  unfold execute
  cases listed.contents.row word with
  | none => rfl
  | some after =>
    by_cases bounded : after.words.length ≤ Stack.capacity
    · simp [bounded, Contents.fitted, contents]
    · simp [bounded, Contents.fitted]

/-- A word that is executed moves the program counter on and leaves the status register alone. -/
theorem execute_registers {listed next : ListMachine} {word : Word}
    (executed : listed.execute word = some next) :
    next.pc = (listed.pc + 1) % 65536 ∧ next.status = listed.status := by
  unfold execute at executed
  cases rowed : listed.contents.row word with
  | none => simp [rowed] at executed
  | some after =>
    by_cases bounded : after.words.length ≤ Stack.capacity
    · simp only [rowed, bounded, Option.bind_eq_bind, Option.bind_some, dite_true, Option.some.injEq] at executed
      subst next
      exact ⟨rfl, rfl⟩
    · simp [rowed, bounded] at executed

end ListMachine

/-- An instruction is refused where its row is not defined, and otherwise does what its row does. -/
theorem Represents.execute {machine : Machine} {listed : ListMachine} (formed : machine.stack.WellFormed)
    (related : Represents machine listed) (code : Code) :
    (∃ cause, machine.execute code = machine.refused code cause ∧ listed.execute code.word = none) ∨
    (∃ next, listed.execute code.word = some next ∧ (machine.execute code).fault = none ∧
      (machine.execute code).machine.stack.WellFormed ∧
      Represents (machine.execute code).machine next) := by
  -- The row of the word is what its actions do to a list, and the actions do the same to the stack.
  have length := Machine.length_contents formed.bounded
  have rowed := listed.execute_eq code.word
  rw [← related.contents, Contents.row_eq code machine.contents (by rw [length]; exact formed.bounded)] at rowed
  rcases Machine.execute_cases formed.bounded code with ⟨cause, reaches, executed⟩ | ⟨final, reaches, executed⟩
  · rw [← length] at reaches
    rw [code.micro.runListed_refused machine.contents reaches] at rowed
    exact .inl ⟨cause, executed, Option.map_eq_none_iff.mp rowed⟩
  · rw [code.micro.runListed_run machine formed.bounded reaches] at rowed
    obtain ⟨next, found, same⟩ := Option.map_eq_some_iff.mp rowed
    obtain ⟨pc, status⟩ := ListMachine.execute_registers found
    refine .inr ⟨next, found, ?_, ?_, ?_⟩
    · rw [executed, Machine.completed]
    · rw [executed, Machine.completed]
      exact code.micro.run_formed machine formed reaches
    · rw [executed, Machine.completed]
      refine .of_contents ?_ ?_ same.symm
      · rw [pc, ← related.pc]
        exact UInt16.toNat_add _ _
      · rw [status, ← related.status]
        exact code.micro.status_run machine

/-- One step keeps a machine and its list machine together, and is refused exactly where it is not defined on lists. -/
theorem Represents.step {bench : Bench} {listed : ListMachine} (formed : bench.machine.stack.WellFormed)
    (related : Represents bench.machine listed) :
    bench.step.2.machine.stack.WellFormed ∧
      Represents bench.step.2.machine (listed.step.getD listed) ∧
      (bench.step.1 = none ↔ ∃ next, listed.step = some next) := by
  -- Both sides fetch the same word, so the step is the execution of that word.
  have stepped : bench.step.2.machine = (bench.machine.execute bench.machine.fetch).machine := rfl
  have answered : bench.step.1 = (bench.machine.execute bench.machine.fetch).fault := rfl
  have listedStep : listed.step = listed.execute bench.machine.fetch.word := by
    rw [ListMachine.step, related.fetch]
  rw [stepped, answered, listedStep]
  rcases related.execute formed bench.machine.fetch with
    ⟨cause, refused, undefined⟩ | ⟨next, defined, passed, formedNext, relatedNext⟩
  · rw [refused, undefined]
    refine ⟨formed, related, ?_⟩
    simp [Machine.refused]
  · rw [defined]
    refine ⟨formedNext, relatedNext, ?_⟩
    simp [passed]

/-- The bench after a number of steps; a step that is refused does not keep the next one from being tried. -/
def Bench.afterSteps : Nat → Bench → Bench
  | 0, bench => bench
  | more + 1, bench => afterSteps more bench.step.2

/--
Every run of the machine is a run of the machine with a list for a stack.

After any number of steps the two hold the same, and the next step is refused exactly where it is not defined on lists.
-/
theorem Bench.steps_simulated (bench : Bench) (listed : ListMachine)
    (formed : bench.machine.stack.WellFormed) (related : Represents bench.machine listed) (count : Nat) :
    Represents (bench.afterSteps count).machine (listed.afterSteps count) ∧
      ((bench.afterSteps count).step.1 = none ↔ ∃ next, (listed.afterSteps count).step = some next) := by
  -- One step carries both the relation and the form of the stack over to the rest of the run.
  induction count generalizing bench listed with
  | zero => exact ⟨related, (related.step formed).2.2⟩
  | succ count ih =>
    obtain ⟨formedNext, relatedNext, _⟩ := related.step formed
    exact ih bench.step.2 (listed.step.getD listed) formedNext relatedNext

/-- A program that writes a copying instruction over its own next word is refused when it gets there. -/
theorem Bench.steps_simulated_rewriting :
    let memory := ((Memory.zero.write 0 0x1015).write 1 0x1115).write 2 0x9003
    let bench : Bench := ⟨{ Machine.initial with memory }, .idle⟩
    let listed : ListMachine := ⟨0, 0, .none, ⟨[], Nat.zero_le _⟩, fun address =>
      if address = 2 then 0x9003 else if address = 1 then 0x1115 else if address = 0 then 0x1015 else 0⟩
    bench.machine.stack.WellFormed ∧ Represents bench.machine listed ∧
      (bench.afterSteps 3).step.1 ≠ none := by
  intro memory bench listed
  have formed : bench.machine.stack.WellFormed := .empty
  have related : Represents bench.machine listed := by
    refine ⟨rfl, rfl, rfl, rfl, ?_⟩
    intro address
    simp only [bench, memory, listed, Memory.read_write, Memory.read_zero]
  have stuck : (listed.afterSteps 3).step = none := by cbv
  refine ⟨formed, related, ?_⟩
  intro passed
  obtain ⟨next, defined⟩ := (steps_simulated bench listed formed related 3).2.mp passed
  rw [stuck] at defined
  cases defined

end StackMachine
