import StackMachine.Proofs.Machine.Simulation

/-!
The instruction set as tables by number: what an operation asks of the stack, whether it is known, and its text.

Each table looks at the fields of a word by itself. None of them decodes an instruction, and all agree with decoding.
-/

namespace StackMachine

/-- What the operations that carry an address ask of the stack, by their numbers. -/
def AddressOp.demands : List (Nat × Demand) :=
  [(0x8, ⟨0, 1⟩), (0x9, ⟨1, 0⟩)]

/-- What the operations that carry no address ask of the stack, by their numbers. -/
def ZeroOp.demands : List (Nat × Demand) :=
  -- The operation that does nothing asks nothing, and has no entry.
  [(0x01, ⟨1, 0⟩), (0x0F, ⟨1, 0⟩), (0x10, ⟨0, 1⟩), (0x11, ⟨1, 0⟩), (0x14, ⟨1, 0⟩), (0x15, ⟨1, 1⟩), (0x18, ⟨2, 0⟩),
    (0x19, ⟨2, 1⟩), (0x20, ⟨2, 0⟩), (0x21, ⟨2, 0⟩), (0x44, ⟨1, 0⟩), (0x45, ⟨2, 0⟩)]

namespace Code

/-- What a word asks of the stack by the table of its format; a number without an entry asks nothing. -/
def tableDemand (code : Code) : Demand :=
  match code.format with
  | .address => (AddressOp.demands.lookup code.addressOperation).getD ⟨0, 0⟩
  | .zero => (ZeroOp.demands.lookup code.zeroOperation).getD ⟨0, 0⟩

/-- Whether the number of a word has an entry, or is that of the operation that does nothing. -/
def tableKnown (code : Code) : Bool :=
  match code.format with
  | .address => (AddressOp.demands.lookup code.addressOperation).isSome
  | .zero => (ZeroOp.demands.lookup code.zeroOperation).isSome || code.zeroOperation == 0x00

/-- The disassembly of a word by its fields. -/
def tableText (code : Code) : String :=
  if code.tableKnown then
    match code.format with
    | .address => AddressOp.nameOf code.addressOperation ++ " " ++ Numeral.upperHex 3 code.address.val
    | .zero =>
      match code.zeroOperation with
      -- Only these two operations make use of their operand.
      | 0x10 | 0x11 => ZeroOp.nameOf code.zeroOperation ++ " " ++ Numeral.upperHex 2 code.operand.toNat
      | number => ZeroOp.nameOf number
  else "DATA"

end Code

/-- A number that no operation has is not in a table whose entries all have the number of one. -/
theorem lookup_missing {α : Type} {ofNumber : Nat → Option α} {entries : List (Nat × Demand)}
    (named : ∀ entry ∈ entries, (ofNumber entry.1).isSome) {number : Nat} (missing : ofNumber number = none) :
    entries.lookup number = none := by
  rw [List.lookup_eq_none_iff]
  intro entry within
  apply bne_iff_ne.mpr
  rintro rfl
  have found := named entry within
  rw [missing] at found
  cases found

namespace AddressOp

/-- The entry of an operation is its demand. -/
theorem lookup_number (operation : AddressOp) : demands.lookup operation.number = some operation.demand := by
  cases operation with
  | load => rfl
  | store => rfl

/-- Every entry has the number of an operation. -/
theorem demands_named : ∀ entry ∈ demands, (ofNumber? entry.1).isSome := by decide

/-- The number of an operation is written as its mnemonic. -/
theorem nameOf_number (operation : AddressOp) : nameOf operation.number = operation.mnemonic := by
  cases operation with
  | load => rfl
  | store => rfl

end AddressOp

namespace ZeroOp

/-- The entry of an operation is its demand, where it asks anything at all. -/
theorem lookup_number (operation : ZeroOp) :
    demands.lookup operation.number = if operation = .nop then none else some operation.demand := by
  cases operation <;> rfl

/-- Every entry has the number of an operation. -/
theorem demands_named : ∀ entry ∈ demands, (ofNumber? entry.1).isSome := by decide

/-- The number of an operation is written as its mnemonic. -/
theorem nameOf_number (operation : ZeroOp) : nameOf operation.number = operation.mnemonic := by
  cases operation <;> rfl

end ZeroOp

namespace Code

/-- The fields of a word make an instruction of one of the two formats, or they name no operation of their format. -/
theorem decode_cases (code : Code) :
    (∃ operation : AddressOp, code.format = .address ∧ code.addressOperation = operation.number ∧
      code.instruction? = some (.addressed operation code.address)) ∨
    (∃ operation : ZeroOp, code.format = .zero ∧ code.zeroOperation = operation.number ∧
      code.instruction? = some (.zero operation code.operand)) ∨
    (code.instruction? = none ∧
      (code.format = .address ∧ AddressOp.ofNumber? code.addressOperation = none ∨
        code.format = .zero ∧ ZeroOp.ofNumber? code.zeroOperation = none)) := by
  unfold instruction?
  cases code.format with
  | address =>
    cases found : AddressOp.ofNumber? code.addressOperation with
    | none => exact .inr (.inr ⟨rfl, .inl ⟨rfl, rfl⟩⟩)
    | some operation => exact .inl ⟨operation, rfl, AddressOp.eq_number found, rfl⟩
  | zero =>
    cases found : ZeroOp.ofNumber? code.zeroOperation with
    | none => exact .inr (.inr ⟨rfl, .inr ⟨rfl, rfl⟩⟩)
    | some operation => exact .inr (.inl ⟨operation, rfl, ZeroOp.eq_number found, rfl⟩)

/-- A word asks of the stack what the instruction it decodes to asks. -/
theorem tableDemand_eq (code : Code) : code.tableDemand = code.demand := by
  rcases code.decode_cases with ⟨operation, format, number, decoded⟩ | ⟨operation, format, number, decoded⟩ |
    ⟨decoded, ⟨format, missing⟩ | ⟨format, missing⟩⟩
  · simp only [tableDemand, demand, format, number, decoded, AddressOp.lookup_number]
    rfl
  · simp only [tableDemand, demand, format, number, decoded, ZeroOp.lookup_number]
    -- The entry that is not there and the demand of the operation that does nothing are the same.
    by_cases nothing : operation = .nop
    · rw [if_pos nothing, nothing]
      rfl
    · rw [if_neg nothing]
      rfl
  · simp only [tableDemand, demand, format, decoded, lookup_missing AddressOp.demands_named missing]
    rfl
  · simp only [tableDemand, demand, format, decoded, lookup_missing ZeroOp.demands_named missing]
    rfl

/-- A word is known by the tables exactly when it decodes to an instruction. -/
theorem tableKnown_eq (code : Code) : code.tableKnown = code.isKnown := by
  rcases code.decode_cases with ⟨operation, format, number, decoded⟩ | ⟨operation, format, number, decoded⟩ |
    ⟨decoded, ⟨format, missing⟩ | ⟨format, missing⟩⟩
  · simp only [tableKnown, isKnown, format, number, decoded, AddressOp.lookup_number, Option.isSome_some]
  · simp only [tableKnown, isKnown, format, number, decoded, ZeroOp.lookup_number]
    by_cases nothing : operation = .nop
    · rw [if_pos nothing, nothing]
      rfl
    · rw [if_neg nothing]
      rfl
  · simp only [tableKnown, isKnown, format, decoded, lookup_missing AddressOp.demands_named missing, Option.isSome_none]
  · -- The number of the operation that does nothing is not missing.
    have other : code.zeroOperation ≠ 0x00 := by
      intro nothing
      rw [nothing] at missing
      cases missing
    simp [tableKnown, isKnown, format, decoded, lookup_missing ZeroOp.demands_named missing, other]

/-- The text of a word by its fields is the text of the instruction it decodes to. -/
theorem tableText_eq (code : Code) : code.tableText = code.text := by
  unfold tableText text
  rw [tableKnown_eq, isKnown]
  rcases code.decode_cases with ⟨operation, format, number, decoded⟩ | ⟨operation, format, number, decoded⟩ |
    ⟨decoded, _⟩
  · simp only [decoded, format, number, AddressOp.nameOf_number, Option.isSome_some, if_true]
    rfl
  · simp only [decoded, format, number, ZeroOp.nameOf_number, Option.isSome_some, if_true]
    cases operation <;> rfl
  · simp only [decoded, Option.isSome_none, Bool.false_eq_true, if_false]

end Code

end StackMachine
