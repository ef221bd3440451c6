import StackMachine.Machine.Code

/-!
Fields and instruction words give each other back.

What a maker puts into a word is what the fields of its format say, cut down to their widths. Every word is made by
exactly one of the two makers, from its own fields.
-/

namespace StackMachine.Code

/-- The format is a matter of the half that a word lies in. -/
theorem format_eq (code : Code) : code.format = if code.word.toNat < 0x8000 then .zero else .address := by
  have half : 0x8000 ≤ code.word ↔ ¬ code.word.toNat < 0x8000 := by
    rw [UInt16.le_iff_toNat_le]
    exact Nat.not_lt.symm
  -- Both sides ask the same question, the other way round.
  simp only [format, half, ite_not]

/-- The address maker writes the top bit, the low three bits of the operation and the low twelve of the address. -/
theorem toNat_ofAddressFields (operation : Int) (address : Word) :
    (ofAddressFields operation address).word.toNat =
      (8 + (operation % 8).toNat) * 4096 + address.toNat % 4096 := by
  refine UInt16.toNat_ofNat_of_lt ?_
  show _ < 65536
  omega

/-- The other maker writes the low seven bits of the operation and the operand, and leaves the top bit clear. -/
theorem toNat_ofZeroFields (operation : Int) (operand : UInt8) :
    (ofZeroFields operation operand).word.toNat = (operation % 128).toNat * 256 + operand.toNat := by
  have small := operand.toNat_lt
  refine UInt16.toNat_ofNat_of_lt ?_
  show _ < 65536
  omega

/-- Setting the fourth bit of a number makes it eight more than its low three bits. -/
theorem lor_eight (operation : Int) : (operation % 16).toNat ||| 8 = 8 + (operation % 8).toNat := by
  -- Of the number only its low four bits are left, so that there are sixteen cases.
  have table : ∀ number < 16, number ||| 8 = 8 + number % 8 := by decide
  rw [table _ (by omega)]
  omega

/-- Whatever the fields, a word made of an operation and an address has the address format. -/
theorem format_ofAddressFields (operation : Int) (address : Word) :
    (ofAddressFields operation address).format = .address := by
  have number := toNat_ofAddressFields operation address
  rw [format_eq, if_neg (by omega)]

/-- Whatever the fields, a word made of an operation and an operand has the zero-address format. -/
theorem format_ofZeroFields (operation : Int) (operand : UInt8) :
    (ofZeroFields operation operand).format = .zero := by
  have number := toNat_ofZeroFields operation operand
  have small := operand.toNat_lt
  rw [format_eq, if_pos (by omega)]

/-- The operation is found again in its low three bits, below a top bit that is set. -/
theorem addressOperation_ofAddressFields (operation : Int) (address : Word) :
    (ofAddressFields operation address).addressOperation = 8 + (operation % 8).toNat := by
  rw [addressOperation, toNat_ofAddressFields]
  omega

/-- The address is found again in its low twelve bits. -/
theorem address_ofAddressFields (operation : Int) (address : Word) :
    (ofAddressFields operation address).address = Address.ofWord address := by
  apply Fin.ext
  show (ofAddressFields operation address).word.toNat % 4096 = address.toNat % 4096
  rw [toNat_ofAddressFields]
  omega

/-- The operation is found again in its low seven bits. -/
theorem zeroOperation_ofZeroFields (operation : Int) (operand : UInt8) :
    (ofZeroFields operation operand).zeroOperation = (operation % 128).toNat := by
  have small := operand.toNat_lt
  rw [zeroOperation, toNat_ofZeroFields]
  omega

/-- The operand is found again as it was. -/
theorem operand_ofZeroFields (operation : Int) (operand : UInt8) :
    (ofZeroFields operation operand).operand = operand := by
  have small := operand.toNat_lt
  apply UInt8.toNat_inj.mp
  rw [Code.operand, UInt16.toNat_toUInt8, toNat_ofZeroFields]
  omega

/-- A word of the address format is made again from its own fields. -/
theorem ofAddressFields_fields {code : Code} (addressed : code.format = .address) :
    ofAddressFields code.addressOperation code.address.toWord = code := by
  have bound := code.word.toNat_lt
  have high : ¬ code.word.toNat < 0x8000 := by
    intro low
    rw [format_eq, if_pos low] at addressed
    cases addressed
  have place : code.address.toWord.toNat = code.word.toNat % 4096 :=
    UInt16.toNat_ofNat_of_lt (Nat.lt_trans code.address.isLt (by decide))
  -- The operation has its fourth bit set already, so that nothing is lost when the maker sets it.
  have same : (ofAddressFields code.addressOperation code.address.toWord).word = code.word := by
    apply UInt16.toNat_inj.mp
    rw [toNat_ofAddressFields, place, addressOperation]
    omega
  exact congrArg Code.mk same

/-- A word of the other format is made again from its own fields. -/
theorem ofZeroFields_fields {code : Code} (zero : code.format = .zero) :
    ofZeroFields code.zeroOperation code.operand = code := by
  have low : code.word.toNat < 0x8000 := by
    rw [format_eq] at zero
    split at zero
    case isTrue low => exact low
    case isFalse => cases zero
  have same : (ofZeroFields code.zeroOperation code.operand).word = code.word := by
    apply UInt16.toNat_inj.mp
    rw [toNat_ofZeroFields, Code.operand, UInt16.toNat_toUInt8, zeroOperation]
    omega
  exact congrArg Code.mk same

/--
Making a word and taking its fields undo each other.

Whatever numbers a word is made from, its fields are those numbers cut down to the width of the field, with the top bit
of the operation set in the address format. Every word is made again from its own fields, by the maker of its format
and not by the other one.
-/
theorem fields_make_word :
    (∀ operation value : Int,
      let made := ofAddressFields operation (UInt16.ofInt value)
      made.format = .address ∧ made.addressOperation = (operation % 16).toNat ||| 8 ∧
        (made.address.val : Int) = value % 4096) ∧
    (∀ operation value : Int,
      let made := ofZeroFields operation (UInt8.ofInt value)
      made.format = .zero ∧ (made.zeroOperation : Int) = operation % 128 ∧
        (made.operand.toNat : Int) = value % 256) ∧
    ∀ code : Code,
      (code.format = .address → ofAddressFields code.addressOperation code.address.toWord = code) ∧
      (code.format = .zero → ofZeroFields code.zeroOperation code.operand = code) ∧
      ((∃ operation address, code = ofAddressFields operation address) ∨
        ∃ operation operand, code = ofZeroFields operation operand) ∧
      ¬ ((∃ operation address, code = ofAddressFields operation address) ∧
        ∃ operation operand, code = ofZeroFields operation operand) := by
  refine ⟨?_, ?_, ?_⟩
  · intro operation value made
    refine ⟨format_ofAddressFields _ _, ?_, ?_⟩
    · rw [addressOperation_ofAddressFields, lor_eight]
    · rw [address_ofAddressFields]
      show (((UInt16.ofInt value).toNat % 4096 : Nat) : Int) = value % 4096
      rw [UInt16.ofInt, UInt16.toNat_ofNat']
      omega
  · intro operation value made
    refine ⟨format_ofZeroFields _ _, ?_, ?_⟩
    · rw [zeroOperation_ofZeroFields]
      omega
    · rw [operand_ofZeroFields, UInt8.ofInt, UInt8.toNat_ofNat']
      omega
  · intro code
    refine ⟨ofAddressFields_fields, ofZeroFields_fields, ?_, ?_⟩
    · cases format : code.format with
      | zero => exact .inr ⟨_, _, (ofZeroFields_fields format).symm⟩
      | address => exact .inl ⟨_, _, (ofAddressFields_fields format).symm⟩
    · -- A word of both makers would have both formats.
      rintro ⟨⟨operation, address, rfl⟩, other, operand, same⟩
      have formats := congrArg format same
      rw [format_ofAddressFields, format_ofZeroFields] at formats
      cases formats

end StackMachine.Code
