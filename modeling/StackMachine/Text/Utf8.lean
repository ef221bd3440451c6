import StackMachine.Text.Bytes

/-! Characters of a byte text, where each byte that starts no valid character counts as U+FFFD. -/

namespace StackMachine.Utf8

/-- The character that stands for a byte outside every valid character. -/
def replacement : Char := '�'

/-- What the first byte of a character says about the bytes after it. -/
structure Lead where
  /-- How many bytes follow. -/
  tails : Nat
  /-- The leading bits of the code point. -/
  bits : Nat
  /-- The least value of the byte that follows. -/
  low : UInt8
  /-- The greatest value of the byte that follows. -/
  high : UInt8

/-- Reads a first byte; the narrowed ranges rule out overlong forms, surrogates and code points above U+10FFFF. -/
def Lead.ofByte? (byte : UInt8) : Option Lead :=
  if byte < 0x80 then some ⟨0, byte.toNat, 0x80, 0xBF⟩
  else if byte < 0xC2 then none
  else if byte < 0xE0 then some ⟨1, byte.toNat - 0xC0, 0x80, 0xBF⟩
  else if byte = 0xE0 then some ⟨2, 0x0, 0xA0, 0xBF⟩
  else if byte = 0xED then some ⟨2, 0xD, 0x80, 0x9F⟩
  else if byte < 0xF0 then some ⟨2, byte.toNat - 0xE0, 0x80, 0xBF⟩
  else if byte = 0xF0 then some ⟨3, 0x0, 0x90, 0xBF⟩
  else if byte < 0xF4 then some ⟨3, byte.toNat - 0xF0, 0x80, 0xBF⟩
  else if byte = 0xF4 then some ⟨3, 0x4, 0x80, 0x8F⟩
  else none

/-- A byte that continues a character. -/
def isTail (byte : UInt8) : Bool :=
  0x80 ≤ byte && byte ≤ 0xBF

/-- The bytes that complete the character a first byte opens, if they are there. -/
def Lead.tails? (lead : Lead) (rest : Bytes) : Option Bytes :=
  let tails := rest.take lead.tails
  let inRange := tails.head?.all fun byte => lead.low ≤ byte && byte ≤ lead.high
  if tails.length = lead.tails ∧ inRange ∧ tails.all isTail then some tails else none

/-- The first character of a text that starts with `byte`, and how many of the bytes after it belong to it. -/
def first (byte : UInt8) (rest : Bytes) : Char × Nat :=
  match Lead.ofByte? byte with
  | none => (replacement, 0)
  | some lead =>
    match lead.tails? rest with
    | none => (replacement, 0)
    | some tails =>
      -- Each byte after the first adds six bits.
      (Char.ofNat (tails.foldl (fun bits tail => bits * 64 + (tail.toNat - 0x80)) lead.bits), lead.tails)

/-- Decodes after skipping the remaining bytes of the last character, in front of the characters found so far. -/
def decodeFrom : Nat → Bytes → List Char → List Char
  | _, [], found => found.reverse
  | 0, byte :: rest, found =>
    let (char, tails) := first byte rest
    decodeFrom tails rest (char :: found)
  | skip + 1, _ :: rest, found => decodeFrom skip rest found

/-- The characters of a byte text, in order. -/
def decode (text : Bytes) : List Char :=
  decodeFrom 0 text []

/-- Skipping bytes is decoding what lies behind them. -/
theorem decodeFrom_skip (skip : Nat) (text : Bytes) (found : List Char) :
    decodeFrom skip text found = decodeFrom 0 (text.drop skip) found := by
  induction skip generalizing text with
  | zero => rfl
  | succ skip ih =>
    cases text with
    | nil => rfl
    | cons byte rest => exact ih rest

/-- The characters found so far stay in front. -/
theorem decodeFrom_found (skip : Nat) (text : Bytes) (found : List Char) :
    decodeFrom skip text found = found.reverse ++ decodeFrom skip text [] := by
  -- Every character found later goes behind those that were found before.
  induction text generalizing skip found with
  | nil => cases skip <;> simp [decodeFrom]
  | cons byte rest ih =>
    cases skip with
    | zero =>
      simp only [decodeFrom]
      rw [ih, ih _ [_]]
      simp
    | succ skip => exact ih skip found

/-- An empty text holds no character. -/
@[simp] theorem decode_nil : decode [] = [] := rfl

/-- A text is its first character and the characters of what follows it. -/
theorem decode_cons (byte : UInt8) (rest : Bytes) :
    decode (byte :: rest) = (first byte rest).1 :: decode (rest.drop (first byte rest).2) := by
  simp only [decode, decodeFrom]
  rw [decodeFrom_found, decodeFrom_skip]
  rfl

end StackMachine.Utf8
