import Mathlib.Algebra.Group.Nat.Defs
import StackMachine.Text.Utf8

/-! The characters of a byte text are those that UTF-8 encodes, and a replacement for each byte of no character. -/

namespace StackMachine.Utf8

/--
A byte text and its characters, front to back.

Bytes that encode a character stand for it, and a byte at which no encoded character starts stands for the replacement.
-/
inductive Decodes : Bytes → List Char → Prop where
  | nothing : Decodes [] []
  | encoded (char : Char) {rest : Bytes} {chars : List Char} (more : Decodes rest chars) :
      Decodes (String.utf8EncodeChar char ++ rest) (char :: chars)
  | stray (byte : UInt8) {rest : Bytes} {chars : List Char}
      (starts : ∀ char tail, byte :: rest ≠ String.utf8EncodeChar char ++ tail) (more : Decodes rest chars) :
      Decodes (byte :: rest) (replacement :: chars)

/-- The low bits of a code point, six to a byte. -/
def tailBytes : Nat → Nat → Bytes
  | 0, _ => []
  | count + 1, point => UInt8.ofNat (point / 64 ^ count % 64 + 0x80) :: tailBytes count point

/-- How many bytes follow the first one of a code point. -/
def tailCount (point : Nat) : Nat :=
  if point ≤ 0x7F then 0 else if point ≤ 0x7FF then 1 else if point ≤ 0xFFFF then 2 else 3

/-- What the first byte adds to its bits of the code point, by the number of bytes that follow. -/
def opener : Nat → Nat
  | 0 => 0
  | 1 => 0xC0
  | 2 => 0xE0
  | _ => 0xF0

/-- An encoded character is its leading bits with their opener, and then its low bits. -/
theorem encode_eq (char : Char) :
    let count := tailCount char.toNat
    String.utf8EncodeChar char =
      UInt8.ofNat (char.toNat / 64 ^ count + opener count) :: tailBytes count char.toNat := by
  have bounded : char.toNat < 0x110000 := by
    have valid : char.toNat < 0xD800 ∨ 0xDFFF < char.toNat ∧ char.toNat < 0x110000 := char.valid
    omega
  have same : char.val.toNat = char.toNat := rfl
  generalize char.toNat = point at bounded same
  simp only [String.utf8EncodeChar, same, tailCount]
  -- The leading bits are all that is left above the low ones, so that cutting them off changes nothing.
  split
  · simp [opener, tailBytes]
  split
  · have whole : point / 64 % 32 = point / 64 := by omega
    simp [opener, tailBytes, whole]
  split
  · have whole : point / 4096 % 16 = point / 4096 := by omega
    simp [opener, tailBytes, whole]
  · have whole : point / 262144 % 8 = point / 262144 := by omega
    simp [opener, tailBytes, whole]

/-- There are as many tail bytes as were asked for. -/
theorem length_tailBytes (count point : Nat) : (tailBytes count point).length = count := by
  induction count with
  | zero => rfl
  | succ count ih => rw [tailBytes, List.length_cons, ih]

/-- A tail byte holds six bits above its mark, and loses none of them. -/
theorem toNat_tailByte (bits : Nat) : (UInt8.ofNat (bits % 64 + 0x80)).toNat = bits % 64 + 0x80 := by
  rw [UInt8.toNat_ofNat']
  omega

/-- A byte of low bits continues a character. -/
theorem tailBytes_range {count point : Nat} {byte : UInt8} (within : byte ∈ tailBytes count point) :
    0x80 ≤ byte.toNat ∧ byte.toNat ≤ 0xBF := by
  induction count with
  | zero => cases within
  | succ count ih =>
    rcases List.mem_cons.mp within with rfl | later
    · rw [toNat_tailByte]
      omega
    · exact ih later

namespace Lead

/-- The code point of a first byte and the bytes after it, each of which adds six bits. -/
def codePoint (bits : Nat) (tails : Bytes) : Nat :=
  tails.foldl (fun bits tail => bits * 64 + (tail.toNat - 0x80)) bits

/-- The next byte adds its six bits behind those so far. -/
theorem codePoint_cons (bits : Nat) (byte : UInt8) (rest : Bytes) :
    codePoint bits (byte :: rest) = codePoint (bits * 64 + (byte.toNat - 0x80)) rest :=
  List.foldl_cons

/-- The leading bits and the low bits of a code point make it up again. -/
theorem codePoint_tailBytes (count point : Nat) : codePoint (point / 64 ^ count) (tailBytes count point) = point := by
  -- Each byte moves six bits from below the division to above it.
  induction count with
  | zero => simp [codePoint, tailBytes]
  | succ count ih =>
    have moved : point / 64 ^ (count + 1) * 64 + (point / 64 ^ count % 64 + 0x80 - 0x80) = point / 64 ^ count := by
      rw [Nat.pow_succ, ← Nat.div_div_eq_div_mul]
      omega
    rw [tailBytes, codePoint_cons, toNat_tailByte, moved, ih]

/-- Bytes that continue a character are the low bits of the code point, and the bits above them were there before. -/
theorem tailBytes_codePoint (bits : Nat) (tails : Bytes)
    (range : ∀ byte ∈ tails, 0x80 ≤ byte.toNat ∧ byte.toNat ≤ 0xBF) :
    tailBytes tails.length (codePoint bits tails) = tails ∧ codePoint bits tails / 64 ^ tails.length = bits := by
  induction tails generalizing bits with
  | nil => simp [tailBytes, codePoint]
  | cons byte rest ih =>
    have inside := range byte List.mem_cons_self
    have others := fun later within => range later (List.mem_cons_of_mem byte within)
    obtain ⟨low, high⟩ := ih (bits * 64 + (byte.toNat - 0x80)) others
    rw [codePoint_cons]
    refine ⟨?_, ?_⟩
    · rw [List.length_cons, tailBytes, low, high]
      have own : (bits * 64 + (byte.toNat - 0x80)) % 64 + 0x80 = byte.toNat := by omega
      rw [own, UInt8.ofNat_toNat]
    · rw [List.length_cons, Nat.pow_succ, ← Nat.div_div_eq_div_mul, high]
      omega

/-- A first byte by the number of bytes in its character; the least and the greatest of a row narrow the byte after. -/
theorem ofByte?_eq (byte : UInt8) : ofByte? byte =
    if byte.toNat < 0x80 then some ⟨0, byte.toNat, 0x80, 0xBF⟩
    else if 0xC2 ≤ byte.toNat ∧ byte.toNat < 0xE0 then some ⟨1, byte.toNat - 0xC0, 0x80, 0xBF⟩
    else if 0xE0 ≤ byte.toNat ∧ byte.toNat < 0xF0 then
      some ⟨2, byte.toNat - 0xE0, if byte.toNat = 0xE0 then 0xA0 else 0x80, if byte.toNat = 0xED then 0x9F else 0xBF⟩
    else if 0xF0 ≤ byte.toNat ∧ byte.toNat < 0xF5 then
      some ⟨3, byte.toNat - 0xF0, if byte.toNat = 0xF0 then 0x90 else 0x80, if byte.toNat = 0xF4 then 0x8F else 0xBF⟩
    else none := by
  simp only [ofByte?, UInt8.lt_iff_toNat_lt, ← UInt8.toNat_inj, UInt8.reduceToNat]
  grind

/-- Bytes that complete the character a first byte opens: as many as it says, each in its range. -/
structure Completes (lead : Lead) (tails : Bytes) : Prop where
  count : tails.length = lead.tails
  second : ∀ byte ∈ tails.head?, lead.low.toNat ≤ byte.toNat ∧ byte.toNat ≤ lead.high.toNat
  range : ∀ byte ∈ tails, 0x80 ≤ byte.toNat ∧ byte.toNat ≤ 0xBF

/-- The completing bytes are found exactly where the text goes on with them. -/
theorem tails?_eq_some {lead : Lead} {rest tails : Bytes} :
    lead.tails? rest = some tails ↔ lead.Completes tails ∧ tails = rest.take lead.tails := by
  simp only [Lead.tails?, Option.ite_none_right_eq_some, Option.some.injEq]
  constructor
  · rintro ⟨⟨count, second, range⟩, rfl⟩
    refine ⟨⟨count, ?_, ?_⟩, rfl⟩
    · intro byte head
      simpa [Option.mem_def.mp head, UInt8.le_iff_toNat_le] using second
    · intro byte within
      simpa [isTail, UInt8.le_iff_toNat_le] using List.all_eq_true.mp range byte within
  · rintro ⟨⟨count, second, range⟩, rfl⟩
    refine ⟨⟨count, ?_, ?_⟩, rfl⟩
    · cases head : (rest.take lead.tails).head? with
      | none => rfl
      | some byte => simpa [UInt8.le_iff_toNat_le] using second byte head
    · rw [List.all_eq_true]
      intro byte within
      simpa [isTail, UInt8.le_iff_toNat_le] using range byte within

/-- Low bits complete a first byte that asks for as many of them, if the highest of them are in its range. -/
theorem completes_tailBytes {lead : Lead} {count point : Nat} (asked : lead.tails = count + 1) :
    lead.Completes (tailBytes (count + 1) point) ↔
      lead.low.toNat ≤ point / 64 ^ count % 64 + 0x80 ∧ point / 64 ^ count % 64 + 0x80 ≤ lead.high.toNat := by
  constructor
  · intro completes
    have second := completes.second _ rfl
    rw [toNat_tailByte] at second
    exact second
  · intro inside
    refine ⟨by rw [length_tailBytes, asked], ?_, fun byte within => tailBytes_range within⟩
    rintro byte ⟨⟩
    rw [toNat_tailByte]
    exact inside

/-- The first byte of an encoded character is completed by the others. -/
theorem completes_encode (char : Char) :
    let count := tailCount char.toNat
    ∃ low high, ofByte? (UInt8.ofNat (char.toNat / 64 ^ count + opener count)) =
        some ⟨count, char.toNat / 64 ^ count, low, high⟩ ∧
      (⟨count, char.toNat / 64 ^ count, low, high⟩ : Lead).Completes (tailBytes count char.toNat) := by
  have valid : char.toNat < 0xD800 ∨ 0xDFFF < char.toNat ∧ char.toNat < 0x110000 := char.valid
  generalize char.toNat = point at valid
  have number : ∀ {value : Nat}, value < 256 → (UInt8.ofNat value).toNat = value := by
    intro value fits
    rw [UInt8.toNat_ofNat', Nat.mod_eq_of_lt fits]
  dsimp only
  unfold tailCount
  split
  · simp only [opener, Nat.pow_zero, Nat.div_one, Nat.add_zero]
    rw [ofByte?_eq, number (by omega), if_pos (by omega)]
    exact ⟨_, _, rfl, rfl, by simp [tailBytes], by simp [tailBytes]⟩
  split
  · simp only [opener, Nat.pow_one]
    rw [ofByte?_eq, number (by omega), if_neg (by omega), if_pos (by omega), Nat.add_sub_cancel]
    refine ⟨_, _, rfl, (completes_tailBytes rfl).mpr ?_⟩
    simp only [UInt8.reduceToNat]
    omega
  split
  · simp only [opener, Nat.reducePow]
    rw [ofByte?_eq, number (by omega), if_neg (by omega), if_neg (by omega), if_pos (by omega), Nat.add_sub_cancel]
    refine ⟨_, _, rfl, (completes_tailBytes rfl).mpr ?_⟩
    simp only [apply_ite UInt8.toNat, UInt8.reduceToNat]
    split <;> split <;> omega
  · simp only [opener, Nat.reducePow]
    rw [ofByte?_eq, number (by omega), if_neg (by omega), if_neg (by omega), if_neg (by omega), if_pos (by omega),
      Nat.add_sub_cancel]
    refine ⟨_, _, rfl, (completes_tailBytes rfl).mpr ?_⟩
    simp only [apply_ite UInt8.toNat, UInt8.reduceToNat]
    split <;> split <;> omega

/-- A first byte that low bits complete opens a code point of a character, in as few bytes as it needs. -/
theorem point_of_completes {byte : UInt8} {lead : Lead} {point : Nat} (opened : ofByte? byte = some lead)
    (above : point / 64 ^ lead.tails = lead.bits) (completes : lead.Completes (tailBytes lead.tails point)) :
    point.isValidChar ∧ tailCount point = lead.tails ∧ lead.bits + opener lead.tails = byte.toNat := by
  rw [ofByte?_eq] at opened
  -- The narrowed ranges rule out code points that fewer bytes encode, surrogates, and numbers of no character.
  split at opened
  · cases opened
    simp only [Nat.pow_zero, Nat.div_one] at above
    refine ⟨.inl (by omega), if_pos (by omega), rfl⟩
  split at opened
  · cases opened
    simp only [Nat.pow_one] at above
    refine ⟨.inl (by omega), ?_, ?_⟩
    · rw [tailCount, if_neg (by omega), if_pos (by omega)]
    · simp only [opener]
      omega
  split at opened
  · cases opened
    have second := (completes_tailBytes rfl).mp completes
    simp only [apply_ite UInt8.toNat, UInt8.reduceToNat, Nat.reducePow] at second above
    have lower : 0x800 ≤ point := by
      split at second <;> omega
    have gap : point < 0xD800 ∨ 0xDFFF < point := by
      split at second <;> split at second <;> omega
    refine ⟨?_, ?_, ?_⟩
    · unfold Nat.isValidChar
      omega
    · rw [tailCount, if_neg (by omega), if_neg (by omega), if_pos (by omega)]
    · simp only [opener]
      omega
  split at opened
  · cases opened
    have second := (completes_tailBytes rfl).mp completes
    simp only [apply_ite UInt8.toNat, UInt8.reduceToNat, Nat.reducePow] at second above
    have lower : 0x10000 ≤ point := by
      split at second <;> omega
    have upper : point < 0x110000 := by
      split at second <;> split at second <;> omega
    refine ⟨.inr (by omega), ?_, ?_⟩
    · rw [tailCount, if_neg (by omega), if_neg (by omega), if_neg (by omega)]
    · simp only [opener]
      omega
  · cases opened

/-- A first byte with the bytes that complete it is the encoding of the character of their code point. -/
theorem encode_of_completes {byte : UInt8} {lead : Lead} {tails : Bytes} (opened : ofByte? byte = some lead)
    (completes : lead.Completes tails) :
    String.utf8EncodeChar (Char.ofNat (codePoint lead.bits tails)) = byte :: tails := by
  obtain ⟨low, above⟩ := tailBytes_codePoint lead.bits tails completes.range
  generalize codePoint lead.bits tails = point at low above ⊢
  rw [completes.count] at low above
  rw [← low] at completes ⊢
  obtain ⟨valid, count, first⟩ := point_of_completes opened above completes
  have number : (Char.ofNat point).toNat = point := by
    rw [Char.ofNat, dif_pos valid]
    rfl
  have encoded := encode_eq (Char.ofNat point)
  simp only [number, count, above, first, UInt8.ofNat_toNat] at encoded
  exact encoded

end Lead

/-- A text that starts with an encoded character starts with that character, and goes on behind its bytes. -/
theorem first_encode {byte : UInt8} {rest tail : Bytes} {char : Char}
    (encoded : byte :: rest = String.utf8EncodeChar char ++ tail) :
    first byte rest = (char, tailCount char.toNat) ∧ rest.drop (tailCount char.toNat) = tail := by
  rw [encode_eq, List.cons_append, List.cons.injEq] at encoded
  obtain ⟨rfl, rfl⟩ := encoded
  obtain ⟨low, high, opened, completes⟩ := Lead.completes_encode char
  -- The bytes that are taken for the rest of the character are exactly its own.
  have taken : (tailBytes (tailCount char.toNat) char.toNat ++ tail).take (tailCount char.toNat) =
      tailBytes (tailCount char.toNat) char.toNat := List.take_left' (length_tailBytes _ _)
  have tails := Lead.tails?_eq_some.mpr ⟨completes, taken.symm⟩
  have point := Lead.codePoint_tailBytes (tailCount char.toNat) char.toNat
  refine ⟨?_, List.drop_left' (length_tailBytes _ _)⟩
  simp only [first, opened, tails]
  rw [← Lead.codePoint, point, Char.ofNat_toNat]

/-- A byte at which no encoded character starts counts as one replacement. -/
theorem first_stray {byte : UInt8} {rest : Bytes}
    (stray : ∀ char tail, byte :: rest ≠ String.utf8EncodeChar char ++ tail) :
    first byte rest = (replacement, 0) := by
  unfold first
  cases opened : Lead.ofByte? byte with
  | none => rfl
  | some lead =>
    cases found : lead.tails? rest with
    | none => simp only [found]
    | some tails =>
      -- A first byte that is completed would be the start of an encoded character.
      obtain ⟨completes, taken⟩ := Lead.tails?_eq_some.mp found
      have encoded := Lead.encode_of_completes opened completes
      have starts : byte :: rest =
          String.utf8EncodeChar (Char.ofNat (Lead.codePoint lead.bits tails)) ++ rest.drop lead.tails := by
        rw [encoded, List.cons_append, taken, List.take_append_drop]
      exact absurd starts (stray _ _)

/-- The characters of a text are what UTF-8 decodes it to. -/
theorem decodes_decode (text : Bytes) : Decodes text (decode text) := by
  -- What follows a character is shorter than the text, by all the bytes of the character.
  induction length : text.length using Nat.strongRecOn generalizing text with
  | ind size ih =>
    cases text with
    | nil => exact .nothing
    | cons byte rest =>
      rw [decode_cons]
      by_cases starts : ∃ char tail, byte :: rest = String.utf8EncodeChar char ++ tail
      · obtain ⟨char, tail, encoded⟩ := starts
        obtain ⟨found, behind⟩ := first_encode encoded
        have shorter : tail.length < size := by
          rw [← behind, List.length_drop, ← length, List.length_cons]
          omega
        rw [found, behind, encoded]
        exact .encoded char (ih tail.length shorter tail rfl)
      · have stray : ∀ char tail, byte :: rest ≠ String.utf8EncodeChar char ++ tail :=
          fun char tail encoded => starts ⟨char, tail, encoded⟩
        have shorter : rest.length < size := by
          rw [← length, List.length_cons]
          omega
        rw [first_stray stray]
        exact .stray byte stray (ih rest.length shorter rest rfl)

/-- UTF-8 decodes a text to nothing but its characters. -/
theorem decode_of_decodes {text : Bytes} {chars : List Char} (decodes : Decodes text chars) : decode text = chars := by
  induction decodes with
  | nothing => rfl
  | @encoded char rest chars _ ih =>
    cases bytes : String.utf8EncodeChar char ++ rest with
    | nil =>
      -- No character is encoded by no bytes.
      rw [encode_eq] at bytes
      cases bytes
    | cons byte tail =>
      obtain ⟨found, behind⟩ := first_encode bytes.symm
      rw [decode_cons, found, behind, ih]
  | stray byte starts _ ih =>
    rw [decode_cons, first_stray starts, List.drop_zero, ih]

/-- Decoding gives just the characters that the rules of decoding give. -/
theorem decode_eq_iff {text : Bytes} {chars : List Char} : decode text = chars ↔ Decodes text chars := by
  constructor
  · rintro rfl
    exact decodes_decode text
  · exact decode_of_decodes

/-- The bytes of a text are those of its characters in turn. -/
theorem utf8_ofList (chars : List Char) : utf8 (String.ofList chars) = chars.flatMap String.utf8EncodeChar := by
  simp [utf8, String.toUTF8, List.utf8Encode]

/-- No character needs more than four bytes. -/
theorem length_encode_le (chars : List Char) : (chars.flatMap String.utf8EncodeChar).length ≤ 4 * chars.length := by
  induction chars with
  | nil => exact Nat.le_refl 0
  | cons char rest ih =>
    -- At most three bytes follow the first one of a character.
    have few : tailCount char.toNat ≤ 3 := by
      unfold tailCount
      grind
    rw [List.flatMap_cons, List.length_append, encode_eq, List.length_cons, length_tailBytes, List.length_cons]
    omega

/-- A character below `0x80` is encoded by the one byte of its number. -/
theorem encode_ascii {char : Char} (ascii : char.toNat < 0x80) :
    String.utf8EncodeChar char = [UInt8.ofNat char.toNat] := by
  have alone : tailCount char.toNat = 0 := if_pos (by omega)
  rw [encode_eq, alone]
  simp [opener, tailBytes]

/-- A byte below `0x80` is found in the encoding of its own character only. -/
theorem toNat_eq_of_mem_encode {char : Char} {byte : UInt8} (within : byte ∈ String.utf8EncodeChar char)
    (ascii : byte.toNat < 0x80) : char.toNat = byte.toNat := by
  obtain ⟨low, high, opened, _⟩ := Lead.completes_encode char
  rw [encode_eq] at within
  rcases List.mem_cons.mp within with rfl | later
  · -- A first byte below the bound opens no more than itself.
    rw [Lead.ofByte?_eq, if_pos ascii] at opened
    simp only [Option.some.injEq, Lead.mk.injEq] at opened
    obtain ⟨alone, bits, _⟩ := opened
    rw [← alone, Nat.pow_zero, Nat.div_one] at bits ⊢
    exact bits.symm
  · -- No later byte is below the bound.
    have range := tailBytes_range later
    omega

/-- A byte below `0x80` is part of no character but its own. -/
theorem notMem_encode {char other : Char} {byte : UInt8} (differs : char ≠ other)
    (own : String.utf8EncodeChar other = [byte]) (ascii : other.toNat < 0x80) :
    byte ∉ String.utf8EncodeChar char := by
  intro within
  have number : byte.toNat = other.toNat := by
    rw [encode_ascii ascii, List.cons.injEq] at own
    rw [← own.1, UInt8.toNat_ofNat']
    omega
  exact differs (Char.toNat_inj.mp ((toNat_eq_of_mem_encode within (number ▸ ascii)).trans number))

/-- A character below `0x80` at the end is read as itself, whatever is in front of it. -/
theorem Decodes.append_ascii {text : Bytes} {chars : List Char} (decodes : Decodes text chars) {last : Char}
    (ascii : last.toNat < 0x80) : Decodes (text ++ String.utf8EncodeChar last) (chars ++ [last]) := by
  induction decodes with
  | nothing =>
    rw [List.nil_append, ← List.append_nil (String.utf8EncodeChar last)]
    exact .encoded last .nothing
  | encoded char _ ih =>
    rw [List.append_assoc]
    exact .encoded char ih
  | @stray byte rest chars starts _ ih =>
    rw [List.cons_append, List.cons_append]
    refine .stray byte (fun char tail encoded => ?_) ih
    rw [encode_ascii ascii] at encoded
    rcases List.eq_nil_or_concat tail with rfl | ⟨front, final, rfl⟩
    · -- The last byte is no part of a character of several bytes.
      have within : UInt8.ofNat last.toNat ∈ String.utf8EncodeChar char := by
        rw [← List.append_nil (String.utf8EncodeChar char), ← encoded]
        exact List.mem_cons_of_mem byte (List.mem_append_right rest List.mem_cons_self)
      have number : (UInt8.ofNat last.toNat).toNat = last.toNat := by
        rw [UInt8.toNat_ofNat']
        omega
      have same := toNat_eq_of_mem_encode within (number.symm ▸ ascii)
      have single : char.toNat < 0x80 := by omega
      rw [encode_ascii single] at encoded
      simp at encoded
    · -- A character that ends in front of the last byte would have been found without it.
      rw [List.concat_eq_append, ← List.append_assoc, ← List.cons_append] at encoded
      exact starts char front (List.append_singleton_inj.mp encoded).1

/-- An ASCII character at the end of a text is decoded by itself, whatever comes before it. -/
theorem decode_append_ascii (text : Bytes) {last : Char} (ascii : last.toNat < 0x80) :
    decode (text ++ String.utf8EncodeChar last) = decode text ++ [last] :=
  decode_of_decodes ((decodes_decode text).append_ascii ascii)

/-- A character in front of a text is decoded by itself, whatever comes after it. -/
theorem decode_encode_append (char : Char) (rest : Bytes) :
    decode (String.utf8EncodeChar char ++ rest) = char :: decode rest :=
  decode_of_decodes (.encoded char (decodes_decode rest))

end StackMachine.Utf8
