import StackMachine.Feed
import StackMachine.Machine.Instruction

/-! Listings: the address, word, bits and disassembly of each word of a program. -/

namespace StackMachine.Listing

/-- The sixteen bits of a word in groups of four. -/
def bits (word : Word) : String :=
  " ".intercalate ([4096, 256, 16, 1].map fun unit =>
    Numeral.padded .binary .lower 4 (word.toNat / unit % 16))

/-- The line of one word. -/
def line (address : Nat) (word : Word) : String :=
  s!"{Numeral.upperHex 3 address} {Numeral.upperHex 4 word.toNat} {bits word} {(Code.mk word).text}\n"

/-- The lines of words that start at an address. -/
def lines (origin : Nat) : List Word → List String
  | [] => []
  | word :: rest => line origin word :: lines (origin + 1) rest

/-- Writes a listing line by line, as long as the writer takes them. -/
def write {m : Type → Type} [Monad m] (origin : Word) (words : List Word) : Feed m String :=
  Feed.ofList (lines origin.toNat words)

/-- The whole listing. -/
def text (origin : Word) (words : List Word) : String :=
  String.join (lines origin.toNat words)

end StackMachine.Listing
