/-! Classes of characters given as ranges of code points. -/

namespace StackMachine

/-- A set of characters as ranges of code points, both ends included. -/
structure CharClass where
  ranges : List (Nat × Nat)

namespace CharClass

/-- Whether a character lies in one of the ranges. -/
def contains (chars : CharClass) (char : Char) : Bool :=
  chars.ranges.any fun (low, high) => low ≤ char.toNat && char.toNat ≤ high

/-- White space: the characters that may stand anywhere between the digits of an image. -/
def blank : CharClass where
  ranges :=
    [(0x0009, 0x000D), (0x0020, 0x0020), (0x0085, 0x0085), (0x00A0, 0x00A0), (0x1680, 0x1680),
      (0x2000, 0x200A), (0x2028, 0x2029), (0x202F, 0x202F), (0x205F, 0x205F), (0x3000, 0x3000)]

end CharClass

end StackMachine
