/-! Feeds, which offer items one at a time to a consumer until it wants no more. -/

namespace StackMachine

/-- Offers items in order to a consumer that answers whether it wants more, and tells whether it still does. -/
abbrev Feed (m : Type → Type) (α : Type) := (α → m Bool) → m Bool

namespace Feed

variable {m : Type → Type} [Monad m] {α : Type}

/-- Offers the items of a list. -/
def ofList : List α → Feed m α
  | [], _ => pure true
  | item :: rest, consumer => do
    if ← consumer item then ofList rest consumer else pure false

/-- Offers the items of each feed in turn, and starts none after the consumer has had enough. -/
def concat : List (Feed m α) → Feed m α
  | [], _ => pure true
  | feed :: rest, consumer => do
    if ← feed consumer then concat rest consumer else pure false

end Feed

end StackMachine
