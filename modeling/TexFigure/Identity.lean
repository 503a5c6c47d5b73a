/-!
# Identities

Series and shapes carry numbers that stay with them. A new number is at least the stored counter
and lies above every number in use, so that a number handed out once is not handed out again,
also in a document that was loaded with numbers beyond its counter. Numbers have 32 bits and stop
at the largest.

Where a list holds two members of one identity, the first of them is meant.
-/

namespace TexFigure.Identity

/-- The largest identity. -/
def last : Nat := Nat.pow 2 32 - 1

/-- The identity after another one; nothing follows the last. -/
def next (id : Nat) : Nat := min (id + 1) last

/-- The identity of a new member beside others. -/
def fresh (counter : Nat) (inUse : List Nat) : Nat :=
  max counter ((inUse.map next).foldl max 0)

/-- Change the first member of a list that has a property. -/
def modifyFirst {α : Type} (p : α → Bool) (f : α → α) : List α → List α
  | [] => []
  | a :: rest => if p a then f a :: rest else a :: modifyFirst p f rest

end TexFigure.Identity
