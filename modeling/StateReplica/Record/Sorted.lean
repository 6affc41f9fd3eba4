import Std.Data.ExtTreeSet

/-!
Lists in order: sorting a list, counting its different items, and finding the place of an item in a
list that is in order.
-/

namespace StateReplica

variable {α : Type} [Ord α]

/-- Whether one item may stand before another. -/
def inOrder (a b : α) : Bool := (compare a b).isLE

/-- The items of a list in order. -/
def sorted (as : List α) : List α := as.mergeSort inOrder

/-- The number of different items. -/
def distinctCount [Std.TransOrd α] (as : List α) : Nat := (Std.ExtTreeSet.ofList as).size

/-- Halves the stretch of so many items from some place on until one item is left: the last one, if
there is any, that does not come after the item looked for. -/
def bisect (as : List α) (a : α) (start size : Nat) : Nat :=
  if size ≤ 1 then start
  else
    let half := size / 2
    match as[start + half]? with
    | some b =>
      if compare b a = .gt then bisect as a start (size - half)
      else bisect as a (start + half) (size - half)
    | none => start
termination_by size

/-- Where a list in order has to take an item up to stay in order. -/
def insertionPoint (as : List α) (a : α) : Nat :=
  let i := bisect as a 0 as.length
  match as[i]? with
  | some b => if compare b a = .lt then i + 1 else i
  | none => 0

/-- Takes an item up into a list in order. -/
def insertSorted (as : List α) (a : α) : List α := as.insertIdx (insertionPoint as a) a

end StateReplica
