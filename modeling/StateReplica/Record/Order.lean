import Std.Data.ExtTreeMap

/-!
Order of composite values. Tuples, lists and optional values are compared part by part, the first
difference deciding; texts by code points; and texts by name as the list of their entries.
-/

namespace StateReplica

/-- Pairs are compared by their first part and then by their second. -/
instance pairOrd {α β : Type} [Ord α] [Ord β] : Ord (α × β) := lexOrd

/-- Their order is transitive where those of the parts are. -/
instance pairTransOrd {α β : Type} [Ord α] [Ord β] [Std.TransOrd α] [Std.TransOrd β] :
    Std.TransOrd (α × β) :=
  inferInstanceAs (Std.TransCmp (compareLex (compareOn Prod.fst) (compareOn Prod.snd)))

/-- Equal pairs are those with equal parts. -/
instance pairLawfulEqOrd {α β : Type} [Ord α] [Ord β] [Std.LawfulEqOrd α]
    [Std.LawfulEqOrd β] : Std.LawfulEqOrd (α × β) where
  compare_self {a} := by
    show compareLex (compareOn Prod.fst) (compareOn Prod.snd) a a = .eq
    simp [compareLex, compareOn]
  eq_of_compare {a b} h := by
    have h : compareLex (compareOn Prod.fst) (compareOn Prod.snd) a b = .eq := h
    simp only [compareLex, compareOn, Ordering.then_eq_eq, Std.LawfulEqOrd.compare_eq_iff_eq] at h
    exact Prod.ext h.1 h.2

end StateReplica
