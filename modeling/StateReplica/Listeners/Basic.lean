import StateReplica.Error
import Std.Data.ExtTreeMap

/-!
Listeners, and registries of listeners. A registry numbers its listeners in the order in which they
are added; the same listener may be added several times.
-/

namespace StateReplica

/-- The number of a listener in a registry. -/
structure ListenerId where
  number : UInt64
  deriving DecidableEq

namespace ListenerId

/-- The number as a text. -/
def display (id : ListenerId) : String := "listener-" ++ toString id.number.toNat

/-- The number after this one. -/
def next (id : ListenerId) : ListenerId := ⟨id.number + 1⟩

end ListenerId

instance : Ord ListenerId := ⟨compareOn ListenerId.number⟩

instance : Std.TransOrd ListenerId :=
  inferInstanceAs (Std.TransCmp (compareOn ListenerId.number))

instance : Std.LawfulEqOrd ListenerId where
  compare_self {a} := by
    show compareOn ListenerId.number a a = .eq
    simp [compareOn]
  eq_of_compare {a b} h := by
    have h : compareOn ListenerId.number a b = .eq := h
    simp only [compareOn, Std.LawfulEqOrd.compare_eq_iff_eq] at h
    cases a; cases b
    simp_all

/-- What comes of calling a listener. -/
inductive CallResult
  | done
  | failed (error : Error)
  | panicked
  deriving DecidableEq, Repr

/-- A listener: its name and what is called for it. -/
structure Listener (κ : Type) where
  name : String
  callee : κ

/-- The name of a listener that was not given any. -/
def anonymousName : String := "anonymous"

/-- A registry of listeners. -/
structure Registry (κ : Type) where
  entries : Std.ExtTreeMap ListenerId (Listener κ)
  /-- the number that the next listener gets -/
  next : ListenerId

namespace Registry

variable {κ : Type}

/-- The registry without listeners. -/
def empty : Registry κ := ⟨∅, ⟨0⟩⟩

instance : Inhabited (Registry κ) := ⟨empty⟩

variable (registry : Registry κ)

/-- Adds a listener under the next number. -/
def add (listener : Listener κ) : Registry κ :=
  ⟨registry.entries.insert registry.next listener, registry.next.next⟩

/-- Removes the listener with a number. -/
def remove (id : ListenerId) : Registry κ := ⟨registry.entries.erase id, registry.next⟩

/-- Whether there is a listener with a number. -/
def holds (id : ListenerId) : Bool := registry.entries.contains id

/-- The number of listeners. -/
def count : Nat := registry.entries.size

/-- The listeners with their numbers, in order: those that a round of calls is for. -/
def round : List (ListenerId × Listener κ) := registry.entries.toList

end Registry

end StateReplica
