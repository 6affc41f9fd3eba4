import StateReplica.Record.Sorted

/-!
Lists in order. A list is in order in at most one way, so sorting gives the same list for any
arrangement of the same items, and taking an item up at the place that the search finds is the same
as sorting everything again. Where items are ordered by a key first and no key occurs twice, being in
order means that the keys grow, and such a list is known by its members.

Nothing is said of how many comparisons a search makes.
-/

namespace StateReplica

variable {α : Type} [Ord α]

/-- The items stand in order: none comes after a later one. -/
def Ordered (as : List α) : Prop := as.Pairwise fun a b => inOrder a b = true

instance (as : List α) : Decidable (Ordered as) :=
  inferInstanceAs (Decidable (as.Pairwise fun a b => inOrder a b = true))

/-! ### The comparison of two items -/

section Comparison

variable {a b c : α}

theorem inOrder_of_ne_gt (h : compare a b ≠ .gt) : inOrder a b = true :=
  Ordering.isLE_iff_ne_gt.mpr h

theorem inOrder_of_lt (h : compare a b = .lt) : inOrder a b = true := by
  rw [inOrder, h, Ordering.isLE_lt]

variable [Std.TransOrd α]

theorem inOrder_refl (a : α) : inOrder a a = true := by
  rw [inOrder, Std.ReflOrd.compare_self, Ordering.isLE_eq]

theorem inOrder_trans (h : inOrder a b = true) (h' : inOrder b c = true) : inOrder a c = true :=
  Std.TransCmp.isLE_trans h h'

theorem inOrder_total (a b : α) : inOrder a b = true ∨ inOrder b a = true := by
  by_cases h : compare a b = .gt
  · exact .inr (inOrder_of_lt (Std.OrientedCmp.gt_iff_lt.mp h))
  · exact .inl (inOrder_of_ne_gt h)

theorem inOrder_of_ne_lt (h : compare a b ≠ .lt) : inOrder b a = true :=
  inOrder_of_ne_gt fun gt => h (Std.OrientedCmp.gt_iff_lt.mp gt)

/-- Items that may stand either way round are the same. -/
theorem inOrder_antisymm [Std.LawfulEqOrd α] (h : inOrder a b = true) (h' : inOrder b a = true) :
    a = b :=
  Std.LawfulEqOrd.eq_of_compare (Std.OrientedCmp.isLE_antisymm h h')

end Comparison

/-! ### Sorting -/

section Sorting

variable {as bs : List α}

/-- Sorting keeps the items, each as often as it was there. -/
theorem sorted_perm (as : List α) : (sorted as).Perm as := List.mergeSort_perm as _

@[simp] theorem mem_sorted {a : α} : a ∈ sorted as ↔ a ∈ as := (sorted_perm as).mem_iff

variable [Std.TransOrd α]

theorem sorted_ordered (as : List α) : Ordered (sorted as) :=
  @List.pairwise_mergeSort α inOrder (fun _ _ _ => inOrder_trans)
    (fun a b => Bool.or_eq_true_iff.mpr (inOrder_total a b)) as

variable [Std.LawfulEqOrd α]

/-- The same items can stand in order in one way only. -/
theorem Ordered.eq_of_perm (ha : Ordered as) (hb : Ordered bs) (h : as.Perm bs) : as = bs :=
  List.Perm.eq_of_pairwise (fun _ _ _ _ => inOrder_antisymm) ha hb h

/-- Sorting gives the same list for any arrangement of the same items. -/
theorem sorted_eq_of_perm (h : as.Perm bs) : sorted as = sorted bs :=
  (sorted_ordered as).eq_of_perm (sorted_ordered bs)
    ((sorted_perm as).trans (h.trans (sorted_perm bs).symm))

/-- Sorting leaves a list in order as it is. -/
theorem Ordered.sorted_eq (h : Ordered as) : sorted as = as :=
  (sorted_ordered as).eq_of_perm h (sorted_perm as)

/-- Sorting gives the arrangement of the items that is in order. -/
theorem Ordered.sorted_of_perm (h : Ordered bs) (perm : as.Perm bs) : sorted as = bs :=
  (sorted_eq_of_perm perm).trans h.sorted_eq

end Sorting

/-! ### Taking an item up -/

section Insertion

variable {as : List α}

/-- The place of an item in a list: before it stands nothing that comes after the item, and from it
on nothing that comes before the item. -/
structure IsPlace (as : List α) (a : α) (i : Nat) : Prop where
  le_length : i ≤ as.length
  before : ∀ (j : Nat) (b : α), j < i → as[j]? = some b → inOrder b a = true
  behind : ∀ (j : Nat) (b : α), i ≤ j → as[j]? = some b → inOrder a b = true

/-- An item that is taken up at its place leaves a list in order. -/
theorem Ordered.insertIdx {a : α} {i : Nat} (h : Ordered as) (place : IsPlace as a i) :
    Ordered (as.insertIdx i a) := by
  induction as generalizing i with
  | nil =>
    obtain rfl : i = 0 := Nat.le_zero.mp place.le_length
    exact List.pairwise_singleton _ _
  | cons b as ih =>
    obtain ⟨hb, has⟩ := List.pairwise_cons.mp h
    cases i with
    | zero =>
      refine List.pairwise_cons.mpr ⟨fun c hc => ?_, h⟩
      obtain ⟨j, hj⟩ := List.mem_iff_getElem?.mp hc
      exact place.behind j c (Nat.zero_le j) hj
    | succ i =>
      have rest : IsPlace as a i :=
        ⟨Nat.le_of_succ_le_succ place.le_length,
          fun j c hj hc => place.before (j + 1) c (Nat.succ_lt_succ hj) hc,
          fun j c hj hc => place.behind (j + 1) c (Nat.succ_le_succ hj) hc⟩
      refine List.pairwise_cons.mpr ⟨fun c hc => ?_, ih has rest⟩
      rcases (List.mem_insertIdx rest.le_length).mp hc with rfl | hc
      · exact place.before 0 b (Nat.succ_pos i) rfl
      · exact hb c hc

/-- An item that left a list in order when it was taken up was taken up at its place. -/
theorem IsPlace.of_insertIdx {a : α} {i : Nat} (le_length : i ≤ as.length)
    (h : Ordered (as.insertIdx i a)) : IsPlace as a i := by
  induction as generalizing i with
  | nil => exact ⟨le_length, fun _ _ _ hj => (nomatch hj), fun _ _ _ hj => nomatch hj⟩
  | cons b as ih =>
    cases i with
    | zero =>
      refine ⟨le_length, fun _ _ hj => absurd hj (Nat.not_lt_zero _), fun j c _ hc => ?_⟩
      exact (List.pairwise_cons.mp h).1 c (List.mem_of_getElem? hc)
    | succ i =>
      have le := Nat.le_of_succ_le_succ le_length
      obtain ⟨first, rest⟩ := List.pairwise_cons.mp h
      have place := ih le rest
      refine ⟨le_length, fun j c hj hc => ?_, fun j c hj hc => ?_⟩
      · cases j with
        | zero =>
          cases hc
          exact first a ((List.mem_insertIdx le).mpr (.inl rfl))
        | succ j => exact place.before j c (Nat.lt_of_succ_lt_succ hj) hc
      · cases j with
        | zero => cases hj
        | succ j => exact place.behind j c (Nat.le_of_succ_le_succ hj) hc

variable [Std.TransOrd α]

/-- An item that a list does not have has one place there. -/
theorem IsPlace.unique [Std.LawfulEqOrd α] {a : α} (absent : a ∉ as) {i j : Nat}
    (h : IsPlace as a i) (h' : IsPlace as a j) : i = j := by
  -- what stands between two places would be the item itself
  have notBelow {i j : Nat} (h : IsPlace as a i) (h' : IsPlace as a j) : ¬i < j := by
    intro lt
    have there := List.getElem?_eq_getElem (Nat.lt_of_lt_of_le lt h'.le_length)
    have same := inOrder_antisymm (h'.before i _ lt there) (h.behind i _ (Nat.le_refl i) there)
    exact absent (same ▸ List.mem_of_getElem? there)
  have := notBelow h h'
  have := notBelow h' h
  omega

/-- In a list in order, an item may stand before those at later places and before itself. -/
theorem Ordered.inOrder_of_le (h : Ordered as) {i j : Nat} {a b : α} (ij : i ≤ j)
    (hi : as[i]? = some a) (hj : as[j]? = some b) : inOrder a b = true := by
  obtain ⟨hi', rfl⟩ := List.getElem?_eq_some_iff.mp hi
  obtain ⟨hj', rfl⟩ := List.getElem?_eq_some_iff.mp hj
  rcases Nat.lt_or_eq_of_le ij with lt | rfl
  · exact List.pairwise_iff_getElem.mp h i j hi' hj' lt
  · exact inOrder_refl _

/-- **The search ends at a last item**: of a stretch that holds the place of an item and the one
before it, it leaves a single place, with everything before it and behind it on the right side. -/
theorem bisect_spec (h : Ordered as) (a : α) (start size : Nat) (nonempty : 0 < size)
    (fits : start + size ≤ as.length)
    (before : ∀ (j : Nat) (b : α), j < start → as[j]? = some b → inOrder b a = true)
    (behind : ∀ (j : Nat) (b : α), start + size ≤ j → as[j]? = some b → inOrder a b = true) :
    bisect as a start size < as.length ∧
      (∀ (j : Nat) (b : α), j < bisect as a start size → as[j]? = some b → inOrder b a = true) ∧
      ∀ (j : Nat) (b : α), bisect as a start size < j → as[j]? = some b → inOrder a b = true := by
  fun_induction bisect as a start size with
  | case1 start size small =>
    obtain rfl : size = 1 := by omega
    exact ⟨fits, before, behind⟩
  | case2 start size large half b hb after ih =>
    -- the item in the middle comes after `a`, and so does everything behind it
    refine ih (by omega) (by omega) before fun j c hj hc => ?_
    exact inOrder_trans (inOrder_of_lt (Std.OrientedCmp.gt_iff_lt.mp after))
      (h.inOrder_of_le (by omega) hb hc)
  | case3 start size large half b hb notAfter ih =>
    refine ih (by omega) (by omega) (fun j c hj hc => ?_) fun j c hj hc => ?_
    · exact inOrder_trans (h.inOrder_of_le (by omega) hc hb) (inOrder_of_ne_gt notAfter)
    · exact behind j c (by omega) hc
  | case4 start size large half hb =>
    rw [List.getElem?_eq_none_iff] at hb
    omega

/-- In a list in order, the search finds the place of an item. -/
theorem Ordered.insertionPoint_isPlace (h : Ordered as) (a : α) :
    IsPlace as a (insertionPoint as a) := by
  cases as with
  | nil => exact ⟨Nat.le_refl 0, fun _ _ _ hj => (nomatch hj), fun _ _ _ hj => nomatch hj⟩
  | cons first rest =>
    obtain ⟨inside, before, behind⟩ := bisect_spec h a 0 (first :: rest).length
      (Nat.succ_pos _) (by omega) (fun _ _ hj => absurd hj (Nat.not_lt_zero _))
      (fun j b hj hb => by rw [List.getElem?_eq_none (by omega)] at hb; cases hb)
    unfold insertionPoint
    generalize bisect (first :: rest) a 0 (first :: rest).length = i at inside before behind ⊢
    have hi : (first :: rest)[i]? = some (first :: rest)[i] := List.getElem?_eq_getElem inside
    simp only [hi]
    split
    next lt =>
      refine ⟨inside, fun j b hj hb => ?_, fun j b hj hb => behind j b hj hb⟩
      exact inOrder_trans (h.inOrder_of_le (Nat.le_of_lt_succ hj) hb hi) (inOrder_of_lt lt)
    next notLt =>
      refine ⟨Nat.le_of_lt inside, before, fun j b hj hb => ?_⟩
      exact inOrder_trans (inOrder_of_ne_lt notLt) (h.inOrder_of_le hj hi hb)

/-- **The search finds the only place** where a list in order can take an item up that it does not have,
and stay in order. -/
theorem Ordered.insertIdx_iff [Std.LawfulEqOrd α] (h : Ordered as) {a : α} (absent : a ∉ as) {i : Nat}
    (le_length : i ≤ as.length) : Ordered (as.insertIdx i a) ↔ i = insertionPoint as a := by
  have found := h.insertionPoint_isPlace a
  constructor
  · intro ordered
    exact (IsPlace.of_insertIdx le_length ordered).unique absent found
  · intro eq
    exact eq ▸ h.insertIdx found

/-- Taking an item up in order keeps the others and adds the item. -/
theorem Ordered.insertSorted_perm (h : Ordered as) (a : α) : (insertSorted as a).Perm (a :: as) :=
  List.perm_insertIdx a as (h.insertionPoint_isPlace a).le_length

/-- A list in order takes an item up and stays in order. -/
theorem Ordered.insertSorted (h : Ordered as) (a : α) : Ordered (insertSorted as a) :=
  h.insertIdx (h.insertionPoint_isPlace a)

end Insertion

end StateReplica
