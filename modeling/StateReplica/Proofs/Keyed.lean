import StateReplica.Proofs.Sorted
import StateReplica.Record.Bundle

/-!
Lists of records that have ids, and the maps they stand for. A list **lists** a map when its ids grow
and it has exactly the records of the map, each under its own id. A map has one such list. Sorting, taking
up and taking away on the side of the list follow putting and erasing on the side of the map, where
the records are ordered by their ids first.
-/

namespace StateReplica

variable {α : Type} {key : α → UInt64}

/-! ### Growing ids -/

/-- The ids grow from item to item, so that each occurs once. -/
def Increasing (key : α → UInt64) (as : List α) : Prop := as.Pairwise fun a b => key a < key b

theorem Increasing.nodup_keys {as : List α} (h : Increasing key as) : (as.map key).Nodup :=
  List.pairwise_map.mpr (h.imp fun lt => UInt64.ne_of_lt lt)

theorem Increasing.filter {as : List α} (h : Increasing key as) (p : α → Bool) :
    Increasing key (as.filter p) :=
  List.Pairwise.filter p h

theorem Increasing.nodup {as : List α} (h : Increasing key as) : as.Nodup :=
  List.Pairwise.imp (fun lt eq => UInt64.ne_of_lt lt (congrArg key eq)) h

/-- A list with growing ids is known by its members. -/
theorem Increasing.ext {as bs : List α} (ha : Increasing key as) (hb : Increasing key bs)
    (h : ∀ a, a ∈ as ↔ a ∈ bs) : as = bs :=
  List.Perm.eq_of_pairwise (fun _ _ _ _ lt lt' => absurd lt' (UInt64.lt_asymm lt)) ha hb
    ((List.perm_ext_iff_of_nodup ha.nodup hb.nodup).mpr h)

section Led

variable [Ord α]

/-- Items are ordered by a key first. -/
def LedBy (key : α → UInt64) : Prop := ∀ {a b : α}, key a < key b → compare a b = .lt

/-- Growing ids put the items in order. -/
theorem Increasing.ordered (led : LedBy key) {as : List α} (h : Increasing key as) : Ordered as :=
  h.imp fun lt => inOrder_of_lt (led lt)

variable [Std.TransOrd α]

theorem LedBy.le_of_inOrder (led : LedBy key) {a b : α} (h : inOrder a b = true) :
    key a ≤ key b := by
  refine UInt64.not_lt.mp fun lt => ?_
  rw [inOrder, Std.OrientedCmp.gt_iff_lt.mpr (led lt)] at h
  cases h

/-- Where no id occurs twice, the ids of items in order grow. -/
theorem Ordered.increasing (led : LedBy key) {as : List α} (h : Ordered as)
    (nodup : (as.map key).Nodup) : Increasing key as :=
  (h.and (List.pairwise_map.mp nodup)).imp fun ⟨le, ne⟩ =>
    UInt64.lt_of_le_of_ne (led.le_of_inOrder le) ne

end Led

theorem BundleRecord.ledBy_id : LedBy BundleRecord.id := by
  intro a b lt
  show BundleRecord.cmp a b = .lt
  rw [BundleRecord.cmp, compareLex, compareOn, Std.compare_eq_lt.mpr lt]
  rfl

theorem ServiceRecord.ledBy_id : LedBy ServiceRecord.id := by
  intro a b lt
  show ServiceRecord.cmp a b = .lt
  rw [ServiceRecord.cmp, compareLex, compareOn, Std.compare_eq_lt.mpr lt]
  rfl

/-! ### Lists of maps -/

/-- A list has exactly the records of a map, with growing ids. -/
structure Lists (key : α → UInt64) (m : Std.ExtTreeMap UInt64 α) (as : List α) : Prop where
  increasing : Increasing key as
  getElem?_eq_some {id : UInt64} {a : α} : m[id]? = some a ↔ a ∈ as ∧ key a = id

namespace Lists

variable {m : Std.ExtTreeMap UInt64 α} {as bs : List α}

theorem getElem?_key (h : Lists key m as) {a : α} (ha : a ∈ as) : m[key a]? = some a :=
  h.getElem?_eq_some.mpr ⟨ha, rfl⟩

theorem mem_iff (h : Lists key m as) {a : α} : a ∈ as ↔ m[key a]? = some a :=
  ⟨h.getElem?_key, fun ha => (h.getElem?_eq_some.mp ha).1⟩

theorem key_eq (h : Lists key m as) {id : UInt64} {a : α} (ha : m[id]? = some a) : key a = id :=
  (h.getElem?_eq_some.mp ha).2

/-- A map has one list. -/
theorem list_unique (ha : Lists key m as) (hb : Lists key m bs) : as = bs :=
  ha.increasing.ext hb.increasing fun _ => ha.mem_iff.trans hb.mem_iff.symm

/-- The entries of the map, in the order of the ids, are the records of the list with their ids. -/
theorem toList_eq (h : Lists key m as) : m.toList = as.map fun a => (key a, a) := by
  have grows : Increasing Prod.fst m.toList :=
    Std.ExtTreeMap.ordered_keys_toList.imp fun lt => Std.compare_eq_lt.mp lt
  have grows' : Increasing Prod.fst (as.map fun a => (key a, a)) :=
    List.pairwise_map.mpr h.increasing
  refine grows.ext grows' fun (id, a) => ?_
  rw [Std.ExtTreeMap.mem_toList_iff_getElem?_eq_some, h.getElem?_eq_some]
  simp only [List.mem_map, Prod.mk.injEq]
  constructor
  · intro given
    obtain ⟨ha, rfl⟩ := given
    exact ⟨a, ha, rfl, rfl⟩
  · intro given
    obtain ⟨a, ha, rfl, rfl⟩ := given
    exact ⟨ha, rfl⟩

/-- Without a record of an id there is nothing of that id to take away. -/
theorem filter_ne_of_none (h : Lists key m as) {id : UInt64} (none : m[id]? = none) :
    as.filter (key · ≠ id) = as := by
  refine List.filter_eq_self.mpr fun a ha => decide_eq_true fun eq => ?_
  rw [← eq, h.getElem?_key ha] at none
  cases none

/-- Taking away what has an id erases the id. -/
theorem erase (h : Lists key m as) (id : UInt64) :
    Lists key (m.erase id) (as.filter (key · ≠ id)) := by
  refine ⟨h.increasing.filter _, fun {id' a} => ?_⟩
  simp only [Std.ExtTreeMap.getElem?_erase, Std.LawfulEqOrd.compare_eq_iff_eq, List.mem_filter,
    decide_eq_true_eq]
  split
  next eq =>
    subst eq
    constructor
    · intro none
      cases none
    · intro given
      obtain ⟨⟨_, ne⟩, eq⟩ := given
      exact absurd eq ne
  next ne =>
    rw [h.getElem?_eq_some]
    constructor
    · intro given
      obtain ⟨ha, rfl⟩ := given
      exact ⟨⟨ha, fun eq => ne eq.symm⟩, rfl⟩
    · intro given
      obtain ⟨⟨ha, _⟩, eq⟩ := given
      exact ⟨ha, eq⟩

/-- Changing the record of an id, without changing its id, changes it at its place. -/
theorem modify (h : Lists key m as) {f : α → α} (keeps : ∀ a, key (f a) = key a) (id : UInt64) :
    Lists key (m.modify id f) (as.map fun a => if key a = id then f a else a) := by
  have keys (a : α) : key (if key a = id then f a else a) = key a := by
    split
    · exact keeps a
    · rfl
  refine ⟨List.pairwise_map.mpr (h.increasing.imp fun lt => by rwa [keys, keys]), fun {id' b} => ?_⟩
  simp only [Std.ExtTreeMap.getElem?_modify, Std.LawfulEqOrd.compare_eq_iff_eq, List.mem_map]
  split
  next eq =>
    subst eq
    rw [Option.map_eq_some_iff]
    constructor
    · intro given
      obtain ⟨a, ha, rfl⟩ := given
      obtain ⟨ha, eq⟩ := h.getElem?_eq_some.mp ha
      exact ⟨⟨a, ha, if_pos eq⟩, (keeps a).trans eq⟩
    · intro given
      obtain ⟨⟨a, ha, rfl⟩, eq⟩ := given
      rw [keys] at eq
      exact ⟨a, h.getElem?_eq_some.mpr ⟨ha, eq⟩, (if_pos eq).symm⟩
  next ne =>
    rw [h.getElem?_eq_some]
    constructor
    · intro given
      obtain ⟨hb, rfl⟩ := given
      exact ⟨⟨b, hb, if_neg fun eq => ne eq.symm⟩, rfl⟩
    · intro given
      obtain ⟨⟨a, ha, rfl⟩, rfl⟩ := given
      rw [keys] at ne ⊢
      rw [if_neg fun eq => ne eq.symm]
      exact ⟨ha, rfl⟩

variable [Ord α] [Std.TransOrd α]

/-- Records with ids of their own are sorted into the list of the map that holds them. -/
theorem of_nodup (led : LedBy key) (nodup : (as.map key).Nodup)
    (h : ∀ {id : UInt64} {a : α}, m[id]? = some a ↔ a ∈ as ∧ key a = id) :
    Lists key m (sorted as) where
  increasing := (sorted_ordered as).increasing led (((sorted_perm as).map key).nodup_iff.mpr nodup)
  getElem?_eq_some {_ _} := by rw [mem_sorted, h]

/-- Records with ids of their own are sorted into the list of the map that is made of them. -/
theorem of_ofList (led : LedBy key) (nodup : (as.map key).Nodup) :
    Lists key (.ofList (as.map fun a => (key a, a))) (sorted as) := by
  refine of_nodup led nodup fun {id a} => ?_
  have distinct : (as.map fun a => (key a, a)).Pairwise fun x y => ¬compare x.1 y.1 = .eq := by
    refine List.pairwise_map.mpr ((List.pairwise_map.mp nodup).imp fun ne eq => ne ?_)
    exact Std.LawfulEqOrd.eq_of_compare eq
  have found {b : α} (hb : b ∈ as) :
      (Std.ExtTreeMap.ofList (as.map fun a => (key a, a)) compare)[key b]? = some b :=
    Std.ExtTreeMap.getElem?_ofList_of_mem Std.ReflOrd.compare_self distinct
      (List.mem_map.mpr ⟨b, hb, rfl⟩)
  constructor
  · intro ha
    have known : id ∈ Std.ExtTreeMap.ofList (as.map fun a => (key a, a)) compare := by
      rw [Std.ExtTreeMap.mem_iff_isSome_getElem?, ha, Option.isSome_some]
    rw [Std.ExtTreeMap.mem_ofList, List.contains_iff_mem, List.map_map, List.mem_map] at known
    obtain ⟨b, hb, rfl⟩ := known
    obtain rfl : b = a := Option.some.inj ((found hb).symm.trans ha)
    exact ⟨hb, rfl⟩
  · intro given
    obtain ⟨ha, rfl⟩ := given
    exact found ha

/-- Putting a record in place of what has its id, wherever order wants it, puts it at its id. -/
theorem insert (led : LedBy key) (h : Lists key m as) {a : α} (ordered : Ordered bs)
    (perm : bs.Perm (a :: as.filter (key · ≠ key a))) : Lists key (m.insert (key a) a) bs := by
  have nodup : (bs.map key).Nodup := by
    rw [(perm.map key).nodup_iff, List.map_cons, List.nodup_cons]
    refine ⟨fun ha => ?_, (h.increasing.filter _).nodup_keys⟩
    obtain ⟨b, hb, eq⟩ := List.mem_map.mp ha
    exact of_decide_eq_true (List.mem_filter.mp hb).2 eq
  refine ⟨ordered.increasing led nodup, fun {id b} => ?_⟩
  simp only [Std.ExtTreeMap.getElem?_insert, Std.LawfulEqOrd.compare_eq_iff_eq, perm.mem_iff,
    List.mem_cons, List.mem_filter, decide_eq_true_eq]
  split
  next eq =>
    subst eq
    constructor
    · intro given
      obtain ⟨rfl⟩ := given
      exact ⟨.inl rfl, rfl⟩
    · intro given
      obtain ⟨rfl | ⟨_, ne⟩, eq⟩ := given
      · rfl
      · exact absurd eq ne
  next ne =>
    rw [h.getElem?_eq_some]
    constructor
    · intro given
      obtain ⟨hb, rfl⟩ := given
      exact ⟨.inr ⟨hb, fun eq => ne eq.symm⟩, rfl⟩
    · intro given
      obtain ⟨rfl | ⟨hb, _⟩, eq⟩ := given
      · exact absurd eq ne
      · exact ⟨hb, eq⟩

end Lists

end StateReplica
