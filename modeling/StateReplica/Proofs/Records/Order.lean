import StateReplica.Proofs.Keyed
import StateReplica.Record.Configuration

/-!
The order of the records. Two records are told apart by their first field that differs, in the order in
which the fields are declared; lists by their first item that differs, where the shorter one comes first
if there is none; properties as the list of their entries, and texts by code points. The comparison of
records is the one of that order (`Tells`), and with it all is as it should be with sorted lists:
a list is sorted in one way, and a new item has one place in it (`records_ordered_lawfully`).
-/

namespace StateReplica

/-! ### Comparing in an order -/

/-- The comparison tells which of two items comes first in an order. -/
def Tells {α : Type} [Ord α] (before : α → α → Prop) : Prop :=
  ∀ a b : α, compare a b = .lt ↔ before a b

namespace Tells

variable {α β : Type} [Ord α] [Ord β] {r : α → α → Prop} {s : β → β → Prop}

theorem word : Tells fun a b : UInt64 => a < b := fun _ _ => Std.compare_eq_lt

theorem text : Tells fun a b : String => a < b := fun _ _ => compareOfLessAndEq_eq_lt

theorem number : Tells fun a b : Nat => a < b := fun _ _ => Nat.compare_eq_lt

/-- Where items are compared by something they have, that decides. -/
theorem on {f : β → α} (h : Tells r) (same : ∀ a b, compare a b = compare (f a) (f b)) :
    Tells (InvImage r f) :=
  fun a b => by rw [same, h, InvImage]

/-- Of two pairs the second parts decide if the first parts are equal. -/
theorem pair [Std.LawfulEqOrd α] (h : Tells r) (h' : Tells s) : Tells (Prod.Lex r s) := by
  intro (a, b) (c, d)
  show (compare a c).then (compare b d) = .lt ↔ _
  rw [Ordering.then_eq_lt, h, h', Std.LawfulEqOrd.compare_eq_iff_eq, Prod.lex_def]

/-- Of two lists the rests decide if the first items are equal. -/
theorem list [Std.LawfulEqOrd α] (h : Tells r) : Tells (List.Lex r) := by
  intro as
  induction as with
  | nil =>
    intro bs
    cases bs with
    | nil => simp
    | cons b bs => simp [List.compare_nil_cons]
  | cons a as ih =>
    intro bs
    cases bs with
    | nil => simp [List.compare_cons_nil]
    | cons b bs =>
      rw [List.compare_cons_cons, Ordering.then_eq_lt, h, ih, Std.LawfulEqOrd.compare_eq_iff_eq,
        List.cons_lex_cons_iff]

/-- What is absent comes before everything present. -/
theorem option (h : Tells r) : Tells (Option.lt r) := by
  intro a b
  cases a with
  | none =>
    cases b with
    | none => exact iff_of_false nofun id
    | some b => exact iff_of_true rfl trivial
  | some a =>
    cases b with
    | none => exact iff_of_false nofun id
    | some b => exact h a b

end Tells

/-! ### What follows for lists -/

/-- Items are compared in an order: either one of two comes before the other or they are equal, and what
comes before something comes before all that comes after it. So every list is sorted in one way,
whatever way it was arranged before, and in a sorted list there is one place for an item that it does
not have, which is the one that the search finds. -/
structure LawfulOrder {α : Type} [Ord α] (before : α → α → Prop) : Prop where
  lt_iff (a b : α) : compare a b = .lt ↔ before a b
  eq_iff (a b : α) : compare a b = .eq ↔ a = b
  gt_iff (a b : α) : compare a b = .gt ↔ before b a
  trans {a b c : α} : before a b → before b c → before a c
  ordered_iff (as : List α) : Ordered as ↔ as.Pairwise fun a b => ¬before b a
  ordered_sorted (as : List α) : Ordered (sorted as)
  perm_sorted (as : List α) : (sorted as).Perm as
  sorted_eq {as bs : List α} : as.Perm bs → sorted as = sorted bs
  place {as : List α} {a : α} : Ordered as → a ∉ as → insertionPoint as a ≤ as.length ∧
    ∀ i ≤ as.length, Ordered (as.insertIdx i a) ↔ i = insertionPoint as a

/-- A comparison that tells an order, and tells equal items apart from others, makes it lawful. -/
theorem LawfulOrder.of_tells {α : Type} [Ord α] [Std.TransOrd α] [Std.LawfulEqOrd α]
    {before : α → α → Prop} (h : Tells before) : LawfulOrder before where
  lt_iff := h
  eq_iff _ _ := Std.LawfulEqOrd.compare_eq_iff_eq
  gt_iff a b := Std.OrientedCmp.gt_iff_lt.trans (h b a)
  trans {a b c} ab bc := by
    rw [← h] at ab bc ⊢
    exact Std.TransCmp.lt_trans ab bc
  ordered_iff as := by
    refine List.Pairwise.iff fun a b => ?_
    exact Ordering.isLE_iff_ne_gt.trans (not_congr (Std.OrientedCmp.gt_iff_lt.trans (h b a)))
  ordered_sorted := sorted_ordered
  perm_sorted := sorted_perm
  sorted_eq := sorted_eq_of_perm
  place {_ a} ordered absent :=
    ⟨(ordered.insertionPoint_isPlace a).le_length, fun _ le => ordered.insertIdx_iff absent le⟩

/-! ### The order of the records -/

/-- Properties in the order of their entries: the first name or value that differs decides. -/
def PropertiesBefore : Properties → Properties → Prop :=
  InvImage (List.Lex (Prod.Lex (· < ·) (· < ·))) fun ps => ps.toList

theorem PropertiesBefore.tells : Tells PropertiesBefore := (Tells.text.pair .text).list.on fun _ _ => rfl

/-- Class registrations field by field. -/
def ServiceClassRecord.Before : ServiceClassRecord → ServiceClassRecord → Prop :=
  InvImage (Prod.Lex (· < ·) (· < ·)) fun c => (c.className, c.serviceId)

theorem ServiceClassRecord.tells : Tells Before := (Tells.text.pair .word).on fun _ _ => rfl

/-- Services field by field. -/
def ServiceRecord.Before : ServiceRecord → ServiceRecord → Prop :=
  InvImage (Prod.Lex (· < ·) <| Prod.Lex (· < ·) <|
      Prod.Lex (List.Lex ServiceClassRecord.Before) PropertiesBefore)
    fun s => (s.id, s.bundleId, s.registeredClasses, s.properties)

theorem ServiceRecord.tells : Tells Before :=
  (Tells.word.pair <| Tells.word.pair <| ServiceClassRecord.tells.list.pair PropertiesBefore.tells).on
    fun _ _ => rfl

/-- Bundle states in the order of a bundle's life. -/
def BundleState.Before : BundleState → BundleState → Prop := InvImage (· < ·) rank

theorem BundleState.tells : Tells Before := Tells.number.on fun _ _ => rfl

/-- Bundles field by field. -/
def BundleRecord.Before : BundleRecord → BundleRecord → Prop :=
  InvImage (Prod.Lex (· < ·) <| Prod.Lex (· < ·) <| Prod.Lex (· < ·) <|
      Prod.Lex BundleState.Before <| Prod.Lex (· < ·) (List.Lex ServiceRecord.Before))
    fun b => (b.id, b.symbolicName, b.version, b.state, b.location, b.services)

theorem BundleRecord.tells : Tells Before :=
  (Tells.word.pair <| Tells.text.pair <| Tells.text.pair <| BundleState.tells.pair <|
    Tells.text.pair ServiceRecord.tells.list).on fun _ _ => rfl

/-- Configuration entries field by field. -/
def ConfigurationRecord.Before : ConfigurationRecord → ConfigurationRecord → Prop :=
  InvImage (Prod.Lex (· < ·) <| Prod.Lex (Option.lt (· < ·)) <|
      Prod.Lex (Option.lt (· < ·)) PropertiesBefore)
    fun c => (c.pid, c.factoryPid, c.bundleLocation, c.properties)

theorem ConfigurationRecord.tells : Tells Before :=
  (Tells.text.pair <| Tells.text.option.pair <| Tells.text.option.pair PropertiesBefore.tells).on
    fun _ _ => rfl

/-- **Records are compared in their order, field by field**, with all that follows for sorted lists of
them. Bundles and services with smaller ids come first, class registrations with smaller names and then
ids of services, and configuration entries with smaller persistent ids. -/
theorem records_ordered_lawfully :
    (LawfulOrder BundleRecord.Before ∧
      ∀ a b : BundleRecord, a.id < b.id → compare a b = .lt) ∧
    (LawfulOrder ServiceRecord.Before ∧
      ∀ a b : ServiceRecord, a.id < b.id → compare a b = .lt) ∧
    (LawfulOrder ServiceClassRecord.Before ∧
      ∀ a b : ServiceClassRecord,
        a.className < b.className ∨ a.className = b.className ∧ a.serviceId < b.serviceId →
          compare a b = .lt) ∧
    (LawfulOrder ConfigurationRecord.Before ∧
      ∀ a b : ConfigurationRecord, a.pid < b.pid → compare a b = .lt) := by
  refine ⟨⟨.of_tells BundleRecord.tells, fun a b lt => ?_⟩,
    ⟨.of_tells ServiceRecord.tells, fun a b lt => ?_⟩,
    ⟨.of_tells ServiceClassRecord.tells, fun a b first => ?_⟩,
    ⟨.of_tells ConfigurationRecord.tells, fun a b lt => ?_⟩⟩
  · exact (BundleRecord.tells a b).mpr (.left _ _ lt)
  · exact (ServiceRecord.tells a b).mpr (.left _ _ lt)
  · exact (ServiceClassRecord.tells a b).mpr (Prod.lex_def.mpr first)
  · exact (ConfigurationRecord.tells a b).mpr (.left _ _ lt)

/-- So an entry with a factory has its place behind the one of its persistent id that has none, and before
the one of the next persistent id. -/
theorem records_ordered_lawfully_between :
    let plain : ConfigurationRecord := .new "p"
    let made := plain.withFactoryPid "f"
    let next : ConfigurationRecord := .new "q"
    made.pid < next.pid ∧ compare made next = .lt ∧
      Ordered [plain, next] ∧ made ∉ [plain, next] ∧ insertionPoint [plain, next] made = 1 ∧
      [next, made, plain].Perm [plain, made, next] ∧
      sorted [next, made, plain] = sorted [plain, made, next] := by
  intro plain made next
  obtain ⟨-, -, -, lawful, led⟩ := records_ordered_lawfully
  have smaller : made.pid < next.pid := by decide
  have ordered : Ordered [plain, next] := by decide +kernel
  have absent : made ∉ [plain, next] := by decide +kernel
  have perm : [next, made, plain].Perm [plain, made, next] := by decide +kernel
  have between : Ordered ([plain, next].insertIdx 1 made) := by decide +kernel
  have found := ((lawful.place ordered absent).2 1 (by decide)).mp between
  exact ⟨smaller, led made next smaller, ordered, absent, found.symm, perm, lawful.sorted_eq perm⟩

end StateReplica
