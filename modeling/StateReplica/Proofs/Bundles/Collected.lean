import StateReplica.Contents.Bundles
import StateReplica.Proofs.Keyed

/-!
What a list of fetched bundles comes to. Of several bundles with one id the last one stays, and
nothing stays of the others (`mem_records_iff`). What is said here is said of the collecting alone:
the order in which the bundles that stay are listed is nobody's concern, as every table sorts them.
-/

namespace StateReplica

/-- The last bundle of an id in a list. -/
def lastOf (bundles : List BundleRecord) (id : UInt64) : Option BundleRecord :=
  bundles.reverse.find? (·.id = id)

theorem id_of_lastOf {bundles : List BundleRecord} {id : UInt64} {b : BundleRecord}
    (h : lastOf bundles id = some b) : b.id = id := by
  simpa only [decide_eq_true_eq] using List.find?_some h

theorem lastOf_cons (b : BundleRecord) (bundles : List BundleRecord) (id : UInt64) :
    lastOf (b :: bundles) id = (lastOf bundles id).or (if b.id = id then some b else none) := by
  rw [lastOf, List.reverse_cons, List.find?_append, List.find?_singleton]
  simp only [lastOf, decide_eq_true_eq]

/-- Where no id occurs twice, the last bundle of an id is the one that has it. -/
theorem lastOf_eq_some_iff {bundles : List BundleRecord} (nodup : (bundles.map (·.id)).Nodup)
    {id : UInt64} {b : BundleRecord} : lastOf bundles id = some b ↔ b ∈ bundles ∧ b.id = id := by
  induction bundles generalizing b with
  | nil => exact ⟨fun h => (nomatch h), fun ⟨h, _⟩ => nomatch h⟩
  | cons c bundles ih =>
    obtain ⟨new, nodup⟩ := List.nodup_cons.mp (List.map_cons ▸ nodup)
    rw [lastOf_cons, List.mem_cons]
    by_cases hc : c.id = id
    · have others : lastOf bundles id = none := by
        refine Option.eq_none_iff_forall_ne_some.mpr fun d hd => ?_
        obtain ⟨hd, eq⟩ := (ih nodup).mp hd
        exact new (List.mem_map.mpr ⟨d, hd, eq.trans hc.symm⟩)
      rw [others, if_pos hc, Option.none_or, Option.some.injEq]
      constructor
      · intro eq
        subst eq
        exact ⟨.inl rfl, hc⟩
      · intro given
        obtain ⟨rfl | hb, eq⟩ := given
        · rfl
        · rw [(ih nodup).mpr ⟨hb, eq⟩] at others
          cases others
    · rw [if_neg hc, Option.or_none, ih nodup]
      constructor
      · intro given
        obtain ⟨hb, eq⟩ := given
        exact ⟨.inr hb, eq⟩
      · intro given
        obtain ⟨rfl | hb, eq⟩ := given
        · exact absurd eq hc
        · exact ⟨hb, eq⟩

namespace Collected

/-- The ids are listed once each, just those there are bundles of, and every bundle is found under
its own id. -/
structure Sound (c : Collected) : Prop where
  nodup : c.order.Nodup
  mem_order {id : UInt64} : id ∈ c.order ↔ id ∈ c.byId
  id_eq {id : UInt64} {b : BundleRecord} : c.byId[id]? = some b → b.id = id

theorem getElem?_byId_add (c : Collected) (b : BundleRecord) (id : UInt64) :
    (c.add b).byId[id]? = if b.id = id then some b else c.byId[id]? := by
  simp only [add, Std.ExtTreeMap.getElem?_insert, Std.LawfulEqOrd.compare_eq_iff_eq]

theorem Sound.add {c : Collected} (h : c.Sound) (b : BundleRecord) : (c.add b).Sound := by
  refine ⟨?_, fun {id} => ?_, fun {id a} ha => ?_⟩
  · simp only [Collected.add]
    split
    next => exact h.nodup
    next new =>
      refine List.nodup_append.mpr ⟨h.nodup, List.pairwise_singleton _ _, fun id hid id' hid' eq => ?_⟩
      rw [List.mem_singleton.mp hid'] at eq
      exact new (eq ▸ h.mem_order.mp hid)
  · simp only [Collected.add, Std.ExtTreeMap.mem_insert, Std.LawfulEqOrd.compare_eq_iff_eq]
    split
    next known =>
      rw [h.mem_order]
      constructor
      · exact .inr
      · intro given
        rcases given with rfl | hid
        · exact known
        · exact hid
    next => rw [List.mem_append, List.mem_singleton, h.mem_order, or_comm, eq_comm]
  · rw [getElem?_byId_add] at ha
    split at ha
    next eq =>
      cases ha
      exact eq
    next => exact h.id_eq ha

theorem sound_ofList (bundles : List BundleRecord) : (ofList bundles).Sound := by
  refine List.foldlRecOn (motive := Sound) bundles Collected.add ?_ fun c h b _ => h.add b
  refine ⟨List.Pairwise.nil, fun {id} => ?_, fun {id b} h => ?_⟩
  · exact ⟨fun h => (nomatch h), fun h => absurd h Std.ExtTreeMap.not_mem_empty⟩
  · rw [Std.ExtTreeMap.getElem?_empty] at h
    cases h

/-- Under an id stands the last bundle that has it. -/
theorem getElem?_byId_ofList (bundles : List BundleRecord) (id : UInt64) :
    (ofList bundles).byId[id]? = lastOf bundles id := by
  have collected (c : Collected) :
      (bundles.foldl Collected.add c).byId[id]? = (lastOf bundles id).or c.byId[id]? := by
    induction bundles generalizing c with
    | nil => rfl
    | cons b bundles ih =>
      rw [List.foldl_cons, ih, getElem?_byId_add, lastOf_cons, Option.or_assoc]
      split
      · rw [Option.some_or]
      · rw [Option.none_or]
  rw [ofList, collected, Std.ExtTreeMap.getElem?_empty, Option.or_none]

variable {c : Collected}

/-- The bundles that stay are those found under their ids. -/
theorem Sound.getElem?_eq_some (h : c.Sound) {id : UInt64} {b : BundleRecord} :
    c.byId[id]? = some b ↔ b ∈ c.records ∧ b.id = id := by
  rw [records, List.mem_filterMap]
  constructor
  · intro hb
    refine ⟨⟨id, h.mem_order.mpr ?_, hb⟩, h.id_eq hb⟩
    rw [Std.ExtTreeMap.mem_iff_isSome_getElem?, hb, Option.isSome_some]
  · intro given
    obtain ⟨⟨id', _, hb⟩, rfl⟩ := given
    rw [h.id_eq hb]
    exact hb

/-- No id stays twice. -/
theorem Sound.nodup_ids (h : c.Sound) : (c.records.map (·.id)).Nodup := by
  have distinct : c.records.Pairwise fun b b' => b.id ≠ b'.id := by
    refine List.Pairwise.filterMap _ ?_ h.nodup
    intro id id' ne b hb b' hb' eq
    exact ne (by rw [← h.id_eq hb, ← h.id_eq hb', eq])
  exact List.pairwise_map.mpr distinct

/-- **A bundle stays just when it is the last one of its id.** -/
theorem mem_records_iff {bundles : List BundleRecord} {b : BundleRecord} :
    b ∈ (ofList bundles).records ↔ lastOf bundles b.id = some b := by
  rw [← getElem?_byId_ofList, (sound_ofList bundles).getElem?_eq_some]
  exact ⟨fun hb => ⟨hb, rfl⟩, fun h => h.1⟩

/-- Whatever stays was there. -/
theorem mem_of_mem_records {bundles : List BundleRecord} {b : BundleRecord}
    (h : b ∈ (ofList bundles).records) : b ∈ bundles :=
  List.mem_reverse.mp (List.mem_of_find?_eq_some (mem_records_iff.mp h))

end Collected

end StateReplica
