import StateReplica.Proofs.Bundles.LastWrite

/-!
Bundles under the strict consistency. A table is **coherent** when its list, its map and its names
tell the same. A loaded table is coherent, and every notice keeps it so. As a coherent table is
determined by its map (`Coherent.ext`) and the map by the last writes, applying notices comes to the
same as loading what they leave (`foldl_eq_ofCollected`), whatever way the list and the names took.
-/

namespace StateReplica

namespace BundleTable

/-- The list lists the map, and the names are those of the bundles in it. -/
structure Coherent (t : BundleTable) : Prop where
  lists : Lists BundleRecord.id t.byId t.records
  mem_names {name : String} : name ∈ t.names ↔ ∃ b ∈ t.records, b.symbolicName = name

/-- **A coherent table is determined by its map.** -/
theorem Coherent.ext {t u : BundleTable} (ht : t.Coherent) (hu : u.Coherent)
    (h : ∀ id : UInt64, t.byId[id]? = u.byId[id]?) : t = u := by
  obtain ⟨records, byId, names⟩ := t
  obtain ⟨records', byId', names'⟩ := u
  obtain rfl : byId = byId' := Std.ExtTreeMap.ext_getElem? h
  obtain rfl : records = records' := ht.lists.list_unique hu.lists
  obtain rfl : names = names' :=
    Std.ExtTreeSet.ext_mem fun name => ht.mem_names.trans hu.mem_names.symm
  rfl

/-- The table of collected bundles is coherent. -/
theorem ofCollected_coherent {c : Collected} (h : c.Sound) : (ofCollected c).Coherent where
  lists := .of_nodup BundleRecord.ledBy_id h.nodup_ids h.getElem?_eq_some
  mem_names := by
    simp only [ofCollected, Std.ExtTreeSet.mem_ofList, List.contains_iff_mem, List.mem_map,
      mem_sorted, implies_true]

/-! ### Names that go -/

variable {t : BundleTable}

theorem mem_names_releaseName {name other : String} :
    other ∈ (t.releaseName name).names ↔
      other ∈ t.names ∧ (name = other → ∃ b ∈ t.records, b.symbolicName = name) := by
  rw [releaseName]
  split
  next used =>
    simp only [List.any_eq_true, decide_eq_true_eq] at used
    exact ⟨fun h => ⟨h, fun _ => used⟩, fun h => h.1⟩
  next unused =>
    simp only [List.any_eq_true, decide_eq_true_eq] at unused
    rw [Std.ExtTreeSet.mem_erase, Ne, Std.LawfulEqOrd.compare_eq_iff_eq, and_comm]
    exact and_congr_right fun _ => ⟨fun ne eq => absurd eq ne, fun h eq => unused (h eq)⟩

/-- A name that may be one too many is released, and the names are those of the bundles again. -/
theorem Coherent.of_releaseName {name : String} (lists : Lists BundleRecord.id t.byId t.records)
    (names : ∀ n, n ∈ t.names ↔ (∃ b ∈ t.records, b.symbolicName = n) ∨ name = n) :
    (t.releaseName name).Coherent := by
  refine ⟨by rwa [byId_releaseName, records_releaseName], fun {n} => ?_⟩
  rw [mem_names_releaseName, records_releaseName, names]
  constructor
  · intro given
    obtain ⟨used | rfl, kept⟩ := given
    · exact used
    · exact kept rfl
  · intro used
    refine ⟨.inl used, ?_⟩
    intro eq
    subst eq
    exact used

/-! ### Notices -/

/-- Under the strict consistency, taking a bundle away keeps a table coherent. -/
theorem Coherent.uninstall (h : t.Coherent) (id : UInt64) : (t.uninstall .strict id).Coherent := by
  rw [BundleTable.uninstall]
  split
  next => exact h
  next removed found =>
    obtain rfl : removed.id = id := h.lists.key_eq found
    refine Coherent.of_releaseName (h.lists.erase removed.id) fun n => ?_
    -- the names still include the one of the removed bundle
    rw [h.mem_names]
    constructor
    · intro given
      obtain ⟨b, hb, rfl⟩ := given
      by_cases eq : b.id = removed.id
      · rw [h.lists.mem_iff, eq, found, Option.some.injEq] at hb
        exact .inr (hb ▸ rfl)
      · exact .inl ⟨b, List.mem_filter.mpr ⟨hb, decide_eq_true eq⟩, rfl⟩
    · intro given
      rcases given with ⟨b, hb, rfl⟩ | rfl
      · exact ⟨b, (List.mem_filter.mp hb).1, rfl⟩
      · exact ⟨removed, h.lists.mem_iff.mpr found, rfl⟩

/-- Under the strict consistency, taking a bundle up keeps a table coherent. -/
theorem Coherent.change (h : t.Coherent) (b : BundleRecord) : (t.change .strict b).Coherent := by
  have others : (if t.byId[b.id]?.isSome then t.records.filter (·.id ≠ b.id) else t.records) =
      t.records.filter (·.id ≠ b.id) := by
    split
    next => rfl
    next new =>
      rw [Bool.not_eq_true, Option.isSome_eq_false_iff, Option.isNone_iff_eq_none] at new
      exact (h.lists.filter_ne_of_none new).symm
  have ordered : Ordered (t.records.filter (·.id ≠ b.id)) :=
    (h.lists.increasing.filter _).ordered BundleRecord.ledBy_id
  have perm := ordered.insertSorted_perm b
  have lists := h.lists.insert BundleRecord.ledBy_id (ordered.insertSorted b) perm
  -- besides the names of the bundles, the names include the one the bundle had before
  have names (n : String) : n ∈ t.names.insert b.symbolicName ↔
      (∃ c ∈ insertSorted (t.records.filter (·.id ≠ b.id)) b, c.symbolicName = n) ∨
        ∃ previous, t.byId[b.id]? = some previous ∧ previous.symbolicName = n := by
    simp only [Std.ExtTreeSet.mem_insert, Std.LawfulEqOrd.compare_eq_iff_eq, h.mem_names,
      perm.mem_iff, List.mem_cons, List.mem_filter, decide_eq_true_eq]
    constructor
    · intro given
      rcases given with rfl | ⟨c, hc, rfl⟩
      · exact .inl ⟨b, .inl rfl, rfl⟩
      · by_cases eq : c.id = b.id
        · exact .inr ⟨c, eq ▸ h.lists.getElem?_key hc, rfl⟩
        · exact .inl ⟨c, .inr ⟨hc, eq⟩, rfl⟩
    · intro given
      rcases given with ⟨c, rfl | ⟨hc, _⟩, rfl⟩ | ⟨previous, hp, rfl⟩
      · exact .inl rfl
      · exact .inr ⟨c, hc, rfl⟩
      · exact .inr ⟨previous, (h.lists.getElem?_eq_some.mp hp).1, rfl⟩
  rw [BundleTable.change]
  simp only [others]
  split
  next new =>
    refine ⟨lists, fun {n} => (names n).trans ?_⟩
    simp only [new, reduceCtorEq, false_and, exists_false, or_false]
  next previous found =>
    simp only [found, Option.some.injEq, exists_eq_left'] at names
    split
    next same =>
      refine ⟨lists, fun {n} => (names n).trans ⟨?_, .inl⟩⟩
      intro given
      rcases given with used | rfl
      · exact used
      · exact ⟨b, perm.mem_iff.mpr List.mem_cons_self, same.symm⟩
    next => exact Coherent.of_releaseName lists names

/-- **Under the strict consistency a notice keeps a table coherent.** -/
theorem Coherent.apply (h : t.Coherent) (e : BundleEvent) : (t.apply .strict e).Coherent := by
  cases e with
  | uninstalled id => exact h.uninstall id
  | changed kind b => exact h.change b

/-- So do notices in turn. -/
theorem Coherent.foldl (h : t.Coherent) (events : List BundleEvent) :
    (events.foldl (fun t e => t.apply .strict e) t).Coherent :=
  List.foldlRecOn events _ h fun _ h e _ => h.apply e

/-! ### Loading what notices leave -/

/-- Bundles list what stands under the ids: each of it once, and nothing else, in any order. -/
structure Listing (look : UInt64 → Option BundleRecord) (bundles : List BundleRecord) : Prop where
  nodup_ids : (bundles.map (·.id)).Nodup
  mem_iff {b : BundleRecord} : b ∈ bundles ↔ look b.id = some b

/-- The bundles of a table after a load and some notices are a listing of the last writes. -/
theorem listing_foldl (bundles : List BundleRecord) (events : List BundleEvent) :
    Listing (lastWrite bundles events)
      (events.foldl (fun t e => t.apply .strict e) (ofCollected (.ofList bundles))).records := by
  have h := (ofCollected_coherent (Collected.sound_ofList bundles)).foldl events
  refine ⟨h.lists.increasing.nodup_keys, fun {b} => ?_⟩
  rw [h.lists.mem_iff, getElem?_byId_loaded]

/-- Only the last notices about the bundles count for what is left of a load. -/
theorem foldl_eq_of_lastAbout (bundles : List BundleRecord) {events others : List BundleEvent}
    (h : ∀ id, BundleEvent.lastAbout others id = BundleEvent.lastAbout events id) :
    others.foldl (fun t e => t.apply .strict e) (ofCollected (.ofList bundles)) =
      events.foldl (fun t e => t.apply .strict e) (ofCollected (.ofList bundles)) := by
  have loaded := ofCollected_coherent (Collected.sound_ofList bundles)
  refine (loaded.foldl others).ext (loaded.foldl events) fun id => ?_
  rw [getElem?_byId_foldl, getElem?_byId_foldl, h]

/-- **Notices after a load come to the same as a load of what they leave**, however it is listed. -/
theorem foldl_eq_ofCollected (bundles : List BundleRecord) (events : List BundleEvent)
    {left : List BundleRecord} (h : Listing (lastWrite bundles events) left) :
    events.foldl (fun t e => t.apply .strict e) (ofCollected (.ofList bundles)) =
      ofCollected (.ofList left) := by
  have coherent := (ofCollected_coherent (Collected.sound_ofList bundles)).foldl events
  refine coherent.ext (ofCollected_coherent (Collected.sound_ofList left)) fun id => ?_
  rw [getElem?_byId_loaded, ofCollected, Collected.getElem?_byId_ofList]
  refine Option.ext fun b => ?_
  rw [lastOf_eq_some_iff h.nodup_ids, h.mem_iff]
  constructor
  · intro hb
    obtain rfl := lastWrite_id hb
    exact ⟨hb, rfl⟩
  · intro given
    obtain ⟨hb, rfl⟩ := given
    exact hb

end BundleTable

end StateReplica
