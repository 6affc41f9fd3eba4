import StateReplica.Proofs.Bundles.Strict

/-!
Bundles under the legacy consistency. The list and the map still tell the same (`Indexed`), but the
list is in the order in which the bundles were last heard of, and a name depends on the whole past: it
comes with a bundle and goes with any bundle that has it then, whoever else has it. Both are given in
terms of the notices alone: the list by the last notices about the bundles
(`Indexed.records_foldl`), the names by when they came and went (`mem_names_loaded`).
-/

namespace StateReplica

namespace BundleTable

/-! ### The list and the map -/

/-- The map has the bundles of the list under their ids, and no id is listed twice. -/
structure Indexed (t : BundleTable) : Prop where
  nodup_ids : (t.records.map (·.id)).Nodup
  getElem?_eq_some {id : UInt64} {b : BundleRecord} :
    t.byId[id]? = some b ↔ b ∈ t.records ∧ b.id = id

/-- A coherent table is indexed, whatever its names. -/
theorem Coherent.indexed {t : BundleTable} (h : t.Coherent) : t.Indexed where
  nodup_ids := h.lists.increasing.nodup_keys
  getElem?_eq_some := h.lists.getElem?_eq_some

theorem ofCollected_indexed (bundles : List BundleRecord) :
    (ofCollected (.ofList bundles)).Indexed :=
  (ofCollected_coherent (Collected.sound_ofList bundles)).indexed

variable {t : BundleTable}

/-- Where nothing stands under an id, no bundle of the list has it. -/
theorem Indexed.filter_ne_of_none (h : t.Indexed) {id : UInt64} (none : t.byId[id]? = none) :
    t.records.filter (·.id ≠ id) = t.records := by
  refine List.filter_eq_self.mpr fun b hb => decide_eq_true fun eq => ?_
  rw [h.getElem?_eq_some.mpr ⟨hb, eq⟩] at none
  cases none

/-- **A notice takes what had the id off the list and puts what it leaves at the end.** -/
theorem Indexed.records_apply (h : t.Indexed) (e : BundleEvent) :
    (t.apply .legacy e).records = t.records.filter (·.id ≠ e.bundleId) ++ e.outcome.toList := by
  cases e with
  | uninstalled id =>
    show (t.uninstall .legacy id).records = t.records.filter (·.id ≠ id) ++ []
    rw [List.append_nil, uninstall]
    cases found : t.byId[id]? with
    | none => exact (h.filter_ne_of_none found).symm
    | some removed =>
      obtain ⟨_, rfl⟩ := h.getElem?_eq_some.mp found
      rfl
  | changed kind b =>
    show (if t.byId[b.id]?.isSome then t.records.filter (·.id ≠ b.id) else t.records) ++ [b] =
      t.records.filter (·.id ≠ b.id) ++ [b]
    cases found : t.byId[b.id]? with
    | none => rw [h.filter_ne_of_none found, ite_self]
    | some previous => rfl

/-- **A notice keeps a table indexed.** -/
theorem Indexed.apply (h : t.Indexed) (e : BundleEvent) : (t.apply .legacy e).Indexed := by
  refine ⟨?_, fun {id b} => ?_⟩
  · have others : ((t.records.filter (·.id ≠ e.bundleId)).map (·.id)).Nodup :=
      (List.filter_sublist.map _).nodup h.nodup_ids
    rw [h.records_apply, List.map_append]
    cases outcome : e.outcome with
    | none => simpa using others
    | some b =>
      refine List.nodup_append.mpr ⟨others, List.pairwise_singleton _ _, fun id hid id' hid' eq => ?_⟩
      obtain ⟨other, ho, rfl⟩ := List.mem_map.mp hid
      obtain rfl : id' = b.id := by simpa using hid'
      rw [BundleEvent.id_of_outcome outcome] at eq
      exact of_decide_eq_true (List.mem_filter.mp ho).2 eq
  · rw [getElem?_byId_apply, h.records_apply, List.mem_append, List.mem_filter, decide_eq_true_eq,
      Option.mem_toList]
    by_cases about : e.bundleId = id
    · rw [if_pos about]
      constructor
      · intro left
        exact ⟨.inr left, (BundleEvent.id_of_outcome left).trans about⟩
      · intro given
        obtain ⟨⟨_, ne⟩ | left, eq⟩ := given
        · exact absurd (eq.trans about.symm) ne
        · exact left
    · rw [if_neg about, h.getElem?_eq_some]
      constructor
      · intro given
        obtain ⟨hb, rfl⟩ := given
        exact ⟨.inl ⟨hb, fun eq => about eq.symm⟩, rfl⟩
      · intro given
        obtain ⟨⟨hb, _⟩ | left, eq⟩ := given
        · exact ⟨hb, eq⟩
        · exact absurd ((BundleEvent.id_of_outcome left).symm.trans eq) about

/-- So do notices in turn. -/
theorem Indexed.foldl (h : t.Indexed) (events : List BundleEvent) :
    (events.foldl (fun t e => t.apply .legacy e) t).Indexed :=
  List.foldlRecOn events _ h fun _ h e _ => h.apply e

end BundleTable

/-! ### The order of the list -/

/-- The bundles that notices leave, in the order of the last notices about them. -/
def BundleEvent.lastChanges : List BundleEvent → List BundleRecord
  | [] => []
  | e :: later =>
    if (lastAbout later e.bundleId).isNone then e.outcome.toList ++ lastChanges later
    else lastChanges later

namespace BundleTable

variable {t : BundleTable}

/-- **Notices leave the bundles they are not about where they are**, and put the others behind them, in
the order in which these were last heard of. -/
theorem Indexed.records_foldl (h : t.Indexed) (events : List BundleEvent) :
    (events.foldl (fun t e => t.apply .legacy e) t).records =
      t.records.filter (fun b => (BundleEvent.lastAbout events b.id).isNone) ++
        BundleEvent.lastChanges events := by
  induction events generalizing t with
  | nil =>
    rw [BundleEvent.lastChanges, List.append_nil]
    exact (List.filter_eq_self.mpr fun _ _ => rfl).symm
  | cons e events ih =>
    -- of the others those stay which no later notice is about
    have others : (t.records.filter (·.id ≠ e.bundleId)).filter
          (fun b => (BundleEvent.lastAbout events b.id).isNone) =
        t.records.filter fun b => (BundleEvent.lastAbout (e :: events) b.id).isNone := by
      rw [List.filter_filter]
      refine List.filter_congr fun b _ => ?_
      rw [BundleEvent.lastAbout_cons]
      by_cases about : e.bundleId = b.id
      · simp [about]
      · simp [about, Ne.symm about]
    have left : e.outcome.toList.filter (fun b => (BundleEvent.lastAbout events b.id).isNone) =
        if (BundleEvent.lastAbout events e.bundleId).isNone then e.outcome.toList else [] := by
      cases outcome : e.outcome with
      | none => simp
      | some b =>
        rw [Option.toList_some, List.filter_cons, BundleEvent.id_of_outcome outcome, List.filter_nil]
    rw [List.foldl_cons, ih (h.apply e), h.records_apply, List.filter_append, others, left,
      List.append_assoc, BundleEvent.lastChanges]
    split
    · rfl
    · rw [List.nil_append]

end BundleTable

/-! ### The names -/

/-- What comes at some times and goes at others is there just when it came and has neither gone since
then nor come again: the time at which it came last is meant. -/
theorem there_iff_since_last {came gone there : Nat → Prop} (zero : there 0 ↔ came 0)
    (succ : ∀ k, there (k + 1) ↔ came (k + 1) ∨ there k ∧ ¬gone (k + 1)) (k : Nat) :
    there k ↔ ∃ i ≤ k, came i ∧ ∀ j, i < j → j ≤ k → ¬came j ∧ ¬gone j := by
  induction k with
  | zero =>
    rw [zero]
    constructor
    · intro h
      exact ⟨0, Nat.le_refl 0, h, fun j lt le => by omega⟩
    · rintro ⟨i, le, h, _⟩
      obtain rfl : i = 0 := by omega
      exact h
  | succ k ih =>
    rw [succ, ih]
    constructor
    · intro given
      by_cases now : came (k + 1)
      · exact ⟨k + 1, Nat.le_refl _, now, fun j lt le => by omega⟩
      · obtain ⟨⟨i, le, h, since⟩, stays⟩ := given.resolve_left now
        refine ⟨i, by omega, h, fun j lt le' => ?_⟩
        by_cases last : j = k + 1
        · subst last
          exact ⟨now, stays⟩
        · exact since j lt (by omega)
    · rintro ⟨i, le, h, since⟩
      by_cases now : i = k + 1
      · subst now
        exact .inl h
      · refine .inr ⟨⟨i, by omega, h, fun j lt le' => since j lt (by omega)⟩, ?_⟩
        exact (since (k + 1) (by omega) (Nat.le_refl _)).2

section Names

variable (bundles : List BundleRecord) (events : List BundleEvent) (name : String)

/-- A name comes with the load, which is time zero, if a bundle that stays has it, and later with a
notice that leaves a bundle of that name. -/
def NameComes : Nat → Prop
  | 0 => ∃ b ∈ (Collected.ofList bundles).records, b.symbolicName = name
  | i + 1 => ∃ kind b, events[i]? = some (.changed kind b) ∧ b.symbolicName = name

/-- A name goes with a notice that takes a bundle away, if the bundle is there and has it. -/
def NameGoes : Nat → Prop
  | 0 => False
  | i + 1 => ∃ id b, events[i]? = some (.uninstalled id) ∧
      lastWrite bundles (events.take i) id = some b ∧ b.symbolicName = name

namespace BundleTable

theorem mem_names_change (t : BundleTable) (b : BundleRecord) :
    name ∈ (t.change .legacy b).names ↔ b.symbolicName = name ∨ name ∈ t.names := by
  show name ∈ t.names.insert b.symbolicName ↔ _
  rw [Std.ExtTreeSet.mem_insert, Std.LawfulEqOrd.compare_eq_iff_eq]

theorem mem_names_uninstall (t : BundleTable) (id : UInt64) :
    name ∈ (t.uninstall .legacy id).names ↔
      name ∈ t.names ∧ ¬∃ b, t.byId[id]? = some b ∧ b.symbolicName = name := by
  rw [uninstall]
  cases t.byId[id]? with
  | none => simp
  | some removed =>
    show name ∈ t.names.erase removed.symbolicName ↔ _
    rw [Std.ExtTreeSet.mem_erase, Ne, Std.LawfulEqOrd.compare_eq_iff_eq, and_comm]
    simp

/-- **A name is there just when it has not gone since it came last.** -/
theorem mem_names_loaded :
    name ∈ (events.foldl (fun t e => t.apply .legacy e) (ofCollected (.ofList bundles))).names ↔
      ∃ i, NameComes bundles events name i ∧
        ∀ j, i < j → ¬NameComes bundles events name j ∧ ¬NameGoes bundles events name j := by
  let table (k : Nat) : BundleTable :=
    (events.take k).foldl (fun t e => t.apply .legacy e) (ofCollected (.ofList bundles))
  let there (k : Nat) : Prop := name ∈ (table k).names
  have zero : there 0 ↔ NameComes bundles events name 0 := by
    show name ∈ (ofCollected (.ofList bundles)).names ↔ _
    rw [(ofCollected_coherent (Collected.sound_ofList bundles)).mem_names]
    simp only [ofCollected, mem_sorted, NameComes]
  have succ (k : Nat) : there (k + 1) ↔
      NameComes bundles events name (k + 1) ∨ there k ∧ ¬NameGoes bundles events name (k + 1) := by
    have next : table (k + 1) = events[k]?.toList.foldl (fun t e => t.apply .legacy e) (table k) := by
      simp only [table]
      rw [List.take_add_one, List.foldl_append]
    show name ∈ (table (k + 1)).names ↔ _ ∨ name ∈ (table k).names ∧ _
    rw [next, NameComes, NameGoes]
    cases heard : events[k]? with
    | none => simp
    | some e =>
      cases e with
      | uninstalled id =>
        show name ∈ ((table k).uninstall .legacy id).names ↔ _
        rw [mem_names_uninstall, getElem?_byId_loaded]
        simp
      | changed kind b =>
        show name ∈ ((table k).change .legacy b).names ↔ _
        rw [mem_names_change]
        have comes : (∃ kind' b', some (BundleEvent.changed kind b) = some (.changed kind' b') ∧
            b'.symbolicName = name) ↔ b.symbolicName = name := by
          constructor
          · rintro ⟨_, _, eq, h⟩
            cases eq
            exact h
          · intro h
            exact ⟨kind, b, rfl, h⟩
        rw [comes]
        simp
  have whole : table events.length =
      events.foldl (fun t e => t.apply .legacy e) (ofCollected (.ofList bundles)) := by
    simp only [table, List.take_length]
  -- nothing comes or goes after the last notice
  have behind {j : Nat} (h : events.length < j) :
      ¬NameComes bundles events name j ∧ ¬NameGoes bundles events name j := by
    obtain ⟨j, rfl⟩ : ∃ i, j = i + 1 := ⟨j - 1, by omega⟩
    have none : events[j]? = none := List.getElem?_eq_none (by omega)
    simp [NameComes, NameGoes, none]
  rw [← whole]
  refine (there_iff_since_last zero succ events.length).trans ?_
  constructor
  · rintro ⟨i, le, comes, since⟩
    refine ⟨i, comes, fun j lt => ?_⟩
    by_cases le' : j ≤ events.length
    · exact since j lt le'
    · exact behind (by omega)
  · rintro ⟨i, comes, since⟩
    refine ⟨i, ?_, comes, fun j lt _ => since j lt⟩
    exact Nat.le_of_not_lt fun gt => (behind gt).1 comes

end BundleTable

end Names

end StateReplica
