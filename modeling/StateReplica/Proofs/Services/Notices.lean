import StateReplica.Contents.Services
import StateReplica.Proofs.Sorted

/-!
What notices do to services. The list of services and the list of classes after a notice are given
outright for each of its kinds: a service that registers or unregisters takes away what has its id
first, whatever the payload says besides. The names are those of the classes in every table that is
loaded, and every notice keeps them so (`Coherent.apply`), as the names that are up for release are
at least those of the classes that went.

Nothing is assumed of the ids that classes carry, nor that a service has an id of its own.
-/

namespace StateReplica.ServiceTable

variable (t : ServiceTable)

/-! ### Taking services away -/

theorem id_of_find? {id : UInt64} {s : ServiceRecord} (h : t.find? id = some s) : s.id = id := by
  simpa only [decide_eq_true_eq] using List.find?_some h

/-- Where no service is found under an id, none has it. -/
theorem filter_ne_of_find?_none {id : UInt64} (h : t.find? id = none) :
    t.records.filter (·.id ≠ id) = t.records := by
  refine List.filter_eq_self.mpr fun s hs => decide_eq_true fun eq => ?_
  exact List.find?_eq_none.mp h s hs (decide_eq_true eq)

@[simp] theorem classes_releaseNames (names : List String) :
    (t.releaseNames names).classes = t.classes := rfl

/-- A name goes if it is up for release and no class has it. -/
theorem mem_classNames_releaseNames {names : List String} {name : String} :
    name ∈ (t.releaseNames names).classNames ↔
      name ∈ t.classNames ∧ (name ∈ names → ∃ k ∈ t.classes, k.className = name) := by
  have erased (unused : List String) (all : Std.ExtTreeSet String) :
      name ∈ unused.foldl (fun all name => all.erase name) all ↔ name ∈ all ∧ name ∉ unused := by
    induction unused generalizing all with
    | nil => exact ⟨fun h => ⟨h, List.not_mem_nil⟩, fun h => h.1⟩
    | cons other unused ih =>
      rw [List.foldl_cons, ih, Std.ExtTreeSet.mem_erase, Ne, Std.LawfulEqOrd.compare_eq_iff_eq,
        List.mem_cons, not_or, and_comm (a := ¬other = name), and_assoc, eq_comm]
  rw [releaseNames, erased, List.mem_filter]
  simp only [Bool.not_eq_eq_eq_not, Bool.not_true, List.any_eq_false, decide_eq_true_eq, not_and,
    Classical.not_forall, Classical.not_not, exists_prop]

@[simp] theorem records_unregister (s : ServiceRecord) :
    (t.unregister s).records = t.records.filter (·.id ≠ s.id) := rfl

@[simp] theorem classes_unregister (s : ServiceRecord) :
    (t.unregister s).classes = t.classes.filter (·.serviceId ≠ s.id) := rfl

/-! ### The lists after a notice -/

/-- Whoever registers stands in place of the services that had the id. -/
theorem records_registered (s : ServiceRecord) :
    (t.apply ⟨.registered, s⟩).records = sorted (t.records.filter (·.id ≠ s.id) ++ [s]) := by
  show sorted (((t.find? s.id).elim t t.unregister).records ++ [s]) = _
  cases h : t.find? s.id with
  | none => rw [Option.elim_none, t.filter_ne_of_find?_none h]
  | some stale => rw [Option.elim_some, records_unregister, t.id_of_find? h]

/-- The classes of whoever registers come in place of those that carried the id, if a service had
it. -/
theorem classes_registered (s : ServiceRecord) :
    (t.apply ⟨.registered, s⟩).classes =
      sorted ((if (t.find? s.id).isSome then t.classes.filter (·.serviceId ≠ s.id) else t.classes) ++
        s.registeredClasses) := by
  show sorted (((t.find? s.id).elim t t.unregister).classes ++ s.registeredClasses) = _
  cases h : t.find? s.id with
  | none => rfl
  | some stale =>
    rw [Option.elim_some, classes_unregister, t.id_of_find? h]
    rfl

/-- What unregisters has the id of the notice, whether the stored service or the payload is used. -/
theorem id_getD_find? (s : ServiceRecord) : ((t.find? s.id).getD s).id = s.id := by
  cases h : t.find? s.id with
  | none => rfl
  | some stored => exact t.id_of_find? h

/-- After a service unregistered, none has its id. -/
theorem records_unregistering (s : ServiceRecord) :
    (t.apply ⟨.unregistering, s⟩).records = sorted (t.records.filter (·.id ≠ s.id)) := by
  show sorted (t.unregister ((t.find? s.id).getD s)).records = _
  rw [records_unregister, id_getD_find?]

/-- After a service unregistered, no class carries its id. -/
theorem classes_unregistering (s : ServiceRecord) :
    (t.apply ⟨.unregistering, s⟩).classes = sorted (t.classes.filter (·.serviceId ≠ s.id)) := by
  show sorted (t.unregister ((t.find? s.id).getD s)).classes = _
  rw [classes_unregister, id_getD_find?]

/-! ### The names of the classes -/

/-- The names are those of the classes. -/
def NamesClasses (t : ServiceTable) : Prop :=
  ∀ name, name ∈ t.classNames ↔ ∃ k ∈ t.classes, k.className = name

/-- The classes are in order, and the names are theirs. -/
structure Coherent (t : ServiceTable) : Prop where
  ordered : Ordered t.classes
  names : t.NamesClasses

variable {t}

/-- **A coherent table is determined by its services and their classes.** -/
theorem Coherent.ext {u : ServiceTable} (ht : t.Coherent) (hu : u.Coherent)
    (sameServices : t.records = u.records) (sameClasses : t.classes = u.classes) : t = u := by
  obtain ⟨records, classes, classNames⟩ := t
  obtain ⟨records', classes', classNames'⟩ := u
  obtain rfl : records = records' := sameServices
  obtain rfl : classes = classes' := sameClasses
  obtain rfl : classNames = classNames' :=
    Std.ExtTreeSet.ext_mem fun name => (ht.names name).trans (hu.names name).symm
  rfl

/-- Taking a service away leaves the names to the classes that stay. -/
theorem NamesClasses.unregister (h : t.NamesClasses) (s : ServiceRecord) :
    (t.unregister s).NamesClasses := by
  intro name
  rw [ServiceTable.unregister, mem_classNames_releaseNames, classes_releaseNames]
  constructor
  · intro given
    obtain ⟨there, released⟩ := given
    obtain ⟨k, hk, rfl⟩ := (h name).mp there
    by_cases eq : k.serviceId = s.id
    · -- the class goes, so its name is up for release
      refine released (List.mem_append_right _ (List.mem_map_of_mem ?_))
      exact List.mem_filter.mpr ⟨hk, decide_eq_true eq⟩
    · exact ⟨k, List.mem_filter.mpr ⟨hk, decide_eq_true eq⟩, rfl⟩
  · intro used
    obtain ⟨k, hk, eq⟩ := used
    exact ⟨(h name).mpr ⟨k, (List.mem_filter.mp hk).1, eq⟩, fun _ => ⟨k, hk, eq⟩⟩

/-- Adding a service adds the names of its classes. -/
theorem NamesClasses.register (h : t.NamesClasses) (s : ServiceRecord) :
    (t.register s).NamesClasses := by
  intro name
  show name ∈ t.classNames.insertMany s.classNames ↔
    ∃ k ∈ t.classes ++ s.registeredClasses, k.className = name
  simp only [Std.ExtTreeSet.mem_insertMany_list, h name, List.contains_iff_mem,
    ServiceRecord.classNames, List.mem_map, List.mem_append, or_and_right, exists_or]

theorem NamesClasses.ordered (h : t.NamesClasses) : t.ordered.NamesClasses := by
  intro name
  simp only [ServiceTable.ordered, mem_sorted, h name]

/-- The table of fetched services is coherent. -/
theorem ofBundles_coherent (bundles : List BundleRecord) : (ofBundles bundles).Coherent where
  ordered := sorted_ordered _
  names name := by
    simp only [ofBundles, Std.ExtTreeSet.mem_ofList, List.contains_iff_mem, List.mem_map, mem_sorted]

/-- **Every notice keeps a table coherent.** -/
theorem Coherent.apply (h : t.Coherent) (e : ServiceEvent) : (t.apply e).Coherent := by
  obtain ⟨kind, s⟩ := e
  cases kind with
  | registered =>
    refine ⟨by rw [classes_registered]; exact sorted_ordered _, (NamesClasses.register ?_ s).ordered⟩
    cases t.find? s.id with
    | none => exact h.names
    | some stale => exact h.names.unregister stale
  | modified => exact ⟨h.ordered, h.names⟩
  | unregistering =>
    refine ⟨by rw [classes_unregistering]; exact sorted_ordered _, (h.names.unregister _).ordered⟩

end StateReplica.ServiceTable
