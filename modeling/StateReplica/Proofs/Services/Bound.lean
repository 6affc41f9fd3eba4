import StateReplica.Proofs.Services.Notices

/-!
Services whose classes carry their id. Where all of them are so, and those that register too, the
classes of a table are those of its services, each as often as it is registered (`Matched`). Then
taking away the services of an id and taking away the classes that carry it are the same thing, and
a class name finds services just when it is the name of a class.

What modifies a service or unregisters it need not be so: its classes count for nothing.
-/

namespace StateReplica

namespace ServiceRecord

/-- Every class of the service carries its id. -/
def Bound (s : ServiceRecord) : Prop := ∀ k ∈ s.registeredClasses, k.serviceId = s.id

instance (s : ServiceRecord) : Decidable s.Bound := by unfold Bound; infer_instance

/-- A service without classes is bound. -/
theorem bound_new (id bundleId : UInt64) : (new id bundleId).Bound := fun _ hk => nomatch hk

/-- A service stays bound when a class is added to it. -/
theorem Bound.withClass {s : ServiceRecord} (h : s.Bound) (className : String) :
    (s.withClass className).Bound := by
  intro k hk
  rcases List.mem_append.mp hk with hk | hk
  · exact h k hk
  · rw [List.mem_singleton.mp hk]
    rfl

/-- A service provides the names of its classes. -/
theorem provides_iff {s : ServiceRecord} {className : String} :
    s.provides className = true ↔ ∃ k ∈ s.registeredClasses, k.className = className := by
  rw [provides, List.contains_iff_mem, classNames, List.mem_map]

end ServiceRecord

/-- Of bound services, the classes that do not carry an id are the classes of those that do not have
it. -/
theorem filter_registeredClasses {services : List ServiceRecord} (bound : ∀ s ∈ services, s.Bound)
    (id : UInt64) :
    (services.flatMap (·.registeredClasses)).filter (·.serviceId ≠ id) =
      (services.filter (·.id ≠ id)).flatMap (·.registeredClasses) := by
  induction services with
  | nil => rfl
  | cons s services ih =>
    have hs := bound s List.mem_cons_self
    rw [List.flatMap_cons, List.filter_append, ih fun s hs => bound s (List.mem_cons_of_mem _ hs)]
    by_cases eq : s.id = id
    · have goes : ¬s.id ≠ id := fun ne => ne eq
      rw [List.filter_cons, decide_eq_false goes, if_neg Bool.false_ne_true]
      rw [List.filter_eq_nil_iff.mpr fun k hk => ?_, List.nil_append]
      rw [hs k hk, decide_eq_false goes]
      exact Bool.false_ne_true
    · rw [List.filter_cons, if_pos (decide_eq_true eq), List.flatMap_cons]
      rw [List.filter_eq_self.mpr fun k hk => decide_eq_true (hs k hk ▸ eq)]

namespace ServiceTable

/-- The services are bound, and the classes are theirs. -/
structure Matched (t : ServiceTable) : Prop where
  bound : ∀ s ∈ t.records, s.Bound
  classes : t.classes.Perm (t.records.flatMap (·.registeredClasses))

/-- The table of bound services that were fetched is matched. -/
theorem ofBundles_matched {bundles : List BundleRecord}
    (bound : ∀ b ∈ bundles, ∀ s ∈ b.services, s.Bound) : (ofBundles bundles).Matched where
  bound s hs := by
    obtain ⟨b, hb, hs⟩ := List.mem_flatMap.mp (mem_sorted.mp hs)
    exact bound b hb s hs
  classes := (sorted_perm _).trans ((sorted_perm _).flatMap_right _).symm

variable {t : ServiceTable}

/-- Taking away the services of an id and the classes that carry it leaves the classes of the others. -/
theorem Matched.filter_classes (h : t.Matched) (id : UInt64) :
    (t.classes.filter (·.serviceId ≠ id)).Perm
      ((t.records.filter (·.id ≠ id)).flatMap (·.registeredClasses)) :=
  filter_registeredClasses h.bound id ▸ h.classes.filter _

theorem setProperties_flatMap (id : UInt64) (properties : Properties)
    (services : List ServiceRecord) :
    (setProperties id properties services).flatMap (·.registeredClasses) =
      services.flatMap (·.registeredClasses) := by
  induction services with
  | nil => rfl
  | cons s services ih =>
    rw [setProperties]
    split
    · rfl
    · rw [List.flatMap_cons, List.flatMap_cons, ih]

theorem bound_setProperties {services : List ServiceRecord} (bound : ∀ s ∈ services, s.Bound)
    (id : UInt64) (properties : Properties) :
    ∀ s ∈ setProperties id properties services, s.Bound := by
  induction services with
  | nil => exact bound
  | cons s services ih =>
    obtain ⟨hs, others⟩ := List.forall_mem_cons.mp bound
    rw [setProperties]
    split
    · exact List.forall_mem_cons.mpr ⟨hs, others⟩
    · exact List.forall_mem_cons.mpr ⟨hs, ih others⟩

/-- **A notice keeps a table matched**, if what registers is bound. -/
theorem Matched.apply (h : t.Matched) (e : ServiceEvent)
    (bound : e.kind = .registered → e.service.Bound) : (t.apply e).Matched := by
  obtain ⟨kind, s⟩ := e
  cases kind with
  | registered =>
    -- without a service of the id there is no class that carries it either
    have rest : (if (t.find? s.id).isSome then t.classes.filter (·.serviceId ≠ s.id) else t.classes).Perm
        ((t.records.filter (·.id ≠ s.id)).flatMap (·.registeredClasses)) := by
      split
      next => exact h.filter_classes s.id
      next new =>
        rw [Bool.not_eq_true, Option.isSome_eq_false_iff, Option.isNone_iff_eq_none] at new
        rw [t.filter_ne_of_find?_none new]
        exact h.classes
    constructor
    · intro other hs
      rw [records_registered, mem_sorted, List.mem_append, List.mem_singleton] at hs
      rcases hs with hs | rfl
      · exact h.bound other (List.mem_filter.mp hs).1
      · exact bound rfl
    · rw [classes_registered, records_registered]
      refine (sorted_perm _).trans (.trans ?_ ((sorted_perm _).flatMap_right _).symm)
      rw [List.flatMap_append, List.flatMap_singleton]
      exact rest.append_right _
  | modified =>
    refine ⟨bound_setProperties h.bound s.id s.properties, ?_⟩
    show t.classes.Perm ((setProperties s.id s.properties t.records).flatMap _)
    rw [setProperties_flatMap]
    exact h.classes
  | unregistering =>
    constructor
    · intro other hs
      rw [records_unregistering, mem_sorted] at hs
      exact h.bound other (List.mem_filter.mp hs).1
    · rw [classes_unregistering, records_unregistering]
      refine (sorted_perm _).trans (.trans ?_ ((sorted_perm _).flatMap_right _).symm)
      exact h.filter_classes s.id

/-! ### Services by class -/

theorem mem_byClass {s : ServiceRecord} {className : String} :
    s ∈ t.byClass className ↔ s ∈ t.records ∧ ∃ k ∈ s.registeredClasses, k.className = className := by
  rw [byClass, List.mem_filter, ServiceRecord.provides_iff]

/-- A class is a class of some service. -/
theorem Matched.mem_classes (h : t.Matched) {k : ServiceClassRecord} :
    k ∈ t.classes ↔ ∃ s ∈ t.records, k ∈ s.registeredClasses := by
  rw [h.classes.mem_iff, List.mem_flatMap]

/-- The services of a class name have the ids that the classes of the name carry. -/
theorem Matched.ids_byClass (h : t.Matched) (className : String) (id : UInt64) :
    (∃ s ∈ t.byClass className, s.id = id) ↔
      ∃ k ∈ t.classes, k.className = className ∧ k.serviceId = id := by
  simp only [mem_byClass, h.mem_classes]
  constructor
  · intro given
    obtain ⟨s, ⟨hs, k, hk, named⟩, rfl⟩ := given
    exact ⟨k, ⟨s, hs, hk⟩, named, h.bound s hs k hk⟩
  · intro given
    obtain ⟨k, ⟨s, hs, hk⟩, named, rfl⟩ := given
    exact ⟨s, ⟨hs, k, hk, named⟩, (h.bound s hs k hk).symm⟩

/-- A name is the name of a class just when there are services of it. -/
theorem Matched.mem_classNames_iff (h : t.Matched) (coherent : t.Coherent) (className : String) :
    className ∈ t.classNames ↔ t.byClass className ≠ [] := by
  rw [coherent.names]
  constructor
  · intro given
    obtain ⟨k, hk, named⟩ := given
    obtain ⟨s, hs, hk⟩ := h.mem_classes.mp hk
    exact List.ne_nil_of_mem (mem_byClass.mpr ⟨hs, k, hk, named⟩)
  · intro some
    obtain ⟨s, hs⟩ := List.exists_mem_of_ne_nil _ some
    obtain ⟨hs, k, hk, named⟩ := mem_byClass.mp hs
    exact ⟨k, h.mem_classes.mpr ⟨s, hs, hk⟩, named⟩

end ServiceTable

end StateReplica
