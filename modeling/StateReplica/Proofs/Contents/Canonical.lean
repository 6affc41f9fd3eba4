import StateReplica.Contents.Basic
import StateReplica.Proofs.Bundles.Strict
import StateReplica.Proofs.Services.Notices

/-!
What was fetched, and the contents it makes. The contents show the last bundle of every id with what is in
it, each kind of thing in order (`Shows`), and there is only one way to show it (`Shows.unique`). So contents
are the same just when what was fetched says the same, however it is arranged and whatever was superseded in
it (`ofFetched_canonical`).
-/

namespace StateReplica

/-- What was fetched says the same: the last bundle of every id and the configurations, whatever their
arrangement. -/
structure Fetched.Same (f f' : Fetched) : Prop where
  framework : f.framework = f'.framework
  last (id : UInt64) : lastOf f.bundles id = lastOf f'.bundles id
  configurations : f.configurations.Perm f'.configurations

namespace Contents

/-- The contents show what was fetched: the last bundles in the order of their ids, by id and by name; just
the services in these bundles, just the classes of these services, and their names; and the configurations;
each in order and as often as it is there. -/
structure Shows (c : Contents) (f : Fetched) : Prop where
  framework : c.framework = f.framework
  bundles : Increasing BundleRecord.id c.bundles.records
  mem_bundles (b : BundleRecord) : b ∈ c.bundles.records ↔ lastOf f.bundles b.id = some b
  byId (id : UInt64) : c.bundles.byId[id]? = lastOf f.bundles id
  names (name : String) : name ∈ c.bundles.names ↔ ∃ b ∈ c.bundles.records, b.symbolicName = name
  services : Ordered c.services.records
  services_perm : c.services.records.Perm (c.bundles.records.flatMap (·.services))
  classes : Ordered c.services.classes
  classes_perm : c.services.classes.Perm (c.services.records.flatMap (·.registeredClasses))
  classNames (name : String) : name ∈ c.services.classNames ↔ ∃ k ∈ c.services.classes, k.className = name
  configurations : Ordered c.configurations
  configurations_perm : c.configurations.Perm f.configurations

/-- **What was fetched is shown** by the contents that it makes. -/
theorem shows_ofFetched (f : Fetched) : (ofFetched f).Shows f := by
  have sound := Collected.sound_ofList f.bundles
  have table := BundleTable.ofCollected_coherent sound
  have services := ServiceTable.ofBundles_coherent (Collected.ofList f.bundles).records
  refine {
    framework := rfl
    bundles := table.lists.increasing
    mem_bundles := fun b => mem_sorted.trans Collected.mem_records_iff
    byId := Collected.getElem?_byId_ofList f.bundles
    names := fun name => table.mem_names
    services := sorted_ordered _
    services_perm := ?_
    classes := services.ordered
    classes_perm := ?_
    classNames := services.names
    configurations := sorted_ordered _
    configurations_perm := sorted_perm _ }
  · exact (sorted_perm _).trans ((sorted_perm _).symm.flatMap_right _)
  · exact (sorted_perm _).trans ((sorted_perm _).symm.flatMap_right _)

namespace Shows

variable {c c' : Contents} {f f' : Fetched}

/-- **There is one way to show what was fetched.** -/
theorem unique (h : c.Shows f) (h' : c'.Shows f) : c = c' := by
  obtain ⟨framework, ⟨bundles, byId, names⟩, ⟨services, classes, classNames⟩, configurations⟩ := c
  obtain ⟨framework', ⟨bundles', byId', names'⟩, ⟨services', classes', classNames'⟩, configurations'⟩ := c'
  obtain rfl : framework = framework' := h.framework.trans h'.framework.symm
  obtain rfl : bundles = bundles' :=
    h.bundles.ext h'.bundles fun b => (h.mem_bundles b).trans (h'.mem_bundles b).symm
  obtain rfl : byId = byId' :=
    Std.ExtTreeMap.ext_getElem? fun id => (h.byId id).trans (h'.byId id).symm
  obtain rfl : names = names' :=
    Std.ExtTreeSet.ext_mem fun name => (h.names name).trans (h'.names name).symm
  obtain rfl : services = services' :=
    h.services.eq_of_perm h'.services (h.services_perm.trans h'.services_perm.symm)
  obtain rfl : classes = classes' :=
    h.classes.eq_of_perm h'.classes (h.classes_perm.trans h'.classes_perm.symm)
  obtain rfl : classNames = classNames' :=
    Std.ExtTreeSet.ext_mem fun name => (h.classNames name).trans (h'.classNames name).symm
  obtain rfl : configurations = configurations' :=
    h.configurations.eq_of_perm h'.configurations (h.configurations_perm.trans h'.configurations_perm.symm)
  rfl

/-- What shows something fetched shows all that says the same. -/
theorem of_same (h : c.Shows f) (same : f.Same f') : c.Shows f' :=
  { h with
    framework := h.framework.trans same.framework
    mem_bundles := fun b => same.last b.id ▸ h.mem_bundles b
    byId := fun id => (h.byId id).trans (same.last id)
    configurations_perm := h.configurations_perm.trans same.configurations }

/-- Contents tell what was fetched, but for its arrangement and what was superseded in it. -/
theorem same (h : c.Shows f) (h' : c.Shows f') : f.Same f' where
  framework := h.framework.symm.trans h'.framework
  last id := (h.byId id).symm.trans (h'.byId id)
  configurations := h.configurations_perm.symm.trans h'.configurations_perm

end Shows

/-- **Contents are canonical.** They show what was fetched: the last bundle of every id, and of services,
classes and names just those in these bundles. They are the same for what says the same, and only for
that. -/
theorem ofFetched_canonical (f : Fetched) :
    (ofFetched f).Shows f ∧ ∀ f', ofFetched f' = ofFetched f ↔ f.Same f' := by
  refine ⟨shows_ofFetched f, fun f' => ?_⟩
  constructor
  · intro eq
    exact (shows_ofFetched f).same (eq ▸ shows_ofFetched f')
  · intro same
    exact (shows_ofFetched f').unique ((shows_ofFetched f).of_same same)

/-- The order of bundles makes no difference, nor does one that is superseded together with its service. -/
theorem ofFetched_superseded :
    let b : BundleRecord := .new 1 "b" .active
    let old := b.withService ((ServiceRecord.new 7 1).withClass "old")
    let a : BundleRecord := .new 2 "a" .active
    let f : Fetched := ⟨.blank, [old, a, b], [.new "p", .new "q"]⟩
    let f' : Fetched := ⟨.blank, [a, b], [.new "q", .new "p"]⟩
    f.Same f' ∧ ofFetched f' = ofFetched f ∧ old ∉ (ofFetched f).bundles.records := by
  intro b old a f f'
  have same : f.Same f' := by
    refine ⟨rfl, fun id => ?_, .swap _ _ _⟩
    rw [show f.bundles = old :: f'.bundles from rfl, lastOf_cons]
    by_cases eq : old.id = id
    · have found : lastOf f'.bundles id = some b := by
        subst eq
        decide
      rw [found, Option.some_or]
    · rw [if_neg eq, Option.or_none]
  obtain ⟨shows, only⟩ := ofFetched_canonical f
  refine ⟨same, (only f').mpr same, fun stays => ?_⟩
  exact absurd ((shows.mem_bundles old).mp stays) (by decide)

end Contents

end StateReplica
