import StateReplica.Proofs.Bundles.Collected
import StateReplica.Proofs.Replica.Runs
import StateReplica.Proofs.Services.Bound
import StateReplica.Proofs.Services.ById

/-!
The services of a replica, under either consistency: bundles come and go without them. Where every
class that is brought in carries the id of its service, services and classes match after every run
(`run_services_matched`). Where no load brings two services of one id, the services are those of a
map that takes the same steps (`run_services_listed`). The two are independent: a load may repeat ids
in the first, and classes may carry any ids in the second.
-/

namespace StateReplica

open Replica (Step)

/-! ### Services and classes -/

/-- What a step brings in is bound: every class carries the id of its service. Only loads and
registrations bring services in. -/
def Replica.Step.Bound : Step → Prop
  | .reload (.ok fetched) => ∀ b ∈ fetched.bundles, ∀ s ∈ b.services, s.Bound
  | .notice (.service ⟨.registered, s⟩) => s.Bound
  | _ => True

instance : DecidablePred Replica.Step.Bound
  | .reload (.ok fetched) =>
    inferInstanceAs (Decidable (∀ b ∈ fetched.bundles, ∀ s ∈ b.services, s.Bound))
  | .reload (.error _) => isTrue trivial
  | .notice (.service ⟨.registered, s⟩) => inferInstanceAs (Decidable s.Bound)
  | .notice (.service ⟨.modified, _⟩) => isTrue trivial
  | .notice (.service ⟨.unregistering, _⟩) => isTrue trivial
  | .notice (.bundle _) => isTrue trivial
  | .notice (.framework _) => isTrue trivial

/-- Where every step is bound, services and classes match after every run, and the class names are
those of the classes. -/
theorem Contents.services_after_matched (consistency : BundleConsistency) {fetched : Fetched}
    {steps : List Step} (bound : ∀ s ∈ Step.reload (.ok fetched) :: steps, s.Bound) :
    (Contents.after consistency fetched steps).services.Matched ∧
      (Contents.after consistency fetched steps).services.Coherent := by
  refine Contents.after_induction (P := fun c => c.services.Matched ∧ c.services.Coherent) ?_ ?_
  · intro f hf
    have brought : ∀ b ∈ f.bundles, ∀ s ∈ b.services, s.Bound := bound _ hf
    refine ⟨ServiceTable.ofBundles_matched ?_, ServiceTable.ofBundles_coherent _⟩
    intro b hb
    exact brought b (Collected.mem_of_mem_records hb)
  · intro c event he h
    obtain ⟨matched, coherent⟩ := h
    cases event with
    | bundle e => exact ⟨matched, coherent⟩
    | service e =>
      refine ⟨matched.apply e ?_, coherent.apply e⟩
      intro registers
      obtain ⟨kind, s⟩ := e
      cases registers
      exact bound _ (List.mem_cons_of_mem _ he)
    | framework e => exact ⟨matched, coherent⟩

/-- **Where every step is bound, the classes after a run are those of the services**, each as often as
it is registered and in order. So a name is listed just when services are found under it, and the
services found under it are those whose ids its classes carry. -/
theorem run_services_matched {κ : Type} (r : Replica κ) (fetched : Fetched) (steps : List Step)
    (bound : ∀ s ∈ Step.reload (.ok fetched) :: steps, s.Bound) :
    ∃ c, (r.run (.reload (.ok fetched) :: steps)).ask .contents = .ok (.contents c) ∧
      Ordered c.services.classes ∧
      c.services.classes.Perm (c.services.records.flatMap (·.registeredClasses)) ∧
      ∀ className, ∃ found,
        (r.run (.reload (.ok fetched) :: steps)).ask (.servicesByClass className) =
          .ok (.services found) ∧
        (className ∈ c.services.classNames.toList ↔ found ≠ []) ∧
        ∀ id, (∃ s ∈ found, s.id = id) ↔
          ∃ k ∈ c.services.classes, k.className = className ∧ k.serviceId = id := by
  have h := Contents.services_after_matched r.config.bundleConsistency bound
  obtain ⟨matched, coherent⟩ := h
  refine ⟨_, r.ask_run fetched steps .contents, coherent.ordered, matched.classes, ?_⟩
  intro className
  refine ⟨_, r.ask_run fetched steps (.servicesByClass className), ?_, ?_⟩
  · rw [Std.ExtTreeSet.mem_toList]
    exact matched.mem_classNames_iff coherent className
  · exact matched.ids_byClass className

/-- So it is where two bundles were fetched with a service of one id each, a notice about a change
brings classes of other ids, and somebody unregisters who never registered. -/
theorem run_services_matched_repeated :
    let steps : List Step :=
      [.reload (.ok ⟨.blank, [.withService (.new 1 "a" .active) (.withClass (.new 7 1) "k"),
          .withService (.new 2 "b" .active) (.withClass (.new 7 2) "l")], []⟩),
        .notice (.service ⟨.modified, ⟨7, 3, [⟨"m", 8⟩], ∅⟩⟩),
        .notice (.service ⟨.registered, .withClass (.new 8 2) "k"⟩),
        .notice (.service ⟨.unregistering, ⟨9, 2, [⟨"k", 7⟩], ∅⟩⟩)]
    (∀ s ∈ steps, s.Bound) ∧
      ∃ c found, ((default : Replica Unit).run steps).ask .contents = .ok (.contents c) ∧
        c.services.classes.Perm (c.services.records.flatMap (·.registeredClasses)) ∧
        ((default : Replica Unit).run steps).ask (.servicesByClass "k") = .ok (.services found) ∧
        ("k" ∈ c.services.classNames.toList ↔ found ≠ []) := by
  intro steps
  have bound : ∀ s ∈ steps, s.Bound := by decide
  obtain ⟨c, shown, _, classes, named⟩ := run_services_matched (default : Replica Unit) _ _ bound
  obtain ⟨found, asked, listed, _⟩ := named "k"
  exact ⟨bound, c, found, shown, classes, asked, listed⟩

/-! ### Services by id -/

/-- The services that something fetched brings: those of the bundles that stay. -/
def Fetched.services (fetched : Fetched) : List ServiceRecord :=
  (Collected.ofList fetched.bundles).records.flatMap (·.services)

/-- The services by id after a step. -/
def Replica.Step.putInto (m : Std.ExtTreeMap UInt64 ServiceRecord) :
    Step → Std.ExtTreeMap UInt64 ServiceRecord
  | .reload (.ok fetched) => .ofList (fetched.services.map fun s => (s.id, s))
  | .notice (.service e) => e.putInto m
  | _ => m

/-- Where no load brings two services of one id, the list of services is that of the map that takes
the same steps. -/
theorem Contents.lists_after (consistency : BundleConsistency) {fetched : Fetched}
    {steps : List Step} (distinct : ∀ f, Step.reload (.ok f) ∈ Step.reload (.ok fetched) :: steps →
      (f.services.map (·.id)).Nodup) :
    Lists ServiceRecord.id ((Step.reload (.ok fetched) :: steps).foldl Step.putInto ∅)
      (Contents.after consistency fetched steps).services.records := by
  rw [List.foldl_cons]
  refine Contents.after_rel
    (R := fun c (m : Std.ExtTreeMap UInt64 ServiceRecord) =>
      Lists ServiceRecord.id m c.services.records) ?_ ?_
  · exact ServiceTable.lists_ofBundles (distinct fetched List.mem_cons_self)
  · intro c m s hs h
    cases s with
    | reload outcome =>
      cases outcome with
      | error e => exact h
      | ok f => exact ServiceTable.lists_ofBundles (distinct f (List.mem_cons_of_mem _ hs))
    | notice event =>
      cases event with
      | bundle e => exact h
      | service e => exact ServiceTable.lists_apply h e
      | framework e => exact h

/-- **Where no load brings two services of one id, the services after a run are those of the map that
takes the same steps**, in the order of their ids and each id once. -/
theorem run_services_listed {κ : Type} (r : Replica κ) (fetched : Fetched) (steps : List Step)
    (distinct : ∀ f, Step.reload (.ok f) ∈ Step.reload (.ok fetched) :: steps →
      (f.services.map (·.id)).Nodup) :
    ∃ services,
      (r.run (.reload (.ok fetched) :: steps)).ask .services = .ok (.services services) ∧
      services.Pairwise (fun a b => a.id < b.id) ∧
      services.map (fun s => (s.id, s)) =
        ((Step.reload (.ok fetched) :: steps).foldl Step.putInto ∅).toList := by
  have h := Contents.lists_after r.config.bundleConsistency distinct
  exact ⟨_, r.ask_run fetched steps .services, h.increasing, h.toList_eq.symm⟩

/-- So it is where a bundle was fetched twice, each time with the same service, and the notices are
about services whose classes carry the ids of others. -/
theorem run_services_listed_foreign :
    let old : ServiceRecord := ⟨7, 1, [⟨"k", 8⟩], ∅⟩
    let fetched : Fetched :=
      ⟨.blank, [.withService (.new 1 "a" .active) old, .withService (.new 1 "a" .active) old], []⟩
    let steps : List Step :=
      [.notice (.service ⟨.registered, ⟨5, 2, [⟨"k", 7⟩], ∅⟩⟩),
        .notice (.service ⟨.modified, .withProperty (.new 7 3) "p" "1"⟩),
        .notice (.service ⟨.registered, .new 6 2⟩),
        .notice (.bundle (.uninstalled 1)),
        .notice (.service ⟨.unregistering, .new 6 1⟩)]
    (∀ f, Step.reload (.ok f) ∈ Step.reload (.ok fetched) :: steps →
        (f.services.map (·.id)).Nodup) ∧
      ((default : Replica Unit).run (.reload (.ok fetched) :: steps)).ask .services =
        .ok (.services [⟨5, 2, [⟨"k", 7⟩], ∅⟩, old.withProperty "p" "1"]) := by
  intro old fetched steps
  have distinct : ∀ f, Step.reload (.ok f) ∈ Step.reload (.ok fetched) :: steps →
      (f.services.map (·.id)).Nodup := by
    intro f hf
    obtain rfl : f = fetched := by simpa [steps] using hf
    decide +kernel
  obtain ⟨services, shown, _, listed⟩ :=
    run_services_listed (default : Replica Unit) fetched steps distinct
  have entries : ((Step.reload (.ok fetched) :: steps).foldl Step.putInto ∅).toList =
      [(5, ⟨5, 2, [⟨"k", 7⟩], ∅⟩), (7, old.withProperty "p" "1")] := by decide +kernel
  obtain rfl : services = [⟨5, 2, [⟨"k", 7⟩], ∅⟩, old.withProperty "p" "1"] :=
    (List.map_inj_right fun _ _ eq => (Prod.mk.inj eq).2).mp (listed.trans entries)
  exact ⟨distinct, shown⟩

end StateReplica
