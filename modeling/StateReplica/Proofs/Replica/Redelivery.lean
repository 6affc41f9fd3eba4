import StateReplica.Proofs.Bundles.Legacy
import StateReplica.Proofs.Replica.Outcomes
import StateReplica.Proofs.Replica.Services

/-!
Notices that come twice. What a notice about a bundle leaves is the same when it comes again at once,
under either consistency, and so is what a notice about a service leaves, as long as every class
carries the id of its service (`redelivered_notice_counts_once`). The generation is another matter: it
counts the second notice too.

Nothing is said of a notice that comes again after others have come in between.
-/

namespace StateReplica

open Replica (Step)

attribute [ext] BundleTable

/-- What is put at the end and taken off again leaves the others. -/
theorem filter_ne_append_self {α : Type} {key : α → UInt64} (as : List α) (a : α) :
    (as.filter (key · ≠ key a) ++ [a]).filter (key · ≠ key a) = as.filter (key · ≠ key a) := by
  simp [List.filter_append, List.filter_filter]

/-! ### Bundles -/

namespace BundleTable

variable {t : BundleTable}

/-- A bundle that has been taken away cannot be taken away again, whatever the table was. -/
theorem uninstall_uninstall (t : BundleTable) (consistency : BundleConsistency) (id : UInt64) :
    (t.uninstall consistency id).uninstall consistency id = t.uninstall consistency id := by
  have gone : (t.uninstall consistency id).byId[id]? = none := by
    rw [getElem?_byId_uninstall, if_pos rfl]
  rw [uninstall, gone]

/-- What stands under the ids does not change when a notice comes again. -/
theorem getElem?_byId_apply_apply (t : BundleTable) (consistency : BundleConsistency)
    (e : BundleEvent) (id : UInt64) :
    ((t.apply consistency e).apply consistency e).byId[id]? =
      (t.apply consistency e).byId[id]? := by
  simp only [getElem?_byId_apply]
  split
  · rfl
  · rfl

/-- Under the strict consistency that settles the list and the names as well. -/
theorem Coherent.apply_apply (h : t.Coherent) (e : BundleEvent) :
    (t.apply .strict e).apply .strict e = t.apply .strict e :=
  ((h.apply e).apply e).ext (h.apply e) (t.getElem?_byId_apply_apply .strict e)

/-- Under the legacy consistency a bundle that is taken up again is at the end of the list already, and
its name is there. -/
theorem Indexed.apply_apply (h : t.Indexed) (e : BundleEvent) :
    (t.apply .legacy e).apply .legacy e = t.apply .legacy e := by
  cases e with
  | uninstalled id => exact t.uninstall_uninstall .legacy id
  | changed kind b =>
    ext : 1
    · rw [(h.apply _).records_apply, h.records_apply]
      exact congrArg (· ++ [b]) (filter_ne_append_self t.records b)
    · exact Std.ExtTreeMap.ext_getElem? (t.getElem?_byId_apply_apply .legacy (.changed kind b))
    · refine Std.ExtTreeSet.ext_mem fun name => ?_
      show name ∈ ((t.change .legacy b).change .legacy b).names ↔ name ∈ (t.change .legacy b).names
      rw [mem_names_change, mem_names_change]
      constructor
      · rintro (rfl | h)
        · exact .inl rfl
        · exact h
      · exact .inr

/-- What a run keeps of a table of bundles under a consistency. -/
def Kept : BundleConsistency → BundleTable → Prop
  | .strict => Coherent
  | .legacy => Indexed

theorem ofCollected_kept (consistency : BundleConsistency) (bundles : List BundleRecord) :
    Kept consistency (ofCollected (.ofList bundles)) := by
  cases consistency with
  | strict => exact ofCollected_coherent (Collected.sound_ofList bundles)
  | legacy => exact ofCollected_indexed bundles

theorem Kept.apply {consistency : BundleConsistency} (h : Kept consistency t) (e : BundleEvent) :
    Kept consistency (t.apply consistency e) := by
  cases consistency with
  | strict => exact Coherent.apply h e
  | legacy => exact Indexed.apply h e

/-- **A notice about a bundle that comes again changes nothing.** -/
theorem Kept.apply_apply {consistency : BundleConsistency} (h : Kept consistency t)
    (e : BundleEvent) : (t.apply consistency e).apply consistency e = t.apply consistency e := by
  cases consistency with
  | strict => exact Coherent.apply_apply h e
  | legacy => exact Indexed.apply_apply h e

end BundleTable

/-! ### Services -/

namespace ServiceTable

variable {t u : ServiceTable}

/-- **A matched table whose names are those of its classes is determined by its services.** -/
theorem Matched.ext (ht : t.Matched) (hu : u.Matched) (ht' : t.Coherent) (hu' : u.Coherent)
    (h : t.records = u.records) : t = u := by
  refine ht'.ext hu' h (ht'.ordered.eq_of_perm hu'.ordered (ht.classes.trans ?_))
  rw [h]
  exact hu.classes.symm

/-- Properties that are there already make no difference. -/
theorem setProperties_setProperties (id : UInt64) (properties : Properties)
    (services : List ServiceRecord) :
    setProperties id properties (setProperties id properties services) =
      setProperties id properties services := by
  induction services with
  | nil => rfl
  | cons s services ih =>
    by_cases eq : s.id = id
    · simp [setProperties, eq]
    · simp [setProperties, eq, ih]

/-- The services are the same when a notice comes again, whatever the table was. -/
theorem records_apply_apply (t : ServiceTable) (e : ServiceEvent) :
    ((t.apply e).apply e).records = (t.apply e).records := by
  obtain ⟨kind, s⟩ := e
  -- of services sorted before, those that do not have the id are as they were
  have others (services : List ServiceRecord) :
      ((sorted services).filter (·.id ≠ s.id)).Perm (services.filter (·.id ≠ s.id)) :=
    (sorted_perm services).filter _
  cases kind with
  | registered =>
    rw [records_registered, records_registered]
    refine sorted_eq_of_perm (((others _).append_right [s]).trans ?_)
    rw [filter_ne_append_self]
  | modified => exact setProperties_setProperties s.id s.properties t.records
  | unregistering =>
    rw [records_unregistering, records_unregistering]
    refine sorted_eq_of_perm ((others _).trans ?_)
    simp only [List.filter_filter, Bool.and_self]
    exact .rfl

/-- **A notice about a service that comes again changes nothing**, if what registers is bound. -/
theorem Matched.apply_apply (matched : t.Matched) (coherent : t.Coherent) (e : ServiceEvent)
    (bound : e.kind = .registered → e.service.Bound) : (t.apply e).apply e = t.apply e :=
  ((matched.apply e bound).apply e bound).ext (matched.apply e bound) ((coherent.apply e).apply e)
    (coherent.apply e) (t.records_apply_apply e)

end ServiceTable

/-! ### Runs -/

namespace Contents

/-- After a run the bundles are as the consistency keeps them. -/
theorem bundles_after_kept (consistency : BundleConsistency) (fetched : Fetched)
    (steps : List Step) : (after consistency fetched steps).bundles.Kept consistency := by
  refine after_induction (P := fun c => c.bundles.Kept consistency) ?_ ?_
  · intro f _
    exact BundleTable.ofCollected_kept consistency f.bundles
  · intro c event _ h
    cases event with
    | bundle e => exact h.apply e
    | service e => exact h
    | framework e => exact h

/-- **A notice that comes again changes nothing**, if what registers is bound. -/
theorem apply_apply {consistency : BundleConsistency} {c : Contents}
    (bundles : c.bundles.Kept consistency) (matched : c.services.Matched)
    (coherent : c.services.Coherent) {event : Event} (bound : (Step.notice event).Bound) :
    (c.apply consistency event).apply consistency event = c.apply consistency event := by
  cases event with
  | bundle e => exact congrArg (fun b => { c with bundles := b }) (bundles.apply_apply e)
  | service e =>
    have registers : e.kind = .registered → e.service.Bound := by
      obtain ⟨kind, s⟩ := e
      rintro ⟨⟩
      exact bound
    exact congrArg (fun t => { c with services := t }) (matched.apply_apply coherent e registers)
  | framework e => rfl

end Contents

/-- **A notice that a replica gets twice in a row is answered for as if it came once**, in every state
that a run can reach where everything that is brought in is bound. -/
theorem redelivered_notice_counts_once {κ : Type} {r : Replica κ} (unloaded : r.contents = none)
    {steps : List Step} (bound : ∀ s ∈ steps, s.Bound) {event : Event}
    (eventBound : (Step.notice event).Bound) (query : Query) :
    (r.run (steps ++ [.notice event, .notice event])).ask query =
      (r.run (steps ++ [.notice event])).ask query := by
  have once := (r.run steps).contents_notices [event]
  have twice := (r.run steps).contents_notices [event, event]
  have same : (r.run (steps ++ [.notice event, .notice event])).contents =
      (r.run (steps ++ [.notice event])).contents := by
    rw [Replica.run_append, Replica.run_append]
    refine twice.trans (Eq.trans ?_ once.symm)
    rcases Replica.run_of_unloaded unloaded steps with
      ⟨stays, _⟩ | ⟨before, fetched, after, rfl, eq⟩
    · rw [stays, unloaded]
      rfl
    · have brought : ∀ s ∈ Step.reload (.ok fetched) :: after, s.Bound := fun s hs =>
        bound s (List.mem_append_right before hs)
      have held := Contents.services_after_matched r.config.bundleConsistency brought
      rw [eq, Replica.contents_loaded_run, Replica.config_run]
      refine congrArg some (Contents.apply_apply ?_ held.1 held.2 eventBound)
      exact Contents.bundles_after_kept _ fetched after
  rw [Replica.ask, Replica.ask, same]

/-- So it is under the legacy consistency where two services of one id were fetched, one of them was
modified, and a third one of that id registers twice. -/
theorem redelivered_registration :
    let s : ServiceRecord := .withClass (.new 7 1) "k"
    let legacy : Replica Unit := .new ⟨none, .legacy, false⟩
    let steps : List Step := [.reload (.error .notLoaded),
      .reload (.ok ⟨.blank, [.withServices (.new 1 "a" .active) [s, s.withProperty "p" "1"]], []⟩),
      .notice (.service ⟨.modified, .withProperty (.withClass (.new 7 2) "l") "p" "2"⟩)]
    let registered : Event := .service ⟨.registered, .withClass (.new 7 2) "l"⟩
    legacy.contents = none ∧ (∀ s ∈ steps, s.Bound) ∧ (Step.notice registered).Bound ∧
      (legacy.run (steps ++ [.notice registered, .notice registered])).ask .contents =
        (legacy.run (steps ++ [.notice registered])).ask .contents := by
  intro s legacy steps registered
  have bound : ∀ s ∈ steps, s.Bound := by decide
  have again : (Step.notice registered).Bound := by decide
  exact ⟨rfl, bound, again, redelivered_notice_counts_once rfl bound again .contents⟩

end StateReplica
