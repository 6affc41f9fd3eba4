import StateReplica.Proofs.Bundles.Collected

/-!
Bundles by id under notices. Under either consistency the last write of an id counts: the last notice
about a bundle decides what stands under its id, and where there is none it is what stood there
before (`BundleTable.getElem?_byId_foldl`). This says nothing of the list and the names, for which
the two consistencies differ.
-/

namespace StateReplica

namespace BundleEvent

/-- What a notice makes of the bundle it is about; nothing, if the bundle is gone. -/
def outcome : BundleEvent → Option BundleRecord
  | .uninstalled _ => none
  | .changed _ bundle => some bundle

/-- A notice leaves a bundle under its own id. -/
theorem id_of_outcome {e : BundleEvent} {b : BundleRecord} (h : e.outcome = some b) :
    b.id = e.bundleId := by
  cases e with
  | uninstalled id => cases h
  | changed kind bundle =>
    cases h
    rfl

/-- The last notice about a bundle. -/
def lastAbout (events : List BundleEvent) (id : UInt64) : Option BundleEvent :=
  events.reverse.find? (·.bundleId = id)

theorem bundleId_of_lastAbout {events : List BundleEvent} {id : UInt64} {e : BundleEvent}
    (h : lastAbout events id = some e) : e.bundleId = id := by
  simpa only [decide_eq_true_eq] using List.find?_some h

theorem lastAbout_cons (e : BundleEvent) (events : List BundleEvent) (id : UInt64) :
    lastAbout (e :: events) id =
      (lastAbout events id).or (if e.bundleId = id then some e else none) := by
  rw [lastAbout, List.reverse_cons, List.find?_append, List.find?_singleton]
  simp only [lastAbout, decide_eq_true_eq]

theorem lastAbout_append (events later : List BundleEvent) (id : UInt64) :
    lastAbout (events ++ later) id = (lastAbout later id).or (lastAbout events id) := by
  simp only [lastAbout, List.reverse_append, List.find?_append]

/-- Two neighbouring notices about different bundles may change places. -/
theorem lastAbout_swap {e f : BundleEvent} (ne : e.bundleId ≠ f.bundleId)
    (before after : List BundleEvent) (id : UInt64) :
    lastAbout (before ++ f :: e :: after) id = lastAbout (before ++ e :: f :: after) id := by
  simp only [lastAbout_append, lastAbout_cons, Option.or_assoc]
  by_cases he : e.bundleId = id
  · have hf : f.bundleId ≠ id := fun hf => ne (he.trans hf.symm)
    rw [if_pos he, if_neg hf, Option.none_or, Option.none_or]
  · rw [if_neg he, Option.none_or, Option.none_or]

end BundleEvent

/-- The bundle of an id after notices: what the last notice about it says, or where there is none the
last one of the id among the bundles there were. -/
def lastWrite (bundles : List BundleRecord) (events : List BundleEvent) (id : UInt64) :
    Option BundleRecord :=
  match BundleEvent.lastAbout events id with
  | some event => event.outcome
  | none => lastOf bundles id

/-- What was written last under an id is a bundle of that id. -/
theorem lastWrite_id {bundles : List BundleRecord} {events : List BundleEvent} {id : UInt64}
    {b : BundleRecord} (h : lastWrite bundles events id = some b) : b.id = id := by
  rw [lastWrite] at h
  split at h
  next e about =>
    rw [BundleEvent.id_of_outcome h]
    exact BundleEvent.bundleId_of_lastAbout about
  next => exact id_of_lastOf h

namespace BundleTable

variable (t : BundleTable)

@[simp] theorem records_releaseName (name : String) : (t.releaseName name).records = t.records := by
  rw [releaseName]
  split <;> rfl

@[simp] theorem byId_releaseName (name : String) : (t.releaseName name).byId = t.byId := by
  rw [releaseName]
  split <;> rfl

/-- Taking a bundle away erases its id, if it was there at all. -/
theorem getElem?_byId_uninstall (consistency : BundleConsistency) (id id' : UInt64) :
    (t.uninstall consistency id).byId[id']? = if id = id' then none else t.byId[id']? := by
  cases h : t.byId[id]? with
  | none =>
    simp only [uninstall, h]
    split
    next eq => rw [← eq, h]
    next => rfl
  | some removed =>
    cases consistency <;>
      simp only [uninstall, h, byId_releaseName, eraseName, Std.ExtTreeMap.getElem?_erase,
        Std.LawfulEqOrd.compare_eq_iff_eq]

/-- Under both consistencies a changed bundle stands under its id. -/
theorem byId_change (consistency : BundleConsistency) (b : BundleRecord) :
    (t.change consistency b).byId = t.byId.insert b.id b := by
  cases consistency with
  | legacy => rfl
  | strict =>
    rw [change]
    split
    next => rfl
    next =>
      split
      next => rfl
      next => rw [byId_releaseName]

/-- A notice decides what stands under the id it is about, and about no other id. -/
theorem getElem?_byId_apply (consistency : BundleConsistency) (e : BundleEvent) (id : UInt64) :
    (t.apply consistency e).byId[id]? = if e.bundleId = id then e.outcome else t.byId[id]? := by
  cases e with
  | uninstalled gone => exact t.getElem?_byId_uninstall consistency gone id
  | changed kind b =>
    show (t.change consistency b).byId[id]? = if b.id = id then some b else t.byId[id]?
    simp only [byId_change, Std.ExtTreeMap.getElem?_insert, Std.LawfulEqOrd.compare_eq_iff_eq]

/-- **The last write of an id counts.** -/
theorem getElem?_byId_foldl (consistency : BundleConsistency) (events : List BundleEvent)
    (id : UInt64) :
    (events.foldl (fun t e => t.apply consistency e) t).byId[id]? =
      match BundleEvent.lastAbout events id with
      | some e => e.outcome
      | none => t.byId[id]? := by
  induction events generalizing t with
  | nil => rfl
  | cons e events ih =>
    rw [List.foldl_cons, ih, BundleEvent.lastAbout_cons]
    cases BundleEvent.lastAbout events id with
    | some later => rfl
    | none =>
      rw [getElem?_byId_apply, Option.none_or]
      by_cases about : e.bundleId = id
      · rw [if_pos about, if_pos about]
      · rw [if_neg about, if_neg about]

/-- After a load and some notices, under every id stands what was written last. -/
theorem getElem?_byId_loaded (consistency : BundleConsistency) (bundles : List BundleRecord)
    (events : List BundleEvent) (id : UInt64) :
    (events.foldl (fun t e => t.apply consistency e)
      (ofCollected (.ofList bundles))).byId[id]? = lastWrite bundles events id := by
  rw [getElem?_byId_foldl, lastWrite, ofCollected, Collected.getElem?_byId_ofList]

end BundleTable

end StateReplica
