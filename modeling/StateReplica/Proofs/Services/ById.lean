import StateReplica.Proofs.Keyed
import StateReplica.Proofs.Services.Notices

/-!
Services by id. Where every service has an id of its own, the list of services is the list of a map,
and a notice does to the list what its plain reading does to the map (`Lists.apply`): whoever
registers is put at its id, whoever unregisters is erased, and a modified service gets new properties
where it stands. That a modified list is not sorted again does no harm, for order is a matter of the
ids alone.
-/

namespace StateReplica

/-- The services by id after a notice. -/
def ServiceEvent.putInto (m : Std.ExtTreeMap UInt64 ServiceRecord) :
    ServiceEvent → Std.ExtTreeMap UInt64 ServiceRecord
  | ⟨.registered, s⟩ => m.insert s.id s
  | ⟨.modified, s⟩ => m.modify s.id fun stored => { stored with properties := s.properties }
  | ⟨.unregistering, s⟩ => m.erase s.id

namespace ServiceTable

/-- Where ids grow, only one service has an id, and replacing the properties of the first is replacing
those of all. -/
theorem setProperties_eq_map {services : List ServiceRecord}
    (h : Increasing ServiceRecord.id services) (id : UInt64) (properties : Properties) :
    setProperties id properties services =
      services.map fun s => if s.id = id then { s with properties } else s := by
  induction services with
  | nil => rfl
  | cons s services ih =>
    obtain ⟨lt, rest⟩ := List.pairwise_cons.mp h
    rw [setProperties, List.map_cons]
    split
    next eq =>
      have others (other) (hs : other ∈ services) : other.id ≠ id := fun eq' =>
        UInt64.ne_of_lt (lt other hs) (eq.trans eq'.symm)
      rw [List.map_congr_left fun other hs => if_neg (others other hs), List.map_id']
    next => rw [ih rest]

variable {t : ServiceTable} {m : Std.ExtTreeMap UInt64 ServiceRecord}

/-- **A notice does to the list of services what it does to the map of them.** -/
theorem lists_apply (h : Lists ServiceRecord.id m t.records) (e : ServiceEvent) :
    Lists ServiceRecord.id (e.putInto m) (t.apply e).records := by
  obtain ⟨kind, s⟩ := e
  cases kind with
  | registered =>
    rw [records_registered]
    refine h.insert ServiceRecord.ledBy_id (sorted_ordered _) ((sorted_perm _).trans ?_)
    exact List.perm_append_singleton s _
  | modified =>
    show Lists _ _ (setProperties s.id s.properties t.records)
    rw [setProperties_eq_map h.increasing]
    exact h.modify (f := fun stored => { stored with properties := s.properties }) (fun _ => rfl) s.id
  | unregistering =>
    rw [records_unregistering]
    have erased := h.erase s.id
    rwa [(erased.increasing.ordered ServiceRecord.ledBy_id).sorted_eq]

/-- Fetched services with ids of their own are the list of the map made of them. -/
theorem lists_ofBundles {bundles : List BundleRecord}
    (nodup : ((bundles.flatMap (·.services)).map (·.id)).Nodup) :
    Lists ServiceRecord.id (.ofList ((bundles.flatMap (·.services)).map fun s => (s.id, s)))
      (ofBundles bundles).records :=
  .of_ofList ServiceRecord.ledBy_id nodup

end ServiceTable

end StateReplica
