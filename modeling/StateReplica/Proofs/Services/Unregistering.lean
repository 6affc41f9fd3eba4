import StateReplica.Proofs.Services.TakenBack

/-!
Services that unregister. All that counts of the notice is the id (`unregistering_by_id`): the services
that have it go, and so do the classes that carry it, whoever registered them; every other service and class
stays as often as it was there. A class name goes with the last class that has it.

This is not so of every table. Where nothing has the id, the names that the payload brings are up for
release, and one that no class has would go. A run leaves no such name behind, as the names are those of the
classes all the time.
-/

namespace StateReplica

open Replica (Step)

namespace ServiceTable

variable {t : ServiceTable} {p q : ServiceRecord}

/-- In a coherent table, only the id of a service that unregisters counts. -/
theorem Coherent.unregistering_eq (h : t.Coherent) (same : q.id = p.id) :
    t.apply ⟨.unregistering, q⟩ = t.apply ⟨.unregistering, p⟩ := by
  refine (h.apply _).ext (h.apply _) ?_ ?_
  · rw [records_unregistering, records_unregistering, same]
  · rw [classes_unregistering, classes_unregistering, same]

variable (t p)

theorem id_of_mem_unregistering {s : ServiceRecord}
    (h : s ∈ (t.apply ⟨.unregistering, p⟩).records) : s.id ≠ p.id := by
  rw [records_unregistering, mem_sorted] at h
  exact of_decide_eq_true (List.mem_filter.mp h).2

theorem serviceId_of_mem_unregistering {k : ServiceClassRecord}
    (h : k ∈ (t.apply ⟨.unregistering, p⟩).classes) : k.serviceId ≠ p.id := by
  rw [classes_unregistering, mem_sorted] at h
  exact of_decide_eq_true (List.mem_filter.mp h).2

theorem count_records_unregistering {s : ServiceRecord} (other : s.id ≠ p.id) :
    (t.apply ⟨.unregistering, p⟩).records.count s = t.records.count s := by
  rw [records_unregistering, (sorted_perm _).count_eq]
  exact List.count_filter (decide_eq_true other)

theorem count_classes_unregistering {k : ServiceClassRecord} (other : k.serviceId ≠ p.id) :
    (t.apply ⟨.unregistering, p⟩).classes.count k = t.classes.count k := by
  rw [classes_unregistering, (sorted_perm _).count_eq]
  exact List.count_filter (decide_eq_true other)

variable {t p}

/-- No name comes when a service unregisters. -/
theorem Coherent.mem_classNames_of_unregistering (h : t.Coherent) {name : String}
    (stays : name ∈ (t.apply ⟨.unregistering, p⟩).classNames) : name ∈ t.classNames := by
  obtain ⟨k, hk, rfl⟩ := ((h.apply _).names name).mp stays
  rw [classes_unregistering, mem_sorted] at hk
  exact (h.names _).mpr ⟨k, (List.mem_filter.mp hk).1, rfl⟩

end ServiceTable

/-- Notices that do the same to the contents of a replica do the same to the replica. -/
theorem Replica.run_notice_congr {κ : Type} {r : Replica κ} {c : Contents} {e f : Event}
    (loaded : r.contents = some c)
    (same : c.apply r.config.bundleConsistency e = c.apply r.config.bundleConsistency f) :
    r.run [.notice e] = r.run [.notice f] := by
  show (r.commit? e).getD r = (r.commit? f).getD r
  rw [commit?, commit?, loaded, Option.map_some, Option.map_some, same]

/-- **Of a service that unregisters only the id counts.** Whatever else the notice says, no service has the
id afterwards and no class carries it, all other services and classes are there as often as before, and of
the class names just those are gone that no class has any more. -/
theorem unregistering_by_id {κ : Type} (r : Replica κ) (fetched : Fetched) (steps : List Step)
    {p q : ServiceRecord} (same : q.id = p.id) :
    let reached := r.run (.reload (.ok fetched) :: steps)
    reached.run [.notice (.service ⟨.unregistering, q⟩)] =
        reached.run [.notice (.service ⟨.unregistering, p⟩)] ∧
      ∃ before after, reached.ask .contents = .ok (.contents before) ∧
        (reached.run [.notice (.service ⟨.unregistering, p⟩)]).ask .contents = .ok (.contents after) ∧
        (∀ s ∈ after.services.records, s.id ≠ p.id) ∧
        (∀ k ∈ after.services.classes, k.serviceId ≠ p.id) ∧
        (∀ s : ServiceRecord, s.id ≠ p.id →
          after.services.records.count s = before.services.records.count s) ∧
        (∀ k : ServiceClassRecord, k.serviceId ≠ p.id →
          after.services.classes.count k = before.services.classes.count k) ∧
        after.services.classNames.toList ⊆ before.services.classNames.toList ∧
        ∀ name ∈ before.services.classNames.toList,
          name ∉ after.services.classNames.toList ↔ ∀ k ∈ after.services.classes, k.className ≠ name := by
  intro reached
  obtain ⟨before, loaded⟩ : ∃ before, reached.contents = some before :=
    ⟨_, r.contents_loaded_run fetched steps⟩
  have coherent : before.services.Coherent := by
    obtain rfl := Option.some.inj ((r.contents_loaded_run fetched steps).symm.trans loaded)
    exact Contents.services_after_coherent _ fetched steps
  refine ⟨Replica.run_notice_congr loaded ?_, before,
    { before with services := before.services.apply ⟨.unregistering, p⟩ },
    Replica.ask_contents_iff.mpr loaded, Replica.ask_contents_iff.mpr (Replica.contents_run loaded _),
    fun s => before.services.id_of_mem_unregistering p,
    fun k => before.services.serviceId_of_mem_unregistering p,
    fun s => before.services.count_records_unregistering p,
    fun k => before.services.count_classes_unregistering p, fun name => ?_, fun name _ => ?_⟩
  · exact congrArg (fun t => { before with services := t }) (coherent.unregistering_eq same)
  · rw [Std.ExtTreeSet.mem_toList, Std.ExtTreeSet.mem_toList]
    exact coherent.mem_classNames_of_unregistering
  · rw [Std.ExtTreeSet.mem_toList, (coherent.apply _).names]
    simp only [not_exists, not_and, ne_eq]

/-- So it is under the legacy consistency where a service was fetched twice, another one has a class that
carries its id, and one of the notices names a class that the service never had. -/
theorem unregistering_by_id_repeated :
    let s : ServiceRecord := .withClass (.new 7 1) "k"
    let other : ServiceRecord := ⟨8, 1, [⟨"k", 8⟩, ⟨"l", 7⟩], ∅⟩
    let fetched : Fetched := ⟨.blank, [.withServices (.new 1 "a" .active) [s, other, s]], []⟩
    let legacy : Replica Unit := .new ⟨none, .legacy, false⟩
    let reached := legacy.run [.reload (.ok fetched), .notice (.bundle (.uninstalled 1))]
    let p : ServiceRecord := .new 7 1
    let q : ServiceRecord := ⟨7, 2, [⟨"k", 7⟩, ⟨"m", 3⟩], ∅⟩
    q.id = p.id ∧
      reached.run [.notice (.service ⟨.unregistering, q⟩)] =
        reached.run [.notice (.service ⟨.unregistering, p⟩)] ∧
      ∃ after, (reached.run [.notice (.service ⟨.unregistering, q⟩)]).ask .contents =
          .ok (.contents after) ∧
        (∀ k ∈ after.services.classes, k.serviceId ≠ 7) ∧ after.services.records.count other = 1 := by
  intro s other fetched legacy reached p q
  obtain ⟨eq, before, after, shown, left, -, carried, services, -⟩ :=
    unregistering_by_id legacy fetched [.notice (.bundle (.uninstalled 1))] (p := p) (q := q) rfl
  cases shown
  have fetchedOnce : (sorted [s, other, s]).count other = 1 := by
    rw [(sorted_perm _).count_eq]
    decide
  exact ⟨rfl, eq, after, eq ▸ left, carried, (services other (by decide)).trans fetchedOnce⟩

end StateReplica
