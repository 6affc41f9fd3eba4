import StateReplica.Proofs.Bundles.Legacy
import StateReplica.Proofs.Replica.Runs

/-!
Replicas under the legacy consistency. What the notices after a load make of the bundles is told by
when each bundle was last heard of, and by when each name came and went (`legacy_bundles_traced`).
Nothing else that happens in between makes a difference to them.

The names are not those of the bundles: a name may stay when no bundle has it any more, and go while
one has it.
-/

namespace StateReplica

open BundleEvent (lastAbout lastChanges)
open Event (aboutBundles)
open Replica (Step)

/-- **Under the legacy consistency, the bundles after a load and some notices** are listed as the load
left them, in order, as far as no notice is about them, and then those that are left by the last
notices about them, in the order of these notices; the map has just the bundles that are listed; and a
name is there just when it has not gone since it came last. -/
theorem legacy_bundles_traced {κ : Type} (r : Replica κ)
    (legacy : r.config.bundleConsistency = .legacy) (fetched : Fetched) (events : List Event) :
    ∃ c, (r.run (.reload (.ok fetched) :: events.map .notice)).ask .contents = .ok (.contents c) ∧
      c.bundles.records =
        (Contents.ofFetched fetched).bundles.records.filter
            (fun b => (lastAbout (aboutBundles events) b.id).isNone) ++
          lastChanges (aboutBundles events) ∧
      Ordered ((Contents.ofFetched fetched).bundles.records.filter
        (fun b => (lastAbout (aboutBundles events) b.id).isNone)) ∧
      (c.bundles.records.map (·.id)).Nodup ∧
      (∀ (id : UInt64) (b : BundleRecord),
        c.bundles.byId[id]? = some b ↔ b ∈ c.bundles.records ∧ b.id = id) ∧
      ∀ name, name ∈ c.bundles.names.toList ↔
        ∃ i, NameComes fetched.bundles (aboutBundles events) name i ∧
          ∀ j, i < j → ¬NameComes fetched.bundles (aboutBundles events) name j ∧
            ¬NameGoes fetched.bundles (aboutBundles events) name j := by
  have loaded := BundleTable.ofCollected_indexed fetched.bundles
  have indexed := loaded.foldl (aboutBundles events)
  rw [← Contents.bundles_after_notices] at indexed
  refine ⟨_, r.ask_run fetched (events.map .notice) .contents, ?_⟩
  rw [legacy]
  have kept := List.Pairwise.filter (fun b => (lastAbout (aboutBundles events) b.id).isNone)
    (sorted_ordered (Collected.ofList fetched.bundles).records)
  refine ⟨?_, kept, indexed.nodup_ids, fun id b => indexed.getElem?_eq_some, fun name => ?_⟩
  · rw [Contents.bundles_after_notices]
    exact loaded.records_foldl (aboutBundles events)
  · rw [Std.ExtTreeSet.mem_toList, Contents.bundles_after_notices]
    exact BundleTable.mem_names_loaded fetched.bundles (aboutBundles events) name

/-- So a bundle that was renamed stands behind the others once it is heard of again, and of three names
only the new one is left: each of the other two went with a bundle that had it, although one of them
is the name of a bundle that stays. -/
theorem legacy_bundles_traced_renamed :
    let legacy : Replica Unit := .new ⟨none, .legacy, false⟩
    let fetched : Fetched :=
      ⟨.blank, [.new 2 "a" .active, .new 1 "a" .active, .new 3 "c" .active], []⟩
    let events : List Event :=
      [.bundle (.changed .updated (.new 1 "b" .active)), .service ⟨.unregistering, .new 7 2⟩,
        .bundle (.uninstalled 2), .bundle (.changed .installed (.new 4 "c" .active)),
        .bundle (.uninstalled 4)]
    legacy.config.bundleConsistency = .legacy ∧
      ∃ c, (legacy.run (.reload (.ok fetched) :: events.map .notice)).ask .contents =
          .ok (.contents c) ∧
        c.bundles.records = [.new 3 "c" .active, .new 1 "b" .active] ∧
        c.bundles.names.toList = ["b"] ∧
        ∃ i, NameComes fetched.bundles (aboutBundles events) "b" i ∧
          ∀ j, i < j → ¬NameComes fetched.bundles (aboutBundles events) "b" j ∧
            ¬NameGoes fetched.bundles (aboutBundles events) "b" j := by
  intro legacy fetched events
  obtain ⟨c, shown, listed, _, _, _, named⟩ := legacy_bundles_traced legacy rfl fetched events
  have names : c.bundles.names.toList = ["b"] := by
    have answer := legacy.ask_run fetched (events.map .notice) .contents
    rw [shown] at answer
    cases answer
    decide +kernel
  let kept : List BundleRecord := [.new 1 "a" .active, .new 2 "a" .active, .new 3 "c" .active]
  have inOrder : Ordered kept := by decide +kernel
  have loaded : (Contents.ofFetched fetched).bundles.records = kept :=
    inOrder.sorted_of_perm (by decide +kernel)
  refine ⟨rfl, c, shown, ?_, names, (named "b").mp (names ▸ List.mem_singleton_self _)⟩
  rw [listed, loaded]
  decide +kernel

end StateReplica
