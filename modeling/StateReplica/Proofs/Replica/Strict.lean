import StateReplica.Proofs.Bundles.Strict
import StateReplica.Proofs.Replica.Runs
import StateReplica.Proofs.Services.Notices

/-!
Replicas under the strict consistency. From the first load on, whatever comes, the collections of a
replica tell the same and stand in order (`strict_run_coherent`). What a load and the notices after
it make of the bundles is what a load of the outcome makes of them (`strict_bundles_eq_reload`): the
order of the notices counts only between those about one bundle.

The list of services is not part of this. Its order needs more than a run gives, see the services by
id.
-/

namespace StateReplica

open Replica (Step)

/-! ### Coherence -/

/-- Names in growing order, each once: just those that some item has. -/
structure NamesOf {α : Type} (name : α → String) (as : List α) (names : List String) : Prop where
  increasing : names.Pairwise fun a b => a < b
  mem_iff {n : String} : n ∈ names ↔ ∃ a ∈ as, name a = n

/-- A set of the names that items have gives them in order. -/
theorem NamesOf.of_set {α : Type} {name : α → String} {as : List α} {names : Std.ExtTreeSet String}
    (h : ∀ n, n ∈ names ↔ ∃ a ∈ as, name a = n) : NamesOf name as names.toList where
  increasing := by
    have ordered := Std.ExtTreeSet.ordered_toList (t := names)
    exact ordered.imp fun lt => compareOfLessAndEq_eq_lt.mp lt
  mem_iff {n} := by rw [Std.ExtTreeSet.mem_toList, h]

/-- The collections of a replica tell the same and stand in order. -/
structure Contents.Coherent (c : Contents) : Prop where
  bundles : c.bundles.records.Pairwise fun a b => a.id < b.id
  bundleMap {id : UInt64} {b : BundleRecord} :
    c.bundles.byId[id]? = some b ↔ b ∈ c.bundles.records ∧ b.id = id
  bundleNames : NamesOf BundleRecord.symbolicName c.bundles.records c.bundles.names.toList
  serviceClasses : Ordered c.services.classes
  serviceClassNames :
    NamesOf ServiceClassRecord.className c.services.classes c.services.classNames.toList
  configurations : Ordered c.configurations

theorem Contents.Coherent.of_tables {c : Contents} (bundles : c.bundles.Coherent)
    (services : c.services.Coherent) (configurations : Ordered c.configurations) : c.Coherent where
  bundles := bundles.lists.increasing
  bundleMap := bundles.lists.getElem?_eq_some
  bundleNames := .of_set fun _ => bundles.mem_names
  serviceClasses := services.ordered
  serviceClassNames := .of_set services.names
  configurations := configurations

/-- What a replica was loaded with last. -/
def lastLoaded (fetched : Fetched) (steps : List Step) : Fetched :=
  steps.foldl (fun last step =>
    match step with
    | .reload (.ok fetched) => fetched
    | _ => last) fetched

/-- The configuration entries are those of the last load, in order. -/
theorem Contents.configurations_after (consistency : BundleConsistency) (fetched : Fetched)
    (steps : List Step) :
    (Contents.after consistency fetched steps).configurations =
      sorted (lastLoaded fetched steps).configurations := by
  refine Contents.after_rel
    (R := fun c (last : Fetched) => c.configurations = sorted last.configurations) rfl ?_
  intro c last s _ h
  cases s with
  | reload outcome =>
    cases outcome with
    | error e => exact h
    | ok f => rfl
  | notice event => cases event <;> exact h

/-- **Under the strict consistency every run is coherent from its first load on.** -/
theorem strict_run_coherent {κ : Type} (r : Replica κ)
    (strict : r.config.bundleConsistency = .strict) (fetched : Fetched) (steps : List Step) :
    ∃ c, (r.run (.reload (.ok fetched) :: steps)).ask .contents = .ok (.contents c) ∧
      c.Coherent ∧ c.configurations.Perm (lastLoaded fetched steps).configurations := by
  refine ⟨_, r.ask_run fetched steps .contents, ?_, ?_⟩
  · rw [strict]
    have tables : (Contents.after .strict fetched steps).bundles.Coherent ∧
        (Contents.after .strict fetched steps).services.Coherent := by
      refine Contents.after_induction
        (P := fun c => c.bundles.Coherent ∧ c.services.Coherent) ?_ ?_
      · intro f _
        exact ⟨BundleTable.ofCollected_coherent (Collected.sound_ofList f.bundles),
          ServiceTable.ofBundles_coherent _⟩
      · intro c event _ h
        cases event with
        | bundle e => exact ⟨h.1.apply e, h.2⟩
        | service e => exact ⟨h.1, h.2.apply e⟩
        | framework e => exact h
    refine .of_tables tables.1 tables.2 ?_
    rw [Contents.configurations_after]
    exact sorted_ordered _
  · rw [Contents.configurations_after]
    exact sorted_perm _

/-- Such a run is one where two bundles share a name, one of them comes twice and is renamed, the other
goes, and a service registers with a class that carries the id of another one. -/
theorem strict_run_coherent_shared_name :
    (default : Replica Unit).config.bundleConsistency = .strict ∧
      ∃ c, ((default : Replica Unit).run
          [.reload (.ok ⟨.blank, [.new 2 "a" .active, .new 1 "a" .active, .new 2 "a" .installed],
            [.new "q", .new "p"]⟩),
          .notice (.bundle (.changed .updated (.new 2 "b" .active))),
          .notice (.bundle (.uninstalled 1)),
          .reload (.error .notLoaded),
          .notice (.service ⟨.registered, ⟨7, 2, [⟨"k", 8⟩, ⟨"k", 7⟩], ∅⟩⟩),
          .notice (.service ⟨.unregistering, .new 7 2⟩)]).ask .contents = .ok (.contents c) ∧
        c.Coherent ∧ c.configurations.Perm [.new "q", .new "p"] :=
  ⟨rfl, strict_run_coherent _ rfl _ _⟩

/-! ### Loading again -/

open BundleEvent (lastAbout)
open BundleTable (Listing)
open Event (aboutBundles)

/-- **Under the strict consistency, the bundles after a load and some notices are those of a load of
what was written last**, in whatever order that load lists them. So two runs of notices leave the same
bundles when their last notices about each bundle are the same, and neighbouring notices about
different bundles may change places. -/
theorem strict_bundles_eq_reload {κ : Type} (r : Replica κ)
    (strict : r.config.bundleConsistency = .strict) (fetched : Fetched) (events : List Event) :
    ∃ c, (r.run (.reload (.ok fetched) :: events.map .notice)).ask .contents = .ok (.contents c) ∧
      Listing (lastWrite fetched.bundles (aboutBundles events)) c.bundles.records ∧
      (∀ again : Fetched, Listing (lastWrite fetched.bundles (aboutBundles events)) again.bundles →
        c.bundles = (Contents.ofFetched again).bundles) ∧
      (∀ others : List Event,
        (∀ id, lastAbout (aboutBundles others) id = lastAbout (aboutBundles events) id) →
        ∃ c', (r.run (.reload (.ok fetched) :: others.map .notice)).ask .contents =
          .ok (.contents c') ∧ c'.bundles = c.bundles) ∧
      ∀ (others : List Event) (before after : List BundleEvent) (e f : BundleEvent),
        e.bundleId ≠ f.bundleId → aboutBundles events = before ++ e :: f :: after →
        aboutBundles others = before ++ f :: e :: after →
        ∃ c', (r.run (.reload (.ok fetched) :: others.map .notice)).ask .contents =
          .ok (.contents c') ∧ c'.bundles = c.bundles := by
  have sameLast (others : List Event)
      (h : ∀ id, lastAbout (aboutBundles others) id = lastAbout (aboutBundles events) id) :
      (Contents.after .strict fetched (others.map .notice)).bundles =
        (Contents.after .strict fetched (events.map .notice)).bundles := by
    rw [Contents.bundles_after_notices, Contents.bundles_after_notices]
    exact BundleTable.foldl_eq_of_lastAbout fetched.bundles h
  refine ⟨_, r.ask_run fetched (events.map .notice) .contents, ?_, fun again h => ?_,
    fun others h => ?_, fun others before after e f ne here there => ?_⟩
  · rw [strict, Contents.bundles_after_notices]
    exact BundleTable.listing_foldl fetched.bundles (aboutBundles events)
  · rw [strict, Contents.bundles_after_notices]
    exact BundleTable.foldl_eq_ofCollected fetched.bundles (aboutBundles events) h
  · refine ⟨_, r.ask_run fetched (others.map .notice) .contents, ?_⟩
    rw [strict]
    exact sameLast others h
  · refine ⟨_, r.ask_run fetched (others.map .notice) .contents, ?_⟩
    rw [strict]
    refine sameLast others fun id => ?_
    rw [here, there]
    exact BundleEvent.lastAbout_swap ne before after id

/-- So a bundle that was fetched twice and then renamed, next to one that went, is what a load finds
that lists the one with its new name; and whether it was renamed before or after the other one went
is all the same. -/
theorem strict_bundles_eq_reload_renamed :
    let bundles : List BundleRecord :=
      [.new 1 "a" .active, .new 2 "a" .active, .new 1 "a" .installed]
    let renamed : BundleEvent := .changed .updated (.new 1 "b" .active)
    let gone : BundleEvent := .uninstalled 2
    let between : Event := .service ⟨.unregistering, .new 7 2⟩
    let loaded : Step := .reload (.ok ⟨.blank, bundles, []⟩)
    (default : Replica Unit).config.bundleConsistency = .strict ∧
      Listing (lastWrite bundles [renamed, gone]) [.new 1 "b" .active] ∧
      ∃ c c', ((default : Replica Unit).run
          [loaded, .notice (.bundle renamed), .notice between, .notice (.bundle gone)]).ask
            .contents = .ok (.contents c) ∧
        ((default : Replica Unit).run
          [loaded, .notice (.bundle gone), .notice (.bundle renamed)]).ask
            .contents = .ok (.contents c') ∧
        c.bundles = (Contents.ofFetched ⟨.blank, [.new 1 "b" .active], []⟩).bundles ∧
        c'.bundles = c.bundles := by
  intro bundles renamed gone between loaded
  have listing : Listing (lastWrite bundles [renamed, gone]) [.new 1 "b" .active] := by
    refine ⟨by decide, fun {b} => ?_⟩
    simp only [lastWrite, BundleEvent.lastAbout_cons, lastOf_cons, bundles, renamed, gone]
    simp only [lastAbout, lastOf, BundleEvent.bundleId, BundleRecord.new, List.mem_singleton,
      List.reverse_nil, List.find?_nil, Option.none_or]
    grind [BundleEvent.outcome]
  obtain ⟨c, shown, _, again, _, swapped⟩ := strict_bundles_eq_reload (default : Replica Unit) rfl
    ⟨.blank, bundles, []⟩ [.bundle renamed, between, .bundle gone]
  obtain ⟨c', shown', same⟩ :=
    swapped [.bundle gone, .bundle renamed] [] [] renamed gone (by decide) rfl rfl
  exact ⟨rfl, listing, c, c', shown, shown', again ⟨.blank, _, []⟩ listing, same⟩

end StateReplica
