import StateReplica.Proofs.Bundles.Legacy
import StateReplica.Proofs.Replica.Runs

/-!
The two consistencies compared. A replica of each that go through the same steps hold the same bundles
by id, and all else but the list of the bundles and their names is the same outright. The lists are
the same once the legacy one is sorted, so that questions about the bundles which do not show the order
of the list are answered alike (`strict_legacy_agree`).

The names are compared nowhere: under the strict consistency they are those of the bundles, under the
legacy one they have drifted from them.
-/

namespace StateReplica

open Replica (Step)

/-! ### Bundles -/

/-- A table kept strictly and one kept in the legacy way that have the same bundles by id. -/
structure BundleTable.Alike (t u : BundleTable) : Prop where
  strict : t.Coherent
  legacy : u.Indexed
  byId : t.byId = u.byId

namespace BundleTable.Alike

variable {t u : BundleTable}

/-- Loading makes no difference between the two. -/
theorem ofCollected (bundles : List BundleRecord) :
    Alike (.ofCollected (.ofList bundles)) (.ofCollected (.ofList bundles)) where
  strict := ofCollected_coherent (Collected.sound_ofList bundles)
  legacy := ofCollected_indexed bundles
  byId := rfl

/-- **A notice leaves the same bundles by id**, whichever way the list is kept. -/
theorem apply (h : Alike t u) (e : BundleEvent) :
    Alike (t.apply .strict e) (u.apply .legacy e) where
  strict := h.strict.apply e
  legacy := h.legacy.apply e
  byId := by
    refine Std.ExtTreeMap.ext_getElem? fun id => ?_
    rw [getElem?_byId_apply, getElem?_byId_apply, h.byId]

/-- The strict list is the legacy list, sorted. -/
theorem records_eq (h : Alike t u) : t.records = sorted u.records := by
  refine h.strict.lists.list_unique ?_
  rw [h.byId]
  exact .of_nodup BundleRecord.ledBy_id h.legacy.nodup_ids h.legacy.getElem?_eq_some

theorem perm (h : Alike t u) : t.records.Perm u.records :=
  h.records_eq ▸ sorted_perm u.records

theorem named_eq (h : Alike t u) (name : String) : t.named name = u.named name :=
  sorted_eq_of_perm (h.perm.filter _)

/-- The names of the bundles in some states are read off the list, so its order does not show. -/
theorem namesIn_eq (h : Alike t u) {states : List BundleState} (given : states ≠ []) :
    t.namesIn states = u.namesIn states := by
  have given : states.isEmpty = false := List.isEmpty_eq_false_iff.mpr given
  rw [namesIn, namesIn, given, if_neg Bool.false_ne_true, if_neg Bool.false_ne_true]
  refine congrArg Std.ExtTreeSet.toList (Std.ExtTreeSet.ext_mem fun name => ?_)
  have same := (h.perm.filter fun b => states.contains b.state).map (·.symbolicName)
  rw [Std.ExtTreeSet.mem_ofList, Std.ExtTreeSet.mem_ofList, List.contains_iff_mem,
    List.contains_iff_mem, same.mem_iff]

end BundleTable.Alike

/-! ### Contents -/

/-- Contents that differ at most in how the bundles are listed and named. -/
structure Contents.Alike (c d : Contents) : Prop where
  framework : c.framework = d.framework
  bundles : c.bundles.Alike d.bundles
  services : c.services = d.services
  configurations : c.configurations = d.configurations

/-- Questions whose answers show neither the order of the list of bundles nor the names that are kept
with it. -/
def Query.Shared : Query → Prop
  | .bundles => False
  | .bundleNames => False
  | .bundleNamesIn states => states ≠ []
  | .contents => False
  | _ => True

namespace Contents.Alike

variable {c d : Contents}

theorem ofFetched (fetched : Fetched) : Alike (.ofFetched fetched) (.ofFetched fetched) where
  framework := rfl
  bundles := .ofCollected fetched.bundles
  services := rfl
  configurations := rfl

theorem step (h : Alike c d) (s : Step) : Alike (c.step .strict s) (d.step .legacy s) := by
  cases s with
  | reload outcome =>
    cases outcome with
    | error e => exact h
    | ok fetched => exact .ofFetched fetched
  | notice event =>
    cases event with
    | bundle e => exact { h with bundles := h.bundles.apply e }
    | service e => exact { h with services := congrArg (ServiceTable.apply · e) h.services }
    | framework e => exact { h with framework := rfl }

/-- Shared questions are answered alike. -/
theorem answer_eq (h : Alike c d) {query : Query} (shared : query.Shared) :
    c.answer query = d.answer query := by
  cases query with
  | framework => exact congrArg Reply.framework h.framework
  | bundle id => simp only [answer, h.bundles.byId]
  | bundles => cases shared
  | bundlesNamed name => exact congrArg Reply.bundles (h.bundles.named_eq name)
  | bundleNames => cases shared
  | bundleNamesIn states => exact congrArg Reply.names (h.bundles.namesIn_eq shared)
  | bundleMap => exact congrArg Reply.bundleMap h.bundles.byId
  | services => simp only [answer, h.services]
  | servicesByClass className => simp only [answer, h.services]
  | servicesOfBundle bundleId => simp only [answer, h.services]
  | serviceClasses => simp only [answer, h.services]
  | serviceClassNames => simp only [answer, h.services]
  | configurations => exact congrArg Reply.configurations h.configurations
  | contents => cases shared

end Contents.Alike

/-! ### Replicas -/

/-- A strict and a legacy replica that have counted the same changes and hold contents that are alike,
or have both not been loaded. -/
structure Replica.Alike {κ μ : Type} (r : Replica κ) (q : Replica μ) : Prop where
  strict : r.config.bundleConsistency = .strict
  legacy : q.config.bundleConsistency = .legacy
  generation : r.generation = q.generation
  contents : Option.Rel Contents.Alike r.contents q.contents

namespace Replica.Alike

variable {κ μ : Type} {r : Replica κ} {q : Replica μ}

/-- **A step keeps a strict and a legacy replica alike.** -/
theorem step (h : Alike r q) (s : Step) : Alike (r.step s) (q.step s) := by
  obtain ⟨config, contents, generation, listeners⟩ := r
  obtain ⟨config', contents', generation', listeners'⟩ := q
  obtain ⟨strict, legacy, counted, held⟩ := h
  have counts : generation + 1 = generation' + 1 := congrArg (· + 1) counted
  cases s with
  | reload outcome =>
    cases outcome with
    | error e => exact ⟨strict, legacy, counted, held⟩
    | ok fetched => exact ⟨strict, legacy, counts, .some (.ofFetched fetched)⟩
  | notice event =>
    cases held with
    | none => exact ⟨strict, legacy, counted, .none⟩
    | @some c d alike =>
      refine ⟨strict, legacy, counts, .some ?_⟩
      have next := alike.step (.notice event)
      rw [← show config.bundleConsistency = .strict from strict,
        ← show config'.bundleConsistency = .legacy from legacy] at next
      exact next

/-- So do steps in turn. -/
theorem run (h : Alike r q) (steps : List Step) : Alike (r.run steps) (q.run steps) :=
  List.foldl_rel h fun s _ _ _ h => h.step s

/-- Both hold something, or neither does. -/
theorem held (h : Alike r q) : (r.contents = none ∧ q.contents = none) ∨
    ∃ c d, r.contents = some c ∧ q.contents = some d ∧ c.Alike d := by
  obtain ⟨_, _, _, contents⟩ := h
  generalize r.contents = c at contents ⊢
  generalize q.contents = d at contents ⊢
  cases contents with
  | none => exact .inl ⟨rfl, rfl⟩
  | some alike => exact .inr ⟨_, _, rfl, rfl, alike⟩

/-- Shared questions are answered alike, also where there is nothing to tell. -/
theorem ask_eq (h : Alike r q) {query : Query} (shared : query.Shared) :
    r.ask query = q.ask query := by
  rcases h.held with ⟨hr, hq⟩ | ⟨c, d, hr, hq, alike⟩
  · simp only [ask, hr, hq]
  · simp only [ask, hr, hq, alike.answer_eq shared]

/-- The strict replica lists the bundles of the legacy one, sorted. -/
theorem bundles (h : Alike r q) :
    (r.ask .bundles = .error .notLoaded ∧ q.ask .bundles = .error .notLoaded) ∨
      ∃ bundles, r.ask .bundles = .ok (.bundles (sorted bundles)) ∧
        q.ask .bundles = .ok (.bundles bundles) := by
  rcases h.held with ⟨hr, hq⟩ | ⟨c, d, hr, hq, alike⟩
  · simp only [ask, hr, hq]
    exact .inl ⟨trivial, trivial⟩
  · refine .inr ⟨d.bundles.records, ?_, ?_⟩
    · simp only [ask, hr, Contents.answer, alike.bundles.records_eq]
    · simp only [ask, hq, Contents.answer]

end Replica.Alike

/-- **A strict and a legacy replica that go through the same steps from the start** count the same
changes, answer all shared questions alike, and list the same bundles, the strict one in order. -/
theorem strict_legacy_agree {κ μ : Type} {r : Replica κ} {q : Replica μ}
    (strict : r.config.bundleConsistency = .strict)
    (legacy : q.config.bundleConsistency = .legacy)
    (unloaded : r.contents = none ∧ q.contents = none) (counted : r.generation = q.generation)
    (steps : List Step) :
    (r.run steps).generation = (q.run steps).generation ∧
      (∀ query : Query, query.Shared → (r.run steps).ask query = (q.run steps).ask query) ∧
      (((r.run steps).ask .bundles = .error .notLoaded ∧
          (q.run steps).ask .bundles = .error .notLoaded) ∨
        ∃ bundles, (r.run steps).ask .bundles = .ok (.bundles (sorted bundles)) ∧
          (q.run steps).ask .bundles = .ok (.bundles bundles)) := by
  have start : r.Alike q := by
    refine ⟨strict, legacy, counted, ?_⟩
    rw [unloaded.1, unloaded.2]
    exact .none
  have h := start.run steps
  exact ⟨h.generation, fun _ shared => h.ask_eq shared, h.bundles⟩

/-- So it is where a bundle is renamed that shares its name: the two replicas list the bundles the other
way round, and agree on those of either name and on the names of those that are active. -/
theorem strict_legacy_agree_renamed :
    let strict : Replica Unit := .new ⟨none, .strict, false⟩
    let legacy : Replica Unit := .new ⟨none, .legacy, false⟩
    let fetched : Fetched := ⟨.blank, [.new 2 "a" .active, .new 1 "a" .active], []⟩
    let steps : List Step :=
      [.reload (.ok fetched), .notice (.bundle (.changed .updated (.new 1 "b" .installed)))]
    strict.config.bundleConsistency = .strict ∧ legacy.config.bundleConsistency = .legacy ∧
      (strict.contents = none ∧ legacy.contents = none) ∧ strict.generation = legacy.generation ∧
      (strict.run steps).generation = (legacy.run steps).generation ∧
      (∀ name, (strict.run steps).ask (.bundlesNamed name) =
        (legacy.run steps).ask (.bundlesNamed name)) ∧
      (strict.run steps).ask (.bundleNamesIn [.active]) =
        (legacy.run steps).ask (.bundleNamesIn [.active]) ∧
      (strict.run steps).ask .bundles =
        .ok (.bundles [.new 1 "b" .installed, .new 2 "a" .active]) ∧
      (legacy.run steps).ask .bundles =
        .ok (.bundles [.new 2 "a" .active, .new 1 "b" .installed]) := by
  intro strict legacy fetched steps
  obtain ⟨counted, shared, either⟩ := strict_legacy_agree (r := strict) (q := legacy) rfl rfl
    ⟨rfl, rfl⟩ rfl steps
  let renamed : BundleEvent := .changed .updated (.new 1 "b" .installed)
  let fetchedInOrder : List BundleRecord := [.new 1 "a" .active, .new 2 "a" .active]
  let drifted : List BundleRecord := [.new 2 "a" .active, .new 1 "b" .installed]
  let inOrder : List BundleRecord := [.new 1 "b" .installed, .new 2 "a" .active]
  have ordered : Ordered fetchedInOrder ∧ Ordered inOrder := by decide +kernel
  have loaded : (Contents.ofFetched fetched).bundles.records = fetchedInOrder :=
    ordered.1.sorted_of_perm (by decide +kernel)
  have listed : (Contents.after .legacy fetched [.notice (.bundle renamed)]).bundles.records =
      drifted := by
    refine ((BundleTable.ofCollected_indexed fetched.bundles).records_apply renamed).trans ?_
    show (Contents.ofFetched fetched).bundles.records.filter _ ++ _ = drifted
    rw [loaded]
    decide +kernel
  have shown : (legacy.run steps).ask .bundles = .ok (.bundles drifted) := by
    rw [← listed]
    exact legacy.ask_run fetched _ .bundles
  rcases either with ⟨_, none⟩ | ⟨bundles, asked, asked'⟩
  · rw [shown] at none
    cases none
  · rw [shown] at asked'
    cases asked'
    have inOrder_eq : sorted drifted = inOrder := ordered.2.sorted_of_perm (by decide +kernel)
    rw [inOrder_eq] at asked
    exact ⟨rfl, rfl, ⟨rfl, rfl⟩, rfl, counted, fun name => shared (.bundlesNamed name) trivial,
      shared (.bundleNamesIn [.active]) (List.cons_ne_nil _ _), asked, shown⟩

end StateReplica
