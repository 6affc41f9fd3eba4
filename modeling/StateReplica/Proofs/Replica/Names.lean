import StateReplica.Proofs.Replica.Agreement
import StateReplica.Proofs.Replica.Redelivery
import StateReplica.Proofs.Replica.Strict

/-!
Questions about names under the strict consistency. Their answers are read off different places: the
names of all bundles off the set that is kept with them, the names of the bundles in some states off
the list. They agree because the table stays coherent, so that to ask for all states comes to the same
as to give none, and the answers add up over the states that are asked for (`strict_names_answered`).

Under the legacy consistency the set of names drifts away from the bundles, and with it the answer
where no state is given.
-/

namespace StateReplica

open Replica (Step)

/-! ### Lists of names -/

/-- Items with the same names have one list of names. -/
theorem NamesOf.ext {α β : Type} {name : α → String} {name' : β → String} {as : List α} {bs : List β}
    {names names' : List String} (h : NamesOf name as names) (h' : NamesOf name' bs names')
    (same : ∀ n, (∃ a ∈ as, name a = n) ↔ ∃ b ∈ bs, name' b = n) : names = names' := by
  refine List.Perm.eq_of_pairwise (fun _ _ _ _ lt lt' => absurd lt' (String.lt_asymm lt))
    h.increasing h'.increasing ((List.perm_ext_iff_of_nodup ?_ ?_).mpr fun n => ?_)
  · exact h.increasing.imp fun lt => String.ne_of_lt lt
  · exact h'.increasing.imp fun lt => String.ne_of_lt lt
  · rw [h.mem_iff, h'.mem_iff, same]

/-! ### Tables -/

namespace BundleTable

/-- The bundles that are in one of some states; all of them where no state is given. -/
def inStates (bundles : List BundleRecord) (states : List BundleState) : List BundleRecord :=
  bundles.filter fun b => states = [] ∨ b.state ∈ states

theorem mem_inStates {bundles : List BundleRecord} {states : List BundleState} {b : BundleRecord} :
    b ∈ inStates bundles states ↔ b ∈ bundles ∧ (states = [] ∨ b.state ∈ states) := by
  rw [inStates, List.mem_filter, decide_eq_true_eq]

variable {t : BundleTable}

/-- **The names in some states are those of the bundles in them**, also where they are taken from the
names that are kept. -/
theorem Coherent.namesIn (h : t.Coherent) (states : List BundleState) :
    NamesOf BundleRecord.symbolicName (inStates t.records states) (t.namesIn states) := by
  rw [BundleTable.namesIn]
  split
  next none =>
    refine .of_set fun n => h.mem_names.trans (exists_congr fun b => and_congr_left fun _ => ?_)
    rw [mem_inStates, List.isEmpty_iff.mp none]
    exact (and_iff_left (.inl rfl)).symm
  next some =>
    have given : states ≠ [] := fun eq => some (List.isEmpty_iff.mpr eq)
    refine .of_set fun n => ?_
    simp only [Std.ExtTreeSet.mem_ofList, List.contains_iff_mem, List.mem_map, List.mem_filter,
      mem_inStates, given, false_or]

/-- The bundles of a name are those of the map that have it, in order. -/
theorem Coherent.mem_named (h : t.Coherent) {name : String} {b : BundleRecord} :
    b ∈ t.named name ↔ (∃ id : UInt64, t.byId[id]? = some b) ∧ b.symbolicName = name := by
  rw [named, mem_sorted, List.mem_filter, decide_eq_true_eq, h.lists.mem_iff]
  refine and_congr_left fun _ => ⟨fun found => ⟨b.id, found⟩, fun given => ?_⟩
  obtain ⟨id, found⟩ := given
  rwa [h.lists.key_eq found]

theorem Coherent.named_nodup (h : t.Coherent) (name : String) : (t.named name).Nodup :=
  (sorted_perm _).nodup_iff.mpr (h.lists.increasing.nodup.filter _)

/-- A name has bundles if and only if it is kept. -/
theorem Coherent.named_ne_nil_iff (h : t.Coherent) (name : String) :
    t.named name ≠ [] ↔ name ∈ t.names := by
  have member (b : BundleRecord) :
      b ∈ t.named name ↔ b ∈ t.records ∧ b.symbolicName = name := by
    rw [named, mem_sorted, List.mem_filter, decide_eq_true_eq]
  rw [h.mem_names]
  constructor
  · intro some
    obtain ⟨b, hb⟩ := List.exists_mem_of_ne_nil _ some
    exact ⟨b, (member b).mp hb⟩
  · intro used
    obtain ⟨b, hb⟩ := used
    exact List.ne_nil_of_mem ((member b).mpr hb)

/-- All states are the same as none. -/
theorem Coherent.namesIn_all (h : t.Coherent) {states : List BundleState}
    (all : ∀ s, s ∈ states) : t.namesIn states = t.namesIn [] := by
  refine (h.namesIn states).ext (h.namesIn []) fun n => exists_congr fun b => ?_
  rw [mem_inStates, mem_inStates]
  exact and_congr_left fun _ => and_congr_right fun _ => iff_of_true (.inr (all _)) (.inl rfl)

/-- Names of bundles in one of more states are those in some of them and those in the others. -/
theorem Coherent.namesIn_append (h : t.Coherent) {states others : List BundleState}
    (given : states ≠ []) (given' : others ≠ []) :
    NamesOf id (t.namesIn states ++ t.namesIn others) (t.namesIn (states ++ others)) := by
  refine ⟨(h.namesIn _).increasing, fun {n} => ?_⟩
  have either : states ++ others ≠ [] := List.append_ne_nil_of_left_ne_nil given _
  simp only [List.mem_append, id, exists_eq_right, (h.namesIn _).mem_iff, mem_inStates, given,
    given', either, false_or, and_or_left, or_and_right, exists_or]

end BundleTable

/-! ### Replicas -/

open BundleTable (inStates)

/-- **Under the strict consistency, whatever is asked about names is answered from the bundles**, after
every run. The names in some states are those of the bundles in them, in growing order. Where no state
is given they are the names that are kept, which is the same as giving all states, in any order and
with repetitions; and the names in more states are those in some of them together with those in the
others. The bundles of a name are the records of the map that have it, in order, and there are some if
and only if the name is kept. -/
theorem strict_names_answered {κ : Type} (r : Replica κ)
    (strict : r.config.bundleConsistency = .strict) (fetched : Fetched) (steps : List Step) :
    let replica := r.run (.reload (.ok fetched) :: steps)
    ∃ (bundles : List BundleRecord) (byId : Std.ExtTreeMap UInt64 BundleRecord)
        (names : List String) (namesIn : List BundleState → List String)
        (named : String → List BundleRecord),
      replica.ask .bundles = .ok (.bundles bundles) ∧
      replica.ask .bundleMap = .ok (.bundleMap byId) ∧
      replica.ask .bundleNames = .ok (.names names) ∧
      (∀ states, replica.ask (.bundleNamesIn states) = .ok (.names (namesIn states))) ∧
      (∀ name, replica.ask (.bundlesNamed name) = .ok (.bundles (named name))) ∧
      (∀ states, NamesOf BundleRecord.symbolicName (inStates bundles states) (namesIn states)) ∧
      namesIn [] = names ∧
      (∀ states, (∀ s, s ∈ states) → namesIn states = namesIn []) ∧
      (∀ states others, states ≠ [] → others ≠ [] →
        NamesOf id (namesIn states ++ namesIn others) (namesIn (states ++ others))) ∧
      ∀ name, Ordered (named name) ∧ (named name).Nodup ∧
        (∀ b, b ∈ named name ↔ (∃ id : UInt64, byId[id]? = some b) ∧ b.symbolicName = name) ∧
        (named name ≠ [] ↔ name ∈ names) := by
  intro replica
  let t := (Contents.after .strict fetched steps).bundles
  have h : t.Coherent := Contents.bundles_after_kept .strict fetched steps
  have answer (query : Query) :
      replica.ask query = .ok ((Contents.after .strict fetched steps).answer query) := by
    rw [← strict]
    exact r.ask_run fetched steps query
  refine ⟨t.records, t.byId, t.names.toList, t.namesIn, t.named, answer _, answer _, answer _,
    fun _ => answer _, fun _ => answer _, h.namesIn, rfl, fun _ => h.namesIn_all,
    fun _ _ => h.namesIn_append, fun name => ?_⟩
  refine ⟨sorted_ordered _, h.named_nodup name, fun _ => h.mem_named, ?_⟩
  rw [Std.ExtTreeSet.mem_toList]
  exact h.named_ne_nil_iff name

/-- So it is where a bundle is renamed that shares its name: the name that is kept for the other one is
found in its state, the new name in that of the renamed one. -/
theorem strict_names_answered_renamed :
    let fetched : Fetched := ⟨.blank, [.new 2 "a" .active, .new 1 "a" .active], []⟩
    let replica := (default : Replica Unit).run
      [.reload (.ok fetched), .notice (.bundle (.changed .updated (.new 1 "b" .installed)))]
    (default : Replica Unit).config.bundleConsistency = .strict ∧
      replica.ask (.bundleNamesIn [.installed]) = .ok (.names ["b"]) ∧
      replica.ask (.bundleNamesIn [.active, .active]) = .ok (.names ["a"]) ∧
      replica.ask (.bundleNamesIn BundleState.all.reverse) = replica.ask (.bundleNamesIn []) ∧
      replica.ask .bundleNames = .ok (.names ["a", "b"]) ∧
      ∃ found, replica.ask (.bundlesNamed "a") = .ok (.bundles found) ∧ found ≠ [] := by
  intro fetched replica
  let renamed : BundleEvent := .changed .updated (.new 1 "b" .installed)
  let inOrder : List BundleRecord := [.new 1 "b" .installed, .new 2 "a" .active]
  obtain ⟨bundles, byId, names, namesIn, named, asked, -, askedNames, askedIn, askedNamed, ofStates, kept,
    all, both, ofName⟩ := strict_names_answered (default : Replica Unit) rfl fetched
      [.notice (.bundle renamed)]
  -- the bundles are those of a legacy replica, which has the renamed one at the end
  have listed : bundles = inOrder := by
    rw [Replica.ask_run] at asked
    cases asked
    have loaded : (BundleTable.ofCollected (.ofList fetched.bundles)).records =
        [.new 1 "a" .active, .new 2 "a" .active] :=
      Ordered.sorted_of_perm (by decide +kernel) (by decide +kernel)
    refine ((BundleTable.Alike.ofCollected fetched.bundles).apply renamed).records_eq.trans ?_
    rw [(BundleTable.ofCollected_indexed fetched.bundles).records_apply, loaded]
    exact Ordered.sorted_of_perm (by decide +kernel) (by decide +kernel)
  have one (b : BundleRecord) : NamesOf BundleRecord.symbolicName [b] [b.symbolicName] :=
    ⟨List.pairwise_singleton _ _, by simp [eq_comm]⟩
  have installed : namesIn [.installed] = ["b"] :=
    (ofStates [.installed]).ext (one (.new 1 "b" .installed)) fun n => by rw [listed]; rfl
  have active : namesIn [.active] = ["a"] :=
    (ofStates [.active]).ext (one (.new 2 "a" .active)) fun n => by rw [listed]; rfl
  have twice : namesIn [.active, .active] = ["a"] := by
    refine (both [.active] [.active] (List.cons_ne_nil _ _) (List.cons_ne_nil _ _)).ext
      (one (.new 2 "a" .active)) fun n => ?_
    simp [active, BundleRecord.new]
  have together : names = ["a", "b"] := by
    have growing : NamesOf BundleRecord.symbolicName inOrder ["a", "b"] :=
      ⟨by decide, by simp [inOrder, BundleRecord.new, or_comm, eq_comm]⟩
    rw [← kept]
    exact (ofStates []).ext growing fun n => by rw [listed]; rfl
  have everywhere : namesIn BundleState.all.reverse = namesIn [] :=
    all _ fun s => by cases s <;> decide
  refine ⟨rfl, ?_, ?_, ?_, ?_, named "a", askedNamed "a", ?_⟩
  · rw [← installed]
    exact askedIn _
  · rw [← twice]
    exact askedIn _
  · exact (askedIn _).trans (everywhere ▸ (askedIn []).symm)
  · rw [← together]
    exact askedNames
  · refine (ofName "a").2.2.2.mpr ?_
    rw [together]
    exact List.mem_cons_self

end StateReplica
