import Mathlib.Data.List.Induction
import StateReplica.Proofs.Replica.Runs
import StateReplica.Proofs.Services.Notices

/-!
The order of the services. Loads, registrations and unregistrations sort them; a notice that a service
was modified puts its new properties where the service stands. As properties are compared last, that
leaves the services in order but for their properties, whatever comes (`run_services_in_order`). They
are wholly in order as long as a modified service has no twin, another one that differs from it in
properties only; where it has one, the next notice that sorts puts the two in order again.

No load is asked to bring every id once. Where each does, see the services by id.
-/

namespace StateReplica

open Replica (Step)

/-! ### Order but for the properties -/

namespace ServiceRecord

/-- A service without its properties. -/
def plain (s : ServiceRecord) : ServiceRecord := { s with properties := ∅ }

variable {a b : ServiceRecord}

/-- Properties are compared last. -/
theorem compare_eq (a b : ServiceRecord) :
    compare a b = (compare a.plain b.plain).then (compare a.properties b.properties) := by
  show ServiceRecord.cmp a b = (ServiceRecord.cmp a.plain b.plain).then _
  simp only [ServiceRecord.cmp, compareLex, compareOn, plain, Std.ReflOrd.compare_self,
    Ordering.then_eq, Ordering.then_assoc]

theorem inOrder_plain (h : inOrder a b = true) : inOrder a.plain b.plain = true := by
  rw [inOrder, compare_eq] at h
  exact Ordering.isLE_left_of_isLE_then h

/-- Between services that differ in more than properties, the properties do not count. -/
theorem inOrder_of_plain (h : inOrder a.plain b.plain = true) (ne : a.plain ≠ b.plain) :
    inOrder a b = true := by
  have lt : compare a.plain b.plain = .lt := by
    rcases Ordering.isLE_iff_eq_lt_or_eq_eq.mp h with lt | eq
    · exact lt
    · exact absurd (Std.LawfulEqOrd.eq_of_compare eq) ne
  refine inOrder_of_lt ?_
  rw [compare_eq, lt]
  rfl

end ServiceRecord

/-- Services in order are in order without their properties, all of them. -/
theorem Ordered.plain {services : List ServiceRecord} (h : Ordered services) :
    Ordered (services.map ServiceRecord.plain) :=
  List.pairwise_map.mpr (h.imp ServiceRecord.inOrder_plain)

namespace ServiceTable

/-! ### Services that are modified -/

section Modified

variable {id : UInt64} {properties : Properties} {services : List ServiceRecord}

/-- New properties make no difference to services without their properties. -/
theorem setProperties_plain (id : UInt64) (properties : Properties) (services : List ServiceRecord) :
    (setProperties id properties services).map ServiceRecord.plain =
      services.map ServiceRecord.plain := by
  induction services with
  | nil => rfl
  | cons s services ih =>
    rw [setProperties]
    split
    · rfl
    · rw [List.map_cons, List.map_cons, ih]

/-- Whoever is listed afterwards was listed before, or stands for one with the id. -/
theorem mem_setProperties {s : ServiceRecord} (h : s ∈ setProperties id properties services) :
    s ∈ services ∨ ∃ stored ∈ services, stored.id = id ∧ s.plain = stored.plain := by
  induction services with
  | nil => cases h
  | cons first services ih =>
    rw [setProperties] at h
    split at h
    next eq =>
      rcases List.mem_cons.mp h with rfl | h
      · exact .inr ⟨first, List.mem_cons_self, eq, rfl⟩
      · exact .inl (List.mem_cons_of_mem _ h)
    next =>
      rcases List.mem_cons.mp h with rfl | h
      · exact .inl List.mem_cons_self
      · rcases ih h with h | ⟨stored, hs, eq, same⟩
        · exact .inl (List.mem_cons_of_mem _ h)
        · exact .inr ⟨stored, List.mem_cons_of_mem _ hs, eq, same⟩

/-- The first service of an id has no twin: no other one differs from it in properties only. -/
def Single (services : List ServiceRecord) (id : UInt64) : Prop :=
  ∀ stored ∈ services.find? (·.id = id), services.countP (fun s => s.plain = stored.plain) ≤ 1

instance (services : List ServiceRecord) (id : UInt64) : Decidable (Single services id) := by
  unfold Single
  infer_instance

/-- Services in order stay so when one without a twin is modified: against the others its properties
do not count. -/
theorem ordered_setProperties (h : Ordered services) (single : Single services id)
    (properties : Properties) : Ordered (setProperties id properties services) := by
  induction services with
  | nil => exact h
  | cons s services ih =>
    obtain ⟨behind, rest⟩ := List.pairwise_cons.mp h
    rw [setProperties]
    by_cases eq : s.id = id
    · rw [if_pos eq]
      refine List.pairwise_cons.mpr ⟨fun other ho => ?_, rest⟩
      have before : inOrder s.plain other.plain = true := ServiceRecord.inOrder_plain (behind other ho)
      refine ServiceRecord.inOrder_of_plain before fun twin => ?_
      replace twin : s.plain = other.plain := twin
      have found : (s :: services).find? (·.id = id) = some s :=
        List.find?_cons_of_pos (decide_eq_true eq)
      have one := single s found
      have two : 0 < services.countP (fun x => x.plain = s.plain) :=
        List.countP_pos_iff.mpr ⟨other, ho, decide_eq_true twin.symm⟩
      rw [List.countP_cons, if_pos (decide_eq_true rfl)] at one
      omega
    · rw [if_neg eq]
      have rest_single : Single services id := by
        intro stored found
        have one := single stored ((List.find?_cons_of_neg (by simpa using eq)).trans found)
        rw [List.countP_cons] at one
        omega
      refine List.pairwise_cons.mpr ⟨fun other ho => ?_, ih rest rest_single⟩
      rcases mem_setProperties ho with ho | ⟨stored, hs, same, twin⟩
      · exact behind other ho
      · have before := ServiceRecord.inOrder_plain (behind stored hs)
        rw [← twin] at before
        refine ServiceRecord.inOrder_of_plain before fun eq' => eq ?_
        have ids : s.plain.id = stored.plain.id := congrArg _ (eq'.trans twin)
        exact ids.trans same

end Modified

/-! ### Notices -/

variable {t : ServiceTable} {e : ServiceEvent}

/-- Every notice but one that a service was modified sorts the services. -/
theorem ordered_apply (sorts : e.kind ≠ .modified) : Ordered (t.apply e).records := by
  obtain ⟨kind, s⟩ := e
  cases kind with
  | registered =>
    rw [records_registered]
    exact sorted_ordered _
  | modified => exact absurd rfl sorts
  | unregistering =>
    rw [records_unregistering]
    exact sorted_ordered _

/-- **A notice keeps the services in order but for their properties.** -/
theorem plain_apply (h : Ordered (t.records.map ServiceRecord.plain)) (e : ServiceEvent) :
    Ordered ((t.apply e).records.map ServiceRecord.plain) := by
  by_cases modified : e.kind = .modified
  · obtain ⟨kind, s⟩ := e
    cases modified
    show Ordered ((setProperties s.id s.properties t.records).map ServiceRecord.plain)
    rw [setProperties_plain]
    exact h
  · exact (ordered_apply modified).plain

end ServiceTable

/-! ### Runs -/

/-- A step sorts the services: a load that succeeds, a registration or an unregistration. -/
def Replica.Step.Sorts : Step → Prop
  | .reload (.ok _) => True
  | .notice (.service e) => e.kind ≠ .modified
  | _ => False

/-- Every service that was modified since the services were last sorted was without a twin. -/
def ModifiedSingly (consistency : BundleConsistency) (fetched : Fetched) (steps : List Step) : Prop :=
  ∀ before p after, steps = before ++ .notice (.service ⟨.modified, p⟩) :: after →
    (∀ s ∈ after, ¬s.Sorts) →
    ServiceTable.Single (Contents.after consistency fetched before).services.records p.id

theorem ModifiedSingly.of_append {consistency : BundleConsistency} {fetched : Fetched}
    {steps : List Step} {s : Step} (h : ModifiedSingly consistency fetched (steps ++ [s]))
    (keeps : ¬s.Sorts) : ModifiedSingly consistency fetched steps := by
  intro before p after eq unsorted
  refine h before p (after ++ [s]) ?_ fun t ht => ?_
  · rw [eq, List.append_assoc, List.cons_append]
  · rcases List.mem_append.mp ht with ht | ht
    · exact unsorted t ht
    · rw [List.mem_singleton.mp ht]
      exact keeps

namespace Contents

variable {consistency : BundleConsistency} {fetched : Fetched}

/-- After every run the services are in order but for their properties. -/
theorem plain_after (consistency : BundleConsistency) (fetched : Fetched) (steps : List Step) :
    Ordered ((after consistency fetched steps).services.records.map ServiceRecord.plain) := by
  refine after_induction (P := fun c => Ordered (c.services.records.map ServiceRecord.plain)) ?_ ?_
  · intro f _
    exact (sorted_ordered _).plain
  · intro c event _ h
    cases event with
    | bundle e => exact h
    | service e => exact ServiceTable.plain_apply h e
    | framework e => exact h

/-- They are in order where only services without a twin were modified since they were sorted. -/
theorem ordered_after (steps : List Step) (singly : ModifiedSingly consistency fetched steps) :
    Ordered (after consistency fetched steps).services.records := by
  -- the last step is taken off, since after one that sorts nothing before it matters
  induction steps using List.reverseRecOn with
  | nil => exact sorted_ordered _
  | append_singleton steps s ih =>
    rw [after_append]
    cases s with
    | reload outcome =>
      cases outcome with
      | error e => exact ih (singly.of_append id)
      | ok f => exact sorted_ordered _
    | notice event =>
      cases event with
      | bundle e => exact ih (singly.of_append id)
      | framework e => exact ih (singly.of_append id)
      | service e =>
        by_cases modified : e.kind = .modified
        · obtain ⟨kind, p⟩ := e
          cases modified
          have h := ih (singly.of_append fun sorts => sorts rfl)
          have single := singly steps p [] rfl fun _ ht => nomatch ht
          exact ServiceTable.ordered_setProperties h single p.properties
        · exact ServiceTable.ordered_apply modified

end Contents

/-- Questions that are answered with services. -/
inductive Query.OfServices : Query → Prop
  | all : OfServices .services
  | byClass (className : String) : OfServices (.servicesByClass className)
  | ofBundle (bundleId : UInt64) : OfServices (.servicesOfBundle bundleId)

/-- Such an answer lists some of the services, as they stand. -/
theorem Query.OfServices.answer {query : Query} (h : query.OfServices) (c : Contents) :
    ∃ found, c.answer query = .services found ∧ found.Sublist c.services.records := by
  cases h with
  | all => exact ⟨_, rfl, List.Sublist.refl _⟩
  | byClass className => exact ⟨_, rfl, List.filter_sublist⟩
  | ofBundle bundleId => exact ⟨_, rfl, List.filter_sublist⟩

/-- **Services are answered in order but for their properties, after every run**; and wholly in order,
where only services without a twin were modified since the services were last sorted. -/
theorem run_services_in_order {κ : Type} (r : Replica κ) (fetched : Fetched) (steps : List Step)
    {query : Query} (asked : query.OfServices) :
    ∃ found, (r.run (.reload (.ok fetched) :: steps)).ask query = .ok (.services found) ∧
      Ordered (found.map ServiceRecord.plain) ∧
      (ModifiedSingly r.config.bundleConsistency fetched steps → Ordered found) := by
  obtain ⟨found, answered, part⟩ :=
    asked.answer (Contents.after r.config.bundleConsistency fetched steps)
  refine ⟨found, ?_, ?_, fun singly => ?_⟩
  · rw [r.ask_run fetched steps query, answered]
  · exact List.Pairwise.sublist (part.map _) (Contents.plain_after _ fetched steps)
  · exact List.Pairwise.sublist part (Contents.ordered_after steps singly)

/-- So it is where a service is modified whose id another bundle has used too, even twice. -/
theorem run_services_in_order_shared :
    let s : ServiceRecord := .withClass (.new 7 2) "k"
    let twin := s.withProperty "p" "1"
    let other : ServiceRecord := .withClass (.new 7 1) "k"
    let fetched : Fetched := ⟨.blank, [.withServices (.new 2 "b" .active) [twin, s],
      .withService (.new 1 "a" .active) other], []⟩
    let modified : Step := .notice (.service ⟨.modified, other.withProperty "p" "2"⟩)
    Query.OfServices (.servicesByClass "k") ∧ ModifiedSingly .strict fetched [modified] ∧
      ((default : Replica Unit).run [.reload (.ok fetched), modified]).ask (.servicesByClass "k") =
        .ok (.services [other.withProperty "p" "2", s, twin]) ∧
      Ordered [other.withProperty "p" "2", s, twin] := by
  intro s twin other fetched modified
  have inOrder : Ordered [other, s, twin] := by decide +kernel
  have loaded : (Contents.ofFetched fetched).services.records = [other, s, twin] :=
    inOrder.sorted_of_perm (by decide +kernel)
  have singly : ModifiedSingly .strict fetched [modified] := by
    intro before p after eq _
    obtain ⟨rfl, eq⟩ | ⟨before, rfl, eq⟩ := List.cons_eq_append_iff.mp eq
    · obtain ⟨rfl, -⟩ : other.withProperty "p" "2" = p ∧ after = [] := by simpa [modified] using eq
      show ServiceTable.Single (Contents.ofFetched fetched).services.records 7
      rw [loaded]
      decide +kernel
    · cases before <;> cases eq
  have listed : (Contents.after .strict fetched [modified]).services.byClass "k" =
      [other.withProperty "p" "2", s, twin] := by
    show (ServiceTable.setProperties 7 _ (Contents.ofFetched fetched).services.records).filter _ = _
    rw [loaded]
    decide +kernel
  obtain ⟨found, shown, _, ordered⟩ :=
    run_services_in_order (default : Replica Unit) fetched [modified] (.byClass "k")
  have same : found = [other.withProperty "p" "2", s, twin] := by
    rw [Replica.ask_run] at shown
    cases shown
    exact listed
  rw [same] at shown ordered
  exact ⟨.byClass "k", singly, shown, ordered singly⟩

/-- Twins are answered out of order when the first of them was modified, whatever is asked. -/
theorem modified_twin_out_of_order :
    let s : ServiceRecord := .withProperty (.withClass (.new 7 1) "k") "p" "1"
    let twin := s.withProperty "p" "2"
    let later := s.withProperty "p" "3"
    let fetched : Fetched := ⟨.blank, [.withServices (.new 1 "a" .active) [s, twin]], []⟩
    let replica := (default : Replica Unit).run
      [.reload (.ok fetched), .notice (.service ⟨.modified, later⟩)]
    replica.ask .services = .ok (.services [later, twin]) ∧
      replica.ask (.servicesByClass "k") = .ok (.services [later, twin]) ∧
      replica.ask (.servicesOfBundle 1) = .ok (.services [later, twin]) ∧
      ¬Ordered [later, twin] := by
  intro s twin later fetched replica
  have inOrder : Ordered [s, twin] := by decide +kernel
  have loaded : (Contents.ofFetched fetched).services.records = [s, twin] := inOrder.sorted_eq
  have listed : (Contents.after .strict fetched
      [.notice (.service ⟨.modified, later⟩)]).services.records = [later, twin] := by
    show ServiceTable.setProperties 7 _ (Contents.ofFetched fetched).services.records = _
    rw [loaded]
    decide +kernel
  have named : [later, twin].filter (·.provides "k") = [later, twin] := by decide +kernel
  have brought : [later, twin].filter (·.bundleId = 1) = [later, twin] := by decide +kernel
  have answer (query : Query) := Replica.ask_run (default : Replica Unit) fetched
    [.notice (.service ⟨.modified, later⟩)] query
  refine ⟨?_, ?_, ?_, ?_⟩
  · rw [← listed]
    exact answer .services
  · rw [← named, ← listed]
    exact answer (.servicesByClass "k")
  · rw [← brought, ← listed]
    exact answer (.servicesOfBundle 1)
  · decide +kernel

end StateReplica
