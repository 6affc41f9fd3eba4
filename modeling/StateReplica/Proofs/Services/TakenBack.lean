import StateReplica.Proofs.Replica.Runs
import StateReplica.Proofs.Services.Bound

/-!
Registrations that are taken back. A service whose id nothing has yet registers, and a notice with
that id unregisters it again. Then the list of services is what it was, and of the classes those
stay that the service brought in under the id of another one: they are added for the service but
are taken away by the id they carry. So a registration is undone exactly when the service is bound.

The payload of the second notice counts for nothing but its id.
-/

namespace StateReplica

open Replica (Step)

namespace ServiceRecord

/-- The classes of a service that carry the id of another one. -/
def foreignClasses (s : ServiceRecord) : List ServiceClassRecord :=
  s.registeredClasses.filter (·.serviceId ≠ s.id)

theorem foreignClasses_eq_nil_iff {s : ServiceRecord} : s.foreignClasses = [] ↔ s.Bound := by
  simp only [foreignClasses, Bound, List.filter_eq_nil_iff, decide_eq_true_eq, Ne,
    Decidable.not_not]

end ServiceRecord

namespace ServiceTable

/-- Neither a service nor a class of the table has an id. -/
structure Unknown (t : ServiceTable) (id : UInt64) : Prop where
  services : ∀ s ∈ t.records, s.id ≠ id
  classes : ∀ k ∈ t.classes, k.serviceId ≠ id

variable {t : ServiceTable} {s p : ServiceRecord}

theorem Unknown.filter_records {id : UInt64} (h : t.Unknown id) :
    t.records.filter (·.id ≠ id) = t.records :=
  List.filter_eq_self.mpr fun s hs => decide_eq_true (h.services s hs)

theorem Unknown.filter_classes {id : UInt64} (h : t.Unknown id) :
    t.classes.filter (·.serviceId ≠ id) = t.classes :=
  List.filter_eq_self.mpr fun k hk => decide_eq_true (h.classes k hk)

/-- The services are those from before: only the new one has the id. -/
theorem Unknown.records_taken_back (h : t.Unknown s.id) (same : p.id = s.id)
    (ordered : Ordered t.records) :
    ((t.apply ⟨.registered, s⟩).apply ⟨.unregistering, p⟩).records = t.records := by
  have others : ((t.apply ⟨.registered, s⟩).records.filter (·.id ≠ s.id)).Perm t.records := by
    rw [records_registered, h.filter_records]
    have perm := (sorted_perm (t.records ++ [s])).filter (·.id ≠ s.id)
    have goes : [s].filter (·.id ≠ s.id) = [] := by simp
    rwa [List.filter_append, h.filter_records, goes, List.append_nil] at perm
  rw [records_unregistering, same, sorted_eq_of_perm others, ordered.sorted_eq]

/-- Of the classes, those stay in addition that the service brought in under another id. -/
theorem Unknown.classes_taken_back (h : t.Unknown s.id) (same : p.id = s.id) :
    ((t.apply ⟨.registered, s⟩).apply ⟨.unregistering, p⟩).classes =
      sorted (t.classes ++ s.foreignClasses) := by
  have missing : t.find? s.id = none := by
    refine List.find?_eq_none.mpr fun x hx found => ?_
    exact h.services x hx (of_decide_eq_true found)
  have stay : ((t.apply ⟨.registered, s⟩).classes.filter (·.serviceId ≠ s.id)).Perm
      (t.classes ++ s.foreignClasses) := by
    rw [classes_registered, missing]
    have perm := (sorted_perm (t.classes ++ s.registeredClasses)).filter (·.serviceId ≠ s.id)
    rwa [List.filter_append, h.filter_classes] at perm
  rw [classes_unregistering, same, sorted_eq_of_perm stay]

/-- The names are those from before and those of the classes that stay in addition. -/
theorem Unknown.names_taken_back (h : t.Unknown s.id) (same : p.id = s.id) (coherent : t.Coherent)
    (name : String) :
    name ∈ ((t.apply ⟨.registered, s⟩).apply ⟨.unregistering, p⟩).classNames ↔
      name ∈ t.classNames ∨ ∃ k ∈ s.foreignClasses, k.className = name := by
  have names := ((coherent.apply ⟨.registered, s⟩).apply ⟨.unregistering, p⟩).names
  rw [names, coherent.names, h.classes_taken_back same]
  simp only [mem_sorted, List.mem_append, or_and_right, exists_or]

/-- **A registration that is taken back leaves no trace just when the service was bound.** -/
theorem Unknown.taken_back_iff (h : t.Unknown s.id) (same : p.id = s.id) (coherent : t.Coherent)
    (ordered : Ordered t.records) :
    (t.apply ⟨.registered, s⟩).apply ⟨.unregistering, p⟩ = t ↔ s.Bound := by
  rw [← ServiceRecord.foreignClasses_eq_nil_iff]
  constructor
  · intro undone
    have lengths := congrArg List.length (h.classes_taken_back same)
    rw [undone, (sorted_perm _).length_eq, List.length_append] at lengths
    exact List.length_eq_zero_iff.mp (by omega)
  · intro none
    have classes := h.classes_taken_back same
    rw [none, List.append_nil, coherent.ordered.sorted_eq] at classes
    exact ((coherent.apply _).apply _).ext coherent (h.records_taken_back same ordered) classes

end ServiceTable

/-- A replica shows its contents when it has some. -/
theorem Replica.ask_contents_iff {κ : Type} {r : Replica κ} {c : Contents} :
    r.ask .contents = .ok (.contents c) ↔ r.contents = some c := by
  rw [ask]
  cases r.contents with
  | none =>
    constructor
    · intro h
      cases h
    · intro h
      cases h
  | some d => simp only [Contents.answer, Except.ok.injEq, Reply.contents.injEq, Option.some.injEq]

/-- In every loaded replica the class names are those of the classes. -/
theorem Contents.services_after_coherent (consistency : BundleConsistency) (fetched : Fetched)
    (steps : List Step) : (Contents.after consistency fetched steps).services.Coherent := by
  refine Contents.after_induction (P := fun c => c.services.Coherent) ?_ ?_
  · intro f _
    exact ServiceTable.ofBundles_coherent _
  · intro c event _ h
    cases event with
    | bundle e => exact h
    | service e => exact h.apply e
    | framework e => exact h

/-- **A service that registers under an unknown id and unregisters again leaves the services as they
were, and of the classes just those that carry other ids.** So everything is as it was when the
service was bound, and only then. -/
theorem registration_taken_back {κ : Type} (r : Replica κ) (fetched : Fetched) (steps : List Step)
    {c : Contents} (shown : (r.run (.reload (.ok fetched) :: steps)).ask .contents = .ok (.contents c))
    {s p : ServiceRecord} (unknown : c.services.Unknown s.id) (same : p.id = s.id)
    (ordered : Ordered c.services.records) :
    ∃ after, ((r.run (.reload (.ok fetched) :: steps)).run
        [.notice (.service ⟨.registered, s⟩), .notice (.service ⟨.unregistering, p⟩)]).ask .contents =
          .ok (.contents after) ∧
      after.services.records = c.services.records ∧
      after.services.classes = sorted (c.services.classes ++ s.foreignClasses) ∧
      (∀ name, name ∈ after.services.classNames.toList ↔
        name ∈ c.services.classNames.toList ∨ ∃ k ∈ s.foreignClasses, k.className = name) ∧
      (after = c ↔ s.Bound) := by
  have loaded : (r.run (.reload (.ok fetched) :: steps)).contents = some c :=
    Replica.ask_contents_iff.mp shown
  have coherent : c.services.Coherent := by
    rw [Replica.ask_run] at shown
    cases shown
    exact Contents.services_after_coherent _ fetched steps
  refine ⟨{ c with services := (c.services.apply ⟨.registered, s⟩).apply ⟨.unregistering, p⟩ },
    Replica.ask_contents_iff.mpr (Replica.contents_run loaded _),
    unknown.records_taken_back same ordered, unknown.classes_taken_back same, fun name => ?_, ?_⟩
  · simp only [Std.ExtTreeSet.mem_toList]
    exact unknown.names_taken_back same coherent name
  · rw [← unknown.taken_back_iff same coherent ordered]
    constructor
    · exact congrArg Contents.services
    · intro undone
      rw [undone]

/-- So it is where another service has registered a class under the id that the new one has, and the
new one brings a class of its own and one of the other service. -/
theorem registration_taken_back_shared :
    let other : ServiceRecord := ⟨8, 1, [⟨"l", 8⟩], ∅⟩
    let fetched : Fetched := ⟨.blank, [.withService (.new 1 "a" .active) other], []⟩
    let s : ServiceRecord := ⟨7, 1, [⟨"k", 7⟩, ⟨"l", 8⟩], ∅⟩
    let c := Contents.ofFetched fetched
    c.services.Unknown s.id ∧ Ordered c.services.records ∧
      ∃ after, (((default : Replica Unit).run [.reload (.ok fetched)]).run
          [.notice (.service ⟨.registered, s⟩),
            .notice (.service ⟨.unregistering, .new 7 2⟩)]).ask .contents = .ok (.contents after) ∧
        after.services.records = [other] ∧ after.services.classes = [⟨"l", 8⟩, ⟨"l", 8⟩] ∧
        after ≠ c := by
  intro other fetched s c
  have unknown : c.services.Unknown s.id := ⟨by decide +kernel, by decide +kernel⟩
  have ordered : Ordered c.services.records := sorted_ordered _
  have shown : ((default : Replica Unit).run [.reload (.ok fetched)]).ask .contents =
      .ok (.contents c) := Replica.ask_run _ fetched [] .contents
  obtain ⟨after, asked, records, classes, _, undone⟩ :=
    registration_taken_back _ fetched [] shown unknown (p := .new 7 2) rfl ordered
  have stay : c.services.classes ++ s.foreignClasses = [⟨"l", 8⟩, ⟨"l", 8⟩] := by decide +kernel
  have inOrder : Ordered (α := ServiceClassRecord) [⟨"l", 8⟩, ⟨"l", 8⟩] := by
    unfold Ordered
    decide +kernel
  rw [stay, inOrder.sorted_eq] at classes
  refine ⟨unknown, ordered, after, asked, records.trans (by decide +kernel), classes, fun eq => ?_⟩
  exact absurd (undone.mp eq) (by decide)

/-- A class of another id stays, and its name with it, although nothing is registered any more. -/
theorem foreign_class_outlives_service :
    let loaded := (default : Replica Unit).run [.reload (.ok ⟨.blank, [], []⟩)]
    let s : ServiceRecord := ⟨7, 1, [⟨"k", 8⟩], ∅⟩
    ∃ before after, loaded.ask .contents = .ok (.contents before) ∧
      (loaded.run [.notice (.service ⟨.registered, s⟩),
        .notice (.service ⟨.unregistering, .new 7 1⟩)]).ask .contents = .ok (.contents after) ∧
      before.services.Unknown s.id ∧ Ordered before.services.records ∧
      before.services.classes = [] ∧ before.services.classNames.toList = [] ∧
      after.services.records = [] ∧ after.services.classes = [⟨"k", 8⟩] ∧
      after.services.classNames.toList = ["k"] := by
  intro loaded s
  refine ⟨_, _, rfl, rfl, ⟨?_, ?_⟩, sorted_ordered _, ?_, ?_, ?_, ?_, ?_⟩ <;> decide +kernel

end StateReplica
