import StateReplica.Proofs.Session.Course

/-!
The life of a replica. It is loaded as soon as some load has succeeded and stays so. Its generation
counts the loads that succeeded and the notices that counted. Until it is loaded all questions are
answered with the same error and notices are ignored. A load stops at the first thing that cannot be
had, gives back the error for it, and leaves everything as it was.
-/

namespace StateReplica.Session

open Replica (Step)

variable {ω κ : Type}

/-! ### Along a course -/

namespace Course

variable {s s' : Scene ω κ} {outcomes : List Outcome}

theorem isLoaded (h : Course s s' outcomes) :
    s'.replica.isLoaded = (s.replica.isLoaded || outcomes.any (·.loads)) := by
  obtain ⟨steps, bare, rfl⟩ := h.steps
  have same : s'.replica.bare.isLoaded = (s.replica.run steps).bare.isLoaded := by rw [bare]
  rw [← Replica.isLoaded_run]
  exact same

theorem generation (h : Course s s' outcomes) :
    s'.replica.generation = s.replica.generation + .ofNat (outcomes.countP (·.counts)) := by
  obtain ⟨steps, bare, rfl⟩ := h.steps
  have same : s'.replica.bare.generation = (s.replica.run steps).bare.generation := by rw [bare]
  rw [← Replica.generation_run]
  exact same

end Course

namespace Answer

theorem loads_iff_mem (answers : List Answer) :
    (answers.filterMap outcome?).any (·.loads) = true ↔
      .outcome (.reloaded (.ok ())) ∈ answers := by
  simp only [List.any_eq_true, List.mem_filterMap]
  constructor
  · rintro ⟨outcome, ⟨answer, mem, eq⟩, loads⟩
    cases answer with
    | outcome given =>
      cases eq
      match outcome, loads with
      | .reloaded (.ok ()), _ => exact mem
    | reply | added | removed => cases eq
  · intro mem
    exact ⟨_, ⟨_, mem, rfl⟩, rfl⟩

theorem countP_outcomes (answers : List Answer) :
    (answers.filterMap outcome?).countP (·.counts) = answers.countP (·.counts) := by
  induction answers with
  | nil => rfl
  | cons answer answers ih =>
    rw [filterMap_outcome?_cons, List.countP_append, ih, List.countP_cons, Nat.add_comm]
    cases answer with
    | outcome given => rw [outcome?, Option.toList, List.countP_singleton]; rfl
    | reply | added | removed => rfl

end Answer

namespace Company

variable (company : Company ω κ)

/-- Whoever goes on after some operations goes on from the scene after them. -/
theorem sceneAfter_append (config : ReplicaConfig) (outside : ω)
    (before more : List (Operation κ)) :
    company.sceneAfter config outside (before ++ more) =
      ((more.mapM company.perform).run (company.sceneAfter config outside before)).2 := by
  rw [sceneAfter, session, List.mapM_append]
  rfl

/-- What a load comes to, with all that the server was asked for. -/
theorem perform_reload (s : Scene ω κ) :
    let result := (company.perform .reload).run s
    ∃ fetched asked rest, Asked s.replica.config.configurationFilter fetched asked ∧
      result.1 = .outcome (.reloaded (fetched.map fun _ => ())) ∧
      result.2.record = s.record ++ asked ++ rest ∧
      ∀ e, fetched = .error e →
        result.2.replica = s.replica ∧ rest = [.logged (.reloadFailed e)] := by
  intro result
  have taken : company.step? s .reload = some (.reload (company.surroundings.fetch.run s).1) := rfl
  have answer : result.1 =
      .outcome (.reloaded ((company.surroundings.fetch.run s).1.map fun _ => ())) :=
    (company.perform_of_step taken).1
  cases fetched : (company.surroundings.fetch.run s).1 with
  | error e =>
    obtain ⟨asked, outside, what, eq⟩ := company.reload_failed s fetched
    have after : result.2 =
        ⟨s.replica, outside, s.record ++ asked ++ [.logged (.reloadFailed e)]⟩ :=
      congrArg Prod.snd eq
    rw [fetched] at answer
    refine ⟨.error e, asked, [.logged (.reloadFailed e)], what, answer, by rw [after],
      fun e' same => ?_⟩
    cases same
    rw [after]
    exact ⟨rfl, rfl⟩
  | ok given =>
    obtain ⟨mid, asked, more, what, committed, eq⟩ := company.reload_loaded s fetched
    obtain ⟨told, round⟩ := company.notify_round mid
    have after : result.2 = (company.surroundings.notify.run mid).2 := congrArg Prod.snd eq
    rw [fetched] at answer
    refine ⟨.ok given, asked, more ++ told, what, answer, ?_, fun e same => nomatch same⟩
    rw [after, round.passed.record, committed.record]
    simp only [List.append_assoc]

end Company

/-- **The life of a replica.** After any operations on a new replica, whatever the server and the
listeners have done and with fewer changes than a word can count:

it is loaded if and only if some load has succeeded, and stays so whatever comes next;

its generation is the number of loads that succeeded and notices that counted;

questions are answered if it is loaded, and with the same error if it is not;

notices count if it is loaded, and are otherwise ignored;

a load asks the server for one thing after the other up to the first error, which it gives back, and
then leaves the replica as it was and calls nobody. -/
theorem life_cycle (company : Company ω κ) (config : ReplicaConfig) (outside : ω)
    (before : List (Operation κ))
    (few : (company.session config outside before).1.countP (·.counts) < UInt64.size) :
    let answers := (company.session config outside before).1
    let s := company.sceneAfter config outside before
    (s.replica.isLoaded = true ↔ .outcome (.reloaded (.ok ())) ∈ answers) ∧
    (s.replica.isLoaded = true → ∀ more,
      (company.sceneAfter config outside (before ++ more)).replica.isLoaded = true) ∧
    s.replica.generation.toNat = answers.countP (·.counts) ∧
    (∀ query, ∃ reply, (company.perform (.ask query)).run s = (.reply reply, s) ∧
      if s.replica.isLoaded then ∃ given, reply = .ok given else reply = .error .notLoaded) ∧
    (∀ event,
      let result := (company.perform (.apply event)).run s
      result.1 = .outcome (.applied s.replica.isLoaded) ∧
      (s.replica.isLoaded = false →
        result.2 = { s with record := s.record ++ [.logged (.ignored event)] })) ∧
    let result := (company.perform .reload).run s
    ∃ fetched asked rest, Asked s.replica.config.configurationFilter fetched asked ∧
      result.1 = .outcome (.reloaded (fetched.map fun _ => ())) ∧
      result.2.record = s.record ++ asked ++ rest ∧
      ∀ e, fetched = .error e →
        result.2.replica = s.replica ∧ rest = [.logged (.reloadFailed e)] := by
  intro answers s
  have course := company.operations_course before (.fresh config outside)
  refine ⟨?_, fun loaded more => ?_, ?_, fun query => ⟨s.replica.ask query, rfl, ?_⟩,
    fun event => ?_, company.perform_reload s⟩
  · have loaded : s.replica.isLoaded = _ := course.isLoaded
    rw [loaded]
    exact Answer.loads_iff_mem answers
  · rw [company.sceneAfter_append, (company.operations_course more s).isLoaded, loaded]
    rfl
  · have generation : s.replica.generation = 0 + _ := course.generation
    rw [Answer.countP_outcomes, UInt64.zero_add] at generation
    rw [generation]
    exact UInt64.toNat_ofNat_of_lt few
  · rw [Replica.isLoaded, Replica.ask]
    cases s.replica.contents with
    | none => exact rfl
    | some contents => exact ⟨_, rfl⟩
  · have taken : company.step? s (.apply event) = some (.notice event) := rfl
    refine ⟨(company.perform_of_step taken).1, fun unloaded => ?_⟩
    exact congrArg Prod.snd (company.apply_ignored s event unloaded)

/-- A server that cannot be reached at first and refuses its configurations later on, and listeners
that panic. -/
def hesitant : Company Nat Unit where
  framework := fun n => (if n = 0 then .error (.connect "refused") else .ok .blank, n + 1)
  bundles := fun n => (.ok [], n)
  configurations _ := fun n => (if n = 3 then .error (.remote "s" "busy") else .ok [], n)
  callback _ := .finish .panicked

/-- So it is where nothing counts before the second load, and the third fails while the replica is
loaded. -/
theorem life_cycle_hesitant :
    let before : List (Operation Unit) := [.apply (.bundle (.uninstalled 7)), .reload,
      .addListener ⟨"l", ()⟩, .reload, .apply (.bundle (.uninstalled 7)), .reload]
    (hesitant.session default 0 before).1.countP (·.counts) < UInt64.size ∧
      (hesitant.sceneAfter default 0 before).replica.isLoaded = true ∧
      (hesitant.sceneAfter default 0 before).replica.generation.toNat = 2 := by
  intro before
  have few : (hesitant.session default 0 before).1.countP (·.counts) < UInt64.size := by
    decide +kernel
  obtain ⟨loaded, _, generation, _⟩ := life_cycle hesitant default 0 before few
  refine ⟨few, loaded.mpr ?_, generation.trans ?_⟩
  · rw [← Answer.loads_iff_mem]
    decide +kernel
  · decide +kernel

end StateReplica.Session
