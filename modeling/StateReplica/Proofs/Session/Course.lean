import StateReplica.Proofs.Session.Operations

/-!
The course of sessions. Seen from the replica a session is a run: each load and each notice is one
step of it and gives back what that step does (`Company.session_course`). The registry of listeners
has a course of its own, which is on record.
-/

namespace StateReplica.Session

open Replica (Step)

variable {ω κ : Type}

/-- From one scene to another the replica took steps that gave back some outcomes, and the registry
was changed as the record says. -/
structure Course (s s' : Scene ω κ) (outcomes : List Outcome) : Prop where
  steps : ∃ steps, s'.replica.bare = (s.replica.run steps).bare ∧
    outcomes = s.replica.outcomes steps
  registry : ∃ entries, s'.record = s.record ++ entries ∧
    s'.replica.listeners = s.replica.listeners.changed (Entry.changes entries)

namespace Course

variable {s t u : Scene ω κ} {before after : List Outcome}

theorem of_passed {entries : List (Entry κ)} (h : Passed s t entries) : Course s t [] where
  steps := ⟨[], h.bare, rfl⟩
  registry := ⟨entries, h.record, h.listeners⟩

theorem of_committed {step : Step} {silent told : List (Entry κ)} (h : Committed s step t silent)
    (h' : Passed t u told) : Course s u [s.replica.outcome step] where
  steps := by
    refine ⟨[step], ?_, rfl⟩
    rw [h'.bare, h.replica]
    rfl
  registry := by
    refine ⟨silent ++ told, ?_, ?_⟩
    · rw [h'.record, h.record, List.append_assoc]
    · have none : Entry.changes silent = [] := Entry.changes_of_silent h.silent
      rw [h'.listeners, h.replica, Replica.listeners_step, Entry.changes_append, none,
        List.nil_append]

theorem trans (h : Course s t before) (h' : Course t u after) : Course s u (before ++ after) where
  steps := by
    obtain ⟨steps, bare, eq⟩ := h.steps
    obtain ⟨steps', bare', eq'⟩ := h'.steps
    refine ⟨steps ++ steps', ?_, ?_⟩
    · rw [bare', ← Replica.run_bare, bare, Replica.run_bare, Replica.run_append]
    · rw [eq, eq', Replica.outcomes_append, ← Replica.outcomes_bare t.replica, bare,
        Replica.outcomes_bare]
  registry := by
    obtain ⟨entries, record, listeners⟩ := h.registry
    obtain ⟨entries', record', listeners'⟩ := h'.registry
    refine ⟨entries ++ entries', ?_, ?_⟩
    · rw [record', record, List.append_assoc]
    · rw [listeners', listeners, Entry.changes_append, Registry.changed_append]

end Course

theorem Answer.filterMap_outcome?_cons (answer : Answer) (answers : List Answer) :
    (answer :: answers).filterMap outcome? =
      answer.outcome?.toList ++ answers.filterMap outcome? := by
  cases answer <;> rfl

namespace Company

variable (company : Company ω κ)

/-- An operation that is a step gives back what the step does. -/
theorem perform_of_step {s : Scene ω κ} {operation : Operation κ} {step : Step}
    (taken : company.step? s operation = some step) :
    ((company.perform operation).run s).1 = .outcome (s.replica.outcome step) ∧
      ((company.perform operation).run s).2.replica.bare = (s.replica.step step).bare := by
  have effect := company.perform_effect s operation
  generalize (company.perform operation).run s = result at effect
  cases effect with
  | change taken' counts committed round =>
    cases taken.symm.trans taken'
    exact ⟨rfl, by rw [round.passed.bare, committed.replica]⟩
  | @idle answer s' entries idle outcome passed aside =>
    rw [taken] at outcome
    cases answer with
    | outcome given =>
      cases outcome
      exact ⟨rfl, by rw [passed.bare, Replica.step_of_not_counts idle]⟩
    | reply | added | removed => cases outcome

/-- **An operation goes the course of its step, if it is one.** -/
theorem perform_course (operation : Operation κ) (s : Scene ω κ) :
    Course s ((company.perform operation).run s).2
      ((company.perform operation).run s).1.outcome?.toList := by
  have effect := company.perform_effect s operation
  generalize (company.perform operation).run s = result at effect
  cases effect with
  | change taken counts committed round => exact .of_committed committed round.passed
  | @idle answer s' entries idle outcome passed aside =>
    cases answer with
    | outcome given =>
      obtain ⟨step, -, rfl⟩ := Option.map_eq_some_iff.mp outcome.symm
      -- a step that does not count is taken in place
      have stays : s.replica.step step = s.replica := Replica.step_of_not_counts idle
      have committed : Committed s step s [] :=
        ⟨stays.symm, (List.append_nil _).symm, fun _ he => nomatch he⟩
      exact .of_committed committed passed
    | reply | added | removed => exact .of_passed passed

/-- **A session goes the course of the steps among its operations.** -/
theorem operations_course (operations : List (Operation κ)) (s : Scene ω κ) :
    Course s ((operations.mapM company.perform).run s).2
      (((operations.mapM company.perform).run s).1.filterMap Answer.outcome?) := by
  induction operations generalizing s with
  | nil => exact .of_passed (.refl s)
  | cons operation operations ih =>
    have first := company.perform_course operation s
    have rest := ih ((company.perform operation).run s).2
    have course := first.trans rest
    rw [← Answer.filterMap_outcome?_cons] at course
    rw [List.mapM_cons]
    exact course

end Company

end StateReplica.Session
