import StateReplica.Proofs.Replica.Operations

/-!
What steps give back. A load says whether it succeeded, and a notice whether it counted, which is
whether the replica was loaded. The changes of a run are the steps that counted, and a replica is
loaded as soon as a load has succeeded, whatever comes after that.
-/

namespace StateReplica

open Replica (Step)

/-- What a step gives back. -/
inductive Outcome
  | reloaded (outcome : Except Error Unit)
  | applied (counted : Bool)

namespace Outcome

/-- Whether the step was a load that succeeded. -/
def loads : Outcome → Bool
  | .reloaded (.ok ()) => true
  | _ => false

/-- Whether the step was a change. -/
def counts : Outcome → Bool
  | .applied true => true
  | outcome => outcome.loads

end Outcome

namespace Replica

variable {κ : Type}

def outcome (r : Replica κ) : Step → Outcome
  | .reload fetched => .reloaded (fetched.map fun _ => ())
  | .notice _ => .applied r.isLoaded

/-- What the steps of a run give back. -/
def outcomes (r : Replica κ) : List Step → List Outcome
  | [] => []
  | s :: steps => r.outcome s :: (r.step s).outcomes steps

/-! ### One step -/

/-- A step that is no change changes nothing. -/
theorem step_of_not_counts {r : Replica κ} {s : Step} (h : (r.outcome s).counts = false) :
    r.step s = r := by
  cases s with
  | reload fetched =>
    cases fetched with
    | error e => rfl
    | ok fetched => cases h
  | notice event =>
    obtain ⟨config, contents, generation, listeners⟩ := r
    cases contents with
    | none => rfl
    | some c => cases h

theorem generation_step (r : Replica κ) (s : Step) :
    (r.step s).generation =
      if (r.outcome s).counts then r.generation + 1 else r.generation := by
  split
  next counts =>
    cases s with
    | reload fetched =>
      cases fetched with
      | error e => cases counts
      | ok fetched => rfl
    | notice event =>
      obtain ⟨config, contents, generation, listeners⟩ := r
      cases contents with
      | none => cases counts
      | some c => rfl
  next idle => rw [step_of_not_counts (Bool.eq_false_iff.mpr idle)]

theorem isLoaded_step (r : Replica κ) (s : Step) :
    (r.step s).isLoaded = (r.isLoaded || (r.outcome s).loads) := by
  obtain ⟨config, contents, generation, listeners⟩ := r
  cases s with
  | reload fetched => cases fetched <;> cases contents <;> rfl
  | notice event => cases contents <;> rfl

/-- Steps leave the listeners alone. -/
@[simp] theorem listeners_step (r : Replica κ) (s : Step) : (r.step s).listeners = r.listeners := by
  obtain ⟨config, contents, generation, listeners⟩ := r
  cases s with
  | reload fetched => cases fetched <;> rfl
  | notice event => cases contents <;> rfl

/-! ### Runs -/

/-- **The generation counts the changes**, as far as a word can count. -/
theorem generation_run (r : Replica κ) (steps : List Step) :
    (r.run steps).generation =
      r.generation + .ofNat ((r.outcomes steps).countP (·.counts)) := by
  induction steps generalizing r with
  | nil => exact (UInt64.add_zero _).symm
  | cons s steps ih =>
    have rest := ih (r.step s)
    rw [generation_step] at rest
    rw [run, List.foldl_cons, ← run, rest, outcomes, List.countP_cons, UInt64.ofNat_add]
    split
    next counts => rw [UInt64.add_assoc, UInt64.add_comm 1]; rfl
    next idle => rw [show UInt64.ofNat 0 = 0 from rfl, UInt64.add_zero]

/-- **A replica is loaded when it was before or some load has succeeded.** -/
theorem isLoaded_run (r : Replica κ) (steps : List Step) :
    (r.run steps).isLoaded = (r.isLoaded || (r.outcomes steps).any (·.loads)) := by
  induction steps generalizing r with
  | nil => exact (Bool.or_false _).symm
  | cons s steps ih =>
    rw [run, List.foldl_cons, ← run, ih, isLoaded_step, outcomes, List.any_cons, Bool.or_assoc]

theorem outcomes_append (r : Replica κ) (before after : List Step) :
    r.outcomes (before ++ after) = r.outcomes before ++ (r.run before).outcomes after := by
  induction before generalizing r with
  | nil => rfl
  | cons s before ih => rw [List.cons_append, outcomes, ih, outcomes, List.cons_append]; rfl

theorem config_run (r : Replica κ) (steps : List Step) : (r.run steps).config = r.config := by
  induction steps generalizing r with
  | nil => rfl
  | cons s steps ih => exact (ih (r.step s)).trans (config_step r s)

/-! ### Notices in a row -/

theorem outcomes_notices (r : Replica κ) (events : List Event) :
    r.outcomes (events.map .notice) = events.map fun _ => .applied r.isLoaded := by
  induction events generalizing r with
  | nil => rfl
  | cons event events ih =>
    have same : (r.step (.notice event)).isLoaded = r.isLoaded := by
      rw [isLoaded_step]
      exact Bool.or_false _
    rw [List.map_cons, outcomes, ih, same]
    rfl

theorem contents_notices (r : Replica κ) (events : List Event) :
    (r.run (events.map .notice)).contents =
      r.contents.map fun c => events.foldl (Contents.apply r.config.bundleConsistency) c := by
  cases h : r.contents with
  | none =>
    rcases run_of_unloaded h (events.map .notice) with ⟨same, -⟩ | ⟨before, fetched, after, eq, -⟩
    · rw [same, h]
      rfl
    · have mem : Step.reload (.ok fetched) ∈ events.map Step.notice := by
        rw [eq]
        exact List.mem_append_right _ List.mem_cons_self
      obtain ⟨event, -, eq⟩ := List.mem_map.mp mem
      cases eq
  | some c =>
    rw [contents_run h, List.foldl_map]
    rfl

theorem generation_notices (r : Replica κ) (events : List Event) :
    (r.run (events.map .notice)).generation =
      if r.isLoaded then r.generation + .ofNat events.length else r.generation := by
  rw [generation_run, outcomes_notices, List.countP_map]
  cases r.isLoaded with
  | false => simp [Function.comp_def, Outcome.counts, Outcome.loads]
  | true => simp [Function.comp_def, Outcome.counts]

/-! ### Without the listeners -/

theorem outcome_bare (r : Replica κ) (s : Step) : r.bare.outcome s = r.outcome s := by
  cases s <;> rfl

theorem outcomes_bare (r : Replica κ) (steps : List Step) :
    r.bare.outcomes steps = r.outcomes steps := by
  induction steps generalizing r with
  | nil => rfl
  | cons s steps ih => rw [outcomes, outcomes, outcome_bare, ← bare_step, ih]

theorem run_bare (r : Replica κ) (steps : List Step) : r.bare.run steps = (r.run steps).bare := by
  induction steps generalizing r with
  | nil => rfl
  | cons s steps ih =>
    have rest := ih (r.step s)
    rwa [bare_step] at rest

end Replica

end StateReplica
