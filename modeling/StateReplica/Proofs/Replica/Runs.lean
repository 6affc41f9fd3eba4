import StateReplica.Replica.Basic

/-!
Runs of a replica. What changes a replica from outside comes in steps: it is loaded, or the load
fails, or a notice arrives. Before the first load nothing counts (`Replica.run_of_unloaded`), and from
then on the steps act on the contents alone (`Replica.ask_run`), so that what a run does is shown by
induction over the contents (`Contents.after_induction`).

A run is any list of steps, so what is said of all runs is said of a replica after each of its steps.
The steps leave out who is told of a change, and when.
-/

namespace StateReplica

/-! ### Steps -/

/-- A step of a replica. -/
inductive Replica.Step
  /-- the replica loads itself, with what was fetched or without success -/
  | reload (outcome : Except Error Fetched)
  /-- a notice arrives -/
  | notice (event : Event)

open Replica (Step)

/-- The contents of a loaded replica after a step. -/
def Contents.step (consistency : BundleConsistency) (c : Contents) : Step → Contents
  | .reload (.ok fetched) => .ofFetched fetched
  | .reload (.error _) => c
  | .notice event => c.apply consistency event

/-- The contents of a replica that was loaded with something fetched and then took some steps. -/
def Contents.after (consistency : BundleConsistency) (fetched : Fetched) (steps : List Step) :
    Contents :=
  steps.foldl (Contents.step consistency) (.ofFetched fetched)

namespace Replica

variable {κ : Type}

/-- A replica after a step. -/
def step (r : Replica κ) : Step → Replica κ
  | .reload (.ok fetched) => r.replace (.ofFetched fetched)
  | .reload (.error _) => r
  | .notice event => (r.commit? event).getD r

/-- A replica after some steps. -/
def run (r : Replica κ) (steps : List Step) : Replica κ := steps.foldl step r

theorem run_append (r : Replica κ) (before after : List Step) :
    r.run (before ++ after) = (r.run before).run after :=
  List.foldl_append

/-- What comes before the first load counts for nothing. -/
theorem run_of_unloaded {r : Replica κ} (h : r.contents = none) (steps : List Step) :
    (r.run steps = r ∧ ∀ fetched, Step.reload (.ok fetched) ∉ steps) ∨
      ∃ before fetched after, steps = before ++ Step.reload (.ok fetched) :: after ∧
        r.run steps = r.run (.reload (.ok fetched) :: after) := by
  induction steps with
  | nil => exact .inl ⟨rfl, fun _ => List.not_mem_nil⟩
  | cons s steps ih =>
    have skipped (stays : r.step s = r) (fails : ∀ fetched, Step.reload (.ok fetched) ≠ s) :
        (r.run (s :: steps) = r ∧ ∀ fetched, Step.reload (.ok fetched) ∉ s :: steps) ∨
          ∃ before fetched after, s :: steps = before ++ Step.reload (.ok fetched) :: after ∧
            r.run (s :: steps) = r.run (.reload (.ok fetched) :: after) := by
      have rest : r.run (s :: steps) = r.run steps := by rw [run, List.foldl_cons, stays, run]
      rw [rest]
      rcases ih with ⟨same, never⟩ | ⟨before, fetched, after, rfl, eq⟩
      · refine .inl ⟨same, fun fetched mem => ?_⟩
        rcases List.mem_cons.mp mem with eq | mem
        · exact fails fetched eq
        · exact never fetched mem
      · exact .inr ⟨s :: before, fetched, after, rfl, eq⟩
    cases s with
    | reload outcome =>
      cases outcome with
      | error e => exact skipped rfl fun _ eq => nomatch eq
      | ok fetched => exact .inr ⟨[], fetched, steps, rfl, rfl⟩
    | notice event =>
      refine skipped ?_ fun _ eq => nomatch eq
      rw [step, commit?, h]
      rfl

@[simp] theorem config_step (r : Replica κ) (s : Step) : (r.step s).config = r.config := by
  cases s with
  | reload outcome => cases outcome <;> rfl
  | notice event =>
    rw [step, commit?]
    cases r.contents <;> rfl

/-- Once a replica is loaded, a step acts on its contents. -/
theorem contents_step {r : Replica κ} {c : Contents} (h : r.contents = some c) (s : Step) :
    (r.step s).contents = some (c.step r.config.bundleConsistency s) := by
  cases s with
  | reload outcome =>
    cases outcome with
    | error e => exact h
    | ok fetched => rfl
  | notice event =>
    rw [step, commit?, h]
    rfl

/-- Once a replica is loaded, so do steps in turn. -/
theorem contents_run {r : Replica κ} {c : Contents} (h : r.contents = some c)
    (steps : List Step) :
    (r.run steps).contents = some (steps.foldl (Contents.step r.config.bundleConsistency) c) := by
  induction steps generalizing r c with
  | nil => exact h
  | cons s steps ih =>
    rw [run, List.foldl_cons]
    have loaded := ih (contents_step h s)
    rwa [config_step] at loaded

/-- From a load on, a replica holds what the steps after it make of what was fetched. -/
theorem contents_loaded_run (r : Replica κ) (fetched : Fetched) (steps : List Step) :
    (r.run (.reload (.ok fetched) :: steps)).contents =
      some (Contents.after r.config.bundleConsistency fetched steps) := by
  have loaded : (r.step (.reload (.ok fetched))).contents = some (.ofFetched fetched) := rfl
  have h := contents_run loaded steps
  rwa [config_step] at h

/-- **A replica that was loaded answers from its contents**, whatever it was before. -/
theorem ask_run (r : Replica κ) (fetched : Fetched) (steps : List Step) (query : Query) :
    (r.run (.reload (.ok fetched) :: steps)).ask query =
      .ok ((Contents.after r.config.bundleConsistency fetched steps).answer query) := by
  rw [ask, contents_loaded_run]

end Replica

/-! ### Induction -/

namespace Contents

variable {consistency : BundleConsistency} {fetched : Fetched} {steps : List Step}

/-- **What a load establishes and a notice keeps holds after every run.** -/
theorem after_induction {P : Contents → Prop}
    (loaded : ∀ f, Step.reload (.ok f) ∈ Step.reload (.ok fetched) :: steps → P (.ofFetched f))
    (noticed : ∀ c event, Step.notice event ∈ steps → P c → P (c.apply consistency event)) :
    P (after consistency fetched steps) := by
  refine List.foldlRecOn steps _ (loaded fetched List.mem_cons_self) fun c h s hs => ?_
  cases s with
  | reload outcome =>
    cases outcome with
    | error e => exact h
    | ok f => exact loaded f (List.mem_cons_of_mem _ hs)
  | notice event => exact noticed c event hs h

/-- Where the same steps act on something else too, a relation between the two that a step keeps holds
after every run. -/
theorem after_rel {β : Type} {next : β → Step → β} {b : β} {R : Contents → β → Prop}
    (start : R (.ofFetched fetched) b)
    (kept : ∀ c b s, s ∈ steps → R c b → R (c.step consistency s) (next b s)) :
    R (after consistency fetched steps) (steps.foldl next b) :=
  List.foldl_rel start fun s hs c b => kept c b s hs

theorem after_append (consistency : BundleConsistency) (fetched : Fetched) (steps : List Step)
    (s : Step) :
    after consistency fetched (steps ++ [s]) = (after consistency fetched steps).step consistency s := by
  rw [after, List.foldl_append]
  rfl

theorem after_notices (consistency : BundleConsistency) (fetched : Fetched) (events : List Event) :
    after consistency fetched (events.map .notice) =
      events.foldl (Contents.apply consistency) (.ofFetched fetched) := by
  rw [after, List.foldl_map]
  rfl

end Contents

/-! ### Notices by subject -/

namespace Event

/-- The notice about a bundle that a notice is, if it is one. -/
def bundle? : Event → Option BundleEvent
  | .bundle event => some event
  | _ => none

/-- The notices about bundles among notices of all sorts, in their order. -/
def aboutBundles (events : List Event) : List BundleEvent := events.filterMap bundle?

end Event

namespace Contents

/-- Only the notices about bundles change the bundles. -/
theorem bundles_foldl (consistency : BundleConsistency) (c : Contents) (events : List Event) :
    (events.foldl (Contents.apply consistency) c).bundles =
      (Event.aboutBundles events).foldl (fun t e => t.apply consistency e) c.bundles := by
  induction events generalizing c with
  | nil => rfl
  | cons event events ih =>
    rw [List.foldl_cons, ih]
    cases event <;> rfl

/-- The bundles of a replica that was loaded are what the notices about bundles make of those that
were fetched. -/
theorem bundles_after_notices (consistency : BundleConsistency) (fetched : Fetched)
    (events : List Event) :
    (after consistency fetched (events.map .notice)).bundles =
      (Event.aboutBundles events).foldl (fun t e => t.apply consistency e)
        (.ofCollected (.ofList fetched.bundles)) := by
  rw [after_notices, bundles_foldl]
  rfl

end Contents

end StateReplica
