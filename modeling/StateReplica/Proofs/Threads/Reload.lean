import StateReplica.Proofs.Threads.Turns

/-!
Notices that arrive while a replica is loaded. They wait until the load has come to its end, and are
then applied to what it has left, in the order in which they obtain the writer. So none is
overwritten by what was fetched before it arrived, and none is lost where the load fails.
-/

namespace StateReplica.Threads

open Replica (Step)

variable {κ : Type}

def Task.event? : Task → Option Event
  | .reload _ => none
  | .apply event => some event

/-- Tasks that are some notices in another order. -/
theorem exists_order {tasks others : List Task} {events : List Event}
    (h : (tasks ++ others).Perm (events.map .apply)) :
    ∃ order, tasks = order.map .apply ∧ (order ++ others.filterMap Task.event?).Perm events := by
  have all (es : List Event) : (es.map Task.apply).filterMap Task.event? = es := by
    rw [List.filterMap_map]
    exact List.filterMap_some
  refine ⟨tasks.filterMap Task.event?, ?_, ?_⟩
  · have notices : ∀ task ∈ tasks, ∃ event, task = .apply event := by
      intro task mem
      obtain ⟨event, -, eq⟩ := List.mem_map.mp (h.mem_iff.mp (List.mem_append_left others mem))
      exact ⟨event, eq.symm⟩
    clear h
    induction tasks with
    | nil => rfl
    | cons task tasks ih =>
      obtain ⟨event, rfl⟩ := notices task List.mem_cons_self
      have rest := ih fun t mem => notices t (List.mem_cons_of_mem _ mem)
      rw [List.filterMap_cons, Task.event?, List.map_cons, ← rest]
  · have perm := h.filterMap Task.event?
    rwa [List.filterMap_append, all] at perm

namespace System

variable {r : Replica κ} {client : Client} {events : List Event} {moves : List (Move κ)}
  {sys : System κ}

/-- The load has its turn first, and after it come notices that have arrived. -/
theorem exists_turns (arrived : arrivals moves = events.map .apply)
    (reached : (begun r (.reload client)).run moves = some sys) :
    ∃ order, sys.turns = .reload client :: order.map .apply ∧
      (order ++ sys.waiting.filterMap Task.event?).Perm events := by
  obtain ⟨rest, turns⟩ := turns_of_run reached
  have perm := perm_of_run reached
  rw [← turns, arrived] at perm
  have others : (rest ++ sys.waiting).Perm (events.map .apply) := List.perm_cons _ |>.mp perm
  obtain ⟨order, rfl, arranged⟩ := exists_order others
  exact ⟨order, turns.symm, arranged⟩

/-- Nothing is changed before new contents are put in place. -/
theorem bare_before_swap (arrived : arrivals moves = events.map .apply)
    (reached : (begun r (.reload client)).run moves = some sys) {stage : Stage}
    (holder : sys.writer = some (.reload client, stage)) (before : stage.isBeforeSwap = true) :
    sys.replica.bare = r.bare := by
  have order := InTurn.of_run reached
  obtain ⟨notices, turns, -⟩ := exists_turns arrived reached
  have nobody : sys.settled = [] := by
    have taken := order.turns
    rw [turns, holder] at taken
    -- had somebody been before, the load would be one of the notices
    cases settled : sys.settled with
    | nil => rfl
    | cons thread others =>
      rw [settled, List.map_cons, List.cons_append] at taken
      have later : Task.reload client ∈ notices.map Task.apply := by
        rw [(List.cons.inj taken).2]
        exact List.mem_append_right _ List.mem_cons_self
      obtain ⟨event, -, eq⟩ := List.mem_map.mp later
      cases eq
  have held : Reached r sys.replica (.reload client) stage := by
    have reached := order.held holder
    rwa [steps, nobody] at reached
  cases held with
  | framework same | bundles same | configurations same | swap same => exact same
  | count => cases before
  | release given done =>
    cases fetched : client.fetched r.config.configurationFilter with
    | error e =>
      rw [Task.step, fetched] at done
      exact done
    | ok f =>
      rw [Task.step, fetched] at given
      rw [given] at before
      cases before

/-- A system at rest is where the load and after it the notices lead one by one. -/
theorem rest_of_run (reached : (begun r (.reload client)).run moves = some sys) (rest : sys.AtRest)
    {order : List Event} (turns : sys.turns = .reload client :: order.map .apply) :
    let load := Step.reload (client.fetched r.config.configurationFilter)
    let loaded := r.step load
    sys.replica.contents = (loaded.contents.map fun c =>
        order.foldl (Contents.apply loaded.config.bundleConsistency) c) ∧
      sys.replica.generation =
        (if loaded.isLoaded then loaded.generation + .ofNat order.length else loaded.generation) ∧
      sys.settled.map (·.outcome) =
        r.outcome load :: order.map fun _ => .applied loaded.isLoaded := by
  intro load loaded
  have inTurn := InTurn.of_run reached
  have steps : sys.steps r.config.configurationFilter = load :: order.map .notice := by
    have all := (inTurn.turns_of_rest rest).symm.trans turns
    have mapped := congrArg (List.map (Task.step r.config.configurationFilter)) all
    rw [List.map_map, List.map_cons, List.map_map] at mapped
    exact mapped
  have bare : sys.replica.bare = (loaded.run (order.map .notice)).bare := by
    rw [inTurn.free rest.writer, steps]
    rfl
  refine ⟨?_, ?_, ?_⟩
  · rw [← Replica.contents_notices]
    exact (congrArg Replica.contents bare :)
  · rw [← Replica.generation_notices]
    exact (congrArg Replica.generation bare :)
  · rw [inTurn.outcomes, steps, Replica.outcomes, Replica.outcomes_notices]

end System

/-- **Notices wait for a load.** A load has obtained the writer, some notices arrive at any time
after that, and whatever moves are made then:

until new contents are put in place, the replica is as it was before, so that all questions are
answered in the same way;

everybody can be brought to an end;

and at the end it is as if the tasks had been performed one after the other, in the order in which
they obtained the writer. The notices have been applied, each of them once, to what was fetched, and
all of them counted; or, where the load failed, to what was there before, and all of them or none
counted, as the replica was loaded or not. -/
theorem events_wait_for_reload (r : Replica κ) (client : Client) (events : List Event)
    (moves : List (Move κ)) (sys : System κ) (arrived : arrivals moves = events.map .apply)
    (reached : (System.begun r (.reload client)).run moves = some sys) :
    (∀ stage, sys.writer = some (.reload client, stage) → stage.isBeforeSwap = true →
      sys.replica.bare = r.bare ∧ ∀ query, sys.replica.ask query = r.ask query) ∧
    (∃ more final, arrivals more = [] ∧ sys.run more = some final ∧ final.AtRest) ∧
    (sys.AtRest → ∃ order : List Event,
      order.Perm events ∧ sys.turns = .reload client :: order.map .apply ∧
      (∀ ending, sys.replica.bare = (Task.performAll ending r sys.turns).bare) ∧
      match client.fetched r.config.configurationFilter with
      | .ok fetched =>
        sys.replica.contents =
          some (order.foldl (Contents.apply r.config.bundleConsistency) (.ofFetched fetched)) ∧
        sys.replica.generation = r.generation + 1 + .ofNat order.length ∧
        sys.settled.map (·.outcome) = .reloaded (.ok ()) :: order.map fun _ => .applied true
      | .error e =>
        sys.replica.contents =
          (r.contents.map fun c => order.foldl (Contents.apply r.config.bundleConsistency) c) ∧
        sys.replica.generation =
          (if r.isLoaded then r.generation + .ofNat order.length else r.generation) ∧
        sys.settled.map (·.outcome) =
          .reloaded (.error e) :: order.map fun _ => .applied r.isLoaded) := by
  refine ⟨fun stage holder before => ?_, sys.exists_rest, fun rest => ?_⟩
  · have same := System.bare_before_swap arrived reached holder before
    have contents : sys.replica.contents = r.contents := (congrArg Replica.contents same :)
    refine ⟨same, fun query => ?_⟩
    rw [Replica.ask, Replica.ask, contents]
  · obtain ⟨order, turns, arranged⟩ := System.exists_turns arrived reached
    rw [rest.waiting, List.filterMap_nil, List.append_nil] at arranged
    have ended := System.rest_of_run reached rest turns
    refine ⟨order, arranged, turns, System.serial reached rest, ?_⟩
    cases fetched : client.fetched r.config.configurationFilter with
    | ok given =>
      rw [fetched] at ended
      exact ended
    | error e =>
      rw [fetched] at ended
      exact ended

/-- So it is where the second of two notices obtains the writer before the first. -/
theorem events_wait_for_reload_overtaken :
    let client : Client := ⟨.ok .blank, .ok [], fun _ => .ok []⟩
    let first : Event := .bundle (.uninstalled 7)
    let second : Event := .framework ⟨.blank⟩
    let moves : List (Move Unit) := [.work, .arrive (.apply first), .work, .arrive (.apply second),
      .work, .work, .work, .work, .take 1, .work, .tell 0, .work, .work, .take 0, .work, .work, .work,
      .tell 2, .tell 1]
    ∃ sys, (System.begun default (.reload client)).run moves = some sys ∧
      arrivals moves = [first, second].map .apply ∧ sys.AtRest ∧
      sys.turns = [.reload client, .apply second, .apply first] ∧
      sys.replica.generation = 3 := by
  intro client first second moves
  obtain ⟨sys, reached⟩ : ∃ sys, (System.begun default (.reload client)).run moves = some sys :=
    ⟨_, rfl⟩
  have arrived : arrivals moves = [first, second].map .apply := rfl
  have rest : sys.AtRest := by
    have told : sys.settled.all (·.told) = true := by
      cases reached
      rfl
    refine ⟨?_, ?_, fun thread mem => List.all_eq_true.mp told thread mem⟩
    · cases reached
      rfl
    · cases reached
      rfl
  obtain ⟨-, -, ending⟩ :=
    events_wait_for_reload default client [first, second] moves sys arrived reached
  obtain ⟨order, arranged, turns, _, _, generation, _⟩ := ending rest
  refine ⟨sys, reached, arrived, rest, ?_, ?_⟩
  · cases reached
    rfl
  · rw [generation, arranged.length_eq]
    rfl

end StateReplica.Threads
