import Mathlib.Data.List.Perm.Basic
import StateReplica.Proofs.Threads.Basic

/-!
Turns. Threads that load a replica and apply notices at the same time come to the same as one that
does so task by task, in the order in which they obtain the writer (`System.InTurn.of_run`). No task
is lost or done twice (`System.perm_of_run`), and all of them can always be brought to an end
(`System.exists_rest`).

The contents change while the writer is held. So what is kept from move to move is that the replica
stands after the steps of those who have released it, with the part that its holder has done.
-/

namespace StateReplica.Threads

open Replica (Step)

variable {κ : Type}

/-! ### What a move does -/

namespace System

/-- What a move makes of a system, for each way in which it is possible. -/
inductive Moved (sys : System κ) : Move κ → System κ → Prop
  | arrive (task : Task) : Moved sys (.arrive task) { sys with waiting := sys.waiting ++ [task] }
  | take {k : Nat} {task : Task} (free : sys.writer = none) (next : sys.waiting[k]? = some task) :
    Moved sys (.take k) (sys.take task (sys.waiting.eraseIdx k))
  | release {task : Task} {outcome : Outcome}
      (holder : sys.writer = some (task, .release outcome)) :
    Moved sys .work (sys.release task outcome)
  | work {task : Task} {stage : Stage} (holder : sys.writer = some (task, stage))
    (busy : ∀ outcome, stage ≠ .release outcome) : Moved sys .work (sys.work task stage)
  | tell {k : Nat} {task : Task} {outcome : Outcome}
    (thread : sys.settled[k]? = some ⟨task, outcome, false⟩) :
    Moved sys (.tell k) (sys.tell k ⟨task, outcome, false⟩)
  | enrol (change : Registry.Change κ) : Moved sys (.enrol change)
    { sys with replica := { sys.replica with listeners := sys.replica.listeners.change change } }

theorem moved_iff {sys sys' : System κ} {m : Move κ} :
    sys.move m = some sys' ↔ sys.Moved m sys' := by
  constructor
  · intro h
    cases m with
    | arrive task =>
      cases h
      exact .arrive task
    | take k =>
      simp only [move] at h
      split at h
      next free next =>
        cases h
        exact .take free next
      next => cases h
    | work =>
      simp only [move] at h
      split at h
      next => cases h
      next holder =>
        cases h
        exact .release holder
      next task stage busy holder =>
        cases h
        exact .work holder fun outcome eq => busy outcome eq
    | tell k =>
      simp only [move] at h
      split at h
      next thread =>
        cases h
        exact .tell thread
      next => cases h
    | enrol change =>
      cases h
      exact .enrol change
  · intro h
    cases h with
    | arrive | enrol => rfl
    | take free next => simp only [move, free, next]
    | release holder => simp only [move, holder]
    | @work task stage holder busy =>
      cases stage with
      | release outcome => exact absurd rfl (busy outcome)
      | _ => simp only [move, holder]
    | tell thread => simp only [move, thread]

/-- A property that every move keeps holds after every run. -/
theorem run_induction {P : System κ → Prop}
    (kept : ∀ {sys m sys'}, sys.Moved m sys' → P sys → P sys') {sys sys' : System κ}
    {moves : List (Move κ)} (reached : sys.run moves = some sys') (h : P sys) :
    P sys' := by
  induction moves generalizing sys with
  | nil =>
    cases reached
    exact h
  | cons m moves ih =>
    obtain ⟨next, moved, rest⟩ := Option.bind_eq_some_iff.mp reached
    exact ih rest (kept (moved_iff.mp moved) h)

end System

/-! ### The holder of the writer -/

/-- How far the holder of the writer has got with its task, from the replica as it was before to the
replica as it is now. -/
inductive Reached (before now : Replica κ) : Task → Stage → Prop
  | framework {client : Client} (same : now.bare = before.bare) :
    Reached before now (.reload client) (.framework client)
  | bundles {client : Client} {f : FrameworkDescriptor} (same : now.bare = before.bare)
    (framework : client.framework = .ok f) : Reached before now (.reload client) (.bundles client f)
  | configurations {client : Client} {f : FrameworkDescriptor} {bs : List BundleRecord}
    (same : now.bare = before.bare) (framework : client.framework = .ok f)
    (bundles : client.bundles = .ok bs) :
    Reached before now (.reload client) (.configurations client f bs)
  | swap {client : Client} {fetched : Fetched} (same : now.bare = before.bare)
    (all : client.fetched before.config.configurationFilter = .ok fetched) :
    Reached before now (.reload client) (.swap fetched)
  | mutate {event : Event} (same : now.bare = before.bare) :
    Reached before now (.apply event) (.mutate event)
  | count {task : Task} {outcome : Outcome}
    (given : outcome = before.outcome (task.step before.config.configurationFilter))
    (done : { now.bare with generation := now.bare.generation + 1 } =
      (before.step (task.step before.config.configurationFilter)).bare) :
    Reached before now task (.count outcome)
  | release {task : Task} {outcome : Outcome}
    (given : outcome = before.outcome (task.step before.config.configurationFilter))
    (done : now.bare = (before.step (task.step before.config.configurationFilter)).bare) :
    Reached before now task (.release outcome)

namespace Reached

variable {before now : Replica κ} {task : Task} {stage : Stage}

theorem start (task : Task) (same : now.bare = before.bare) :
    Reached before now task task.start := by
  cases task with
  | reload client => exact .framework same
  | apply event => exact .mutate same

/-- Listeners make no difference to how far the holder has got. -/
theorem congr {now' : Replica κ} (h : Reached before now task stage) (eq : now'.bare = now.bare) :
    Reached before now' task stage := by
  cases h with
  | framework same => exact .framework (eq.trans same)
  | bundles same framework => exact .bundles (eq.trans same) framework
  | configurations same framework bundles => exact .configurations (eq.trans same) framework bundles
  | swap same all => exact .swap (eq.trans same) all
  | mutate same => exact .mutate (eq.trans same)
  | count given done => exact .count given (by rw [eq]; exact done)
  | release given done => exact .release given (eq.trans done)

/-- With an answer of the server the load goes on, and with an error it comes to its end. -/
theorem answered {α : Type} {client : Client} {answer : Except Error α} {next : α → Stage}
    (same : now.bare = before.bare)
    (failed : ∀ e, answer = .error e →
      client.fetched before.config.configurationFilter = .error e)
    (goes : ∀ a, answer = .ok a → Reached before now (.reload client) (next a)) :
    Reached before now (.reload client) (Stage.answered answer next) := by
  cases given : answer with
  | ok a => exact goes a given
  | error e =>
    have nothing := failed e given
    refine .release ?_ ?_
    · rw [Task.step, nothing]
      rfl
    · rw [Task.step, nothing]
      exact same

theorem mutated {event : Event} (same : now.bare = before.bare) :
    Reached before ((Stage.mutate event).work now).1 (.apply event)
      ((Stage.mutate event).work now).2 := by
  have contents : now.contents = before.contents := (congrArg Replica.contents same :)
  cases loaded : now.contents with
  | none =>
    simp only [Stage.work, loaded]
    rw [loaded] at contents
    refine .release ?_ ?_
    · rw [Task.step, Replica.outcome, Replica.isLoaded, ← contents]
      rfl
    · rw [Task.step, Replica.step, Replica.commit?, ← contents]
      exact same
  | some c =>
    simp only [Stage.work, loaded]
    rw [loaded] at contents
    refine .count ?_ ?_
    · rw [Task.step, Replica.outcome, Replica.isLoaded, ← contents]
      rfl
    · rw [Task.step, Replica.bare_step, ← same, Replica.step, Replica.commit?]
      show _ = ((now.contents.map _).getD now.bare)
      rw [loaded]
      rfl

/-- **The holder gets on with its task.** -/
theorem work (h : Reached before now task stage) :
    Reached before (stage.work now).1 task (stage.work now).2 := by
  cases h with
  | @framework client same =>
    refine .answered same (fun e error => ?_) fun f given => .bundles same given
    rw [Client.fetched, error]
    rfl
  | @bundles client f same framework =>
    refine .answered same (fun e error => ?_) fun bs given => .configurations same framework given
    rw [Client.fetched, framework, error]
    rfl
  | @configurations client f bs same framework bundles =>
    have config : now.config = before.config := (congrArg Replica.config same :)
    refine .answered same (fun e error => ?_) fun cs given => .swap same ?_
    · rw [Client.fetched, framework, bundles, ← config, error]
      rfl
    · rw [Client.fetched, framework, bundles, ← config, given]
      rfl
  | @swap client fetched same all =>
    refine .count ?_ ?_
    · rw [Task.step, all]
      rfl
    · rw [Task.step, all, Replica.bare_step, ← same]
      rfl
  | mutate same => exact mutated same
  | count given done => exact .release given done
  | release given done => exact .release given done

end Reached

/-! ### The order of turns -/

namespace System

/-- The steps of the threads that have released the writer, in order. -/
def steps (filter : Option String) (sys : System κ) : List Step :=
  sys.settled.map fun thread => thread.task.step filter

/-- Telling the listeners changes nothing but that they were told. -/
theorem map_tell {α : Type} (sys : System κ) {k : Nat} {task : Task} {outcome : Outcome}
    (thread : sys.settled[k]? = some ⟨task, outcome, false⟩) (f : Settled → α)
    (keeps : f ⟨task, outcome, true⟩ = f ⟨task, outcome, false⟩) :
    (sys.tell k ⟨task, outcome, false⟩).settled.map f = sys.settled.map f := by
  obtain ⟨hk, eq⟩ := List.getElem?_eq_some_iff.mp thread
  have bound : k < (sys.settled.map f).length := by rwa [List.length_map]
  have there : f ⟨task, outcome, false⟩ = (sys.settled.map f)[k] := by rw [List.getElem_map, eq]
  rw [tell, List.map_set, keeps, there, List.set_getElem_self]

/-- The replica stands after the steps of those who have released the writer, with what its holder
has done so far. -/
structure InTurn (r : Replica κ) (sys : System κ) : Prop where
  turns : sys.turns = sys.settled.map (·.task) ++ (sys.writer.map Prod.fst).toList
  outcomes : sys.settled.map (·.outcome) = r.outcomes (sys.steps r.config.configurationFilter)
  free : sys.writer = none →
    sys.replica.bare = (r.run (sys.steps r.config.configurationFilter)).bare
  held {task : Task} {stage : Stage} : sys.writer = some (task, stage) →
    Reached (r.run (sys.steps r.config.configurationFilter)) sys.replica task stage

namespace InTurn

variable {r : Replica κ} {sys sys' : System κ}

theorem start (r : Replica κ) (task : Task) : InTurn r (begun r task) where
  turns := rfl
  outcomes := rfl
  free h := nomatch h
  held h := by
    cases h
    exact .start task rfl

/-- **A move keeps the order.** -/
theorem moved (h : InTurn r sys) {m : Move κ} (moved : sys.Moved m sys') : InTurn r sys' := by
  cases moved with
  | arrive task => exact ⟨h.turns, h.outcomes, h.free, h.held⟩
  | @take k task free next =>
    refine ⟨?_, h.outcomes, fun h' => (nomatch h'), fun h' => ?_⟩
    · show sys.turns ++ [task] = _
      rw [h.turns, free, Option.map_none, Option.toList_none, List.append_nil]
      rfl
    · cases h'
      exact .start task (h.free free)
  | @release task outcome holder =>
    have reached := h.held holder
    cases reached with
    | release given done =>
      rw [Replica.config_run] at given done
      have steps : (sys.release task outcome).steps r.config.configurationFilter =
          sys.steps r.config.configurationFilter ++ [task.step r.config.configurationFilter] :=
        List.map_append
      refine ⟨?_, ?_, fun _ => ?_, fun h' => nomatch h'⟩
      · show sys.turns = _
        rw [h.turns, holder, release, List.map_append]
        exact (List.append_nil _).symm
      · rw [steps, Replica.outcomes_append, ← h.outcomes, release, List.map_append, given]
        rfl
      · rw [steps, Replica.run_append]
        exact done
  | @work task stage holder busy =>
    refine ⟨?_, h.outcomes, fun h' => (nomatch h'), fun h' => ?_⟩
    · show sys.turns = _
      rw [h.turns, holder]
      rfl
    · cases h'
      exact (h.held holder).work
  | tell thread =>
    have same {α : Type} (f : Settled → α) := sys.map_tell thread f
    refine ⟨?_, ?_, ?_, ?_⟩
    · rw [same _ rfl]
      exact h.turns
    · rw [same _ rfl, steps, same _ rfl]
      exact h.outcomes
    · rw [steps, same _ rfl]
      exact h.free
    · rw [steps, same _ rfl]
      exact h.held
  | enrol change => exact ⟨h.turns, h.outcomes, h.free, fun h' => (h.held h').congr rfl⟩

/-- **All that happens comes to the steps of the tasks in the order of their turns.** -/
theorem of_run {task : Task} {moves : List (Move κ)}
    (reached : (begun r task).run moves = some sys) :
    InTurn r sys :=
  run_induction (fun moved h => h.moved moved) reached (start r task)

/-- Where all have come to an end, those who had their turns are those who have released the
writer. -/
theorem turns_of_rest (h : InTurn r sys) (rest : sys.AtRest) :
    sys.turns = sys.settled.map (·.task) := by
  rw [h.turns, rest.writer]
  exact List.append_nil _

end InTurn

/-- **Threads that have all come to an end have done the same as one that performs their tasks in
turn**, each of them alone. -/
theorem serial {r : Replica κ} {sys : System κ} {task : Task} {moves : List (Move κ)}
    (reached : (begun r task).run moves = some sys) (rest : sys.AtRest) (ending : κ → CallResult) :
    sys.replica.bare = (Task.performAll ending r sys.turns).bare := by
  have inTurn := InTurn.of_run reached
  rw [inTurn.free rest.writer, Task.performAll_bare, inTurn.turns_of_rest rest, List.map_map]
  rfl

/-! ### No task is lost -/

theorem Moved.perm {sys sys' : System κ} {m : Move κ} (moved : sys.Moved m sys') :
    (sys'.turns ++ sys'.waiting).Perm (sys.turns ++ sys.waiting ++ m.arrival?.toList) := by
  cases moved with
  | arrive task => exact .of_eq (List.append_assoc _ _ _).symm
  | @take k task free next =>
    obtain ⟨hk, rfl⟩ := List.getElem?_eq_some_iff.mp next
    have waiting : (sys.waiting[k] :: sys.waiting.eraseIdx k).Perm sys.waiting :=
      List.getElem_cons_eraseIdx_perm hk
    show (sys.turns ++ [sys.waiting[k]] ++ sys.waiting.eraseIdx k).Perm
      (sys.turns ++ sys.waiting ++ [])
    rw [List.append_assoc, List.append_nil]
    exact waiting.append_left _
  | release | work | tell | enrol => exact .of_eq (List.append_nil _).symm

/-- **Whoever arrives waits or has obtained the writer**, and does so once. -/
theorem perm_of_run {sys sys' : System κ} {moves : List (Move κ)}
    (reached : sys.run moves = some sys') :
    (sys'.turns ++ sys'.waiting).Perm (sys.turns ++ sys.waiting ++ arrivals moves) := by
  induction moves generalizing sys with
  | nil =>
    cases reached
    exact .of_eq (List.append_nil _).symm
  | cons m moves ih =>
    obtain ⟨next, moved, rest⟩ := Option.bind_eq_some_iff.mp reached
    have first := (moved_iff.mp moved).perm.append_right (arrivals moves)
    have all : arrivals (m :: moves) = m.arrival?.toList ++ arrivals moves := by
      cases m <;> rfl
    rw [all, ← List.append_assoc]
    exact (ih rest).trans first

/-- Turns that were taken stay taken. -/
theorem turns_of_run {sys sys' : System κ} {moves : List (Move κ)}
    (reached : sys.run moves = some sys') :
    sys.turns <+: sys'.turns := by
  refine run_induction (P := fun t => sys.turns <+: t.turns) ?_ reached (List.prefix_refl _)
  intro before m after moved h
  cases moved with
  | take => exact h.trans (List.prefix_append _ _)
  | arrive | release | work | tell | enrol => exact h

end System

/-! ### Everybody comes to an end -/

/-- How much the holder of the writer has before it. -/
def Stage.ahead : Stage → Nat
  | .framework _ => 6
  | .bundles _ _ => 5
  | .configurations _ _ _ => 4
  | .swap _ | .mutate _ => 3
  | .count _ => 2
  | .release _ => 1

theorem Task.start_ahead (task : Task) : task.start.ahead ≤ 6 := by
  cases task with
  | reload client => exact Nat.le_refl 6
  | apply event => exact (by decide : 3 ≤ 6)

theorem Stage.answered_ahead {α : Type} (answer : Except Error α) {next : α → Stage} {n : Nat}
    (ahead : ∀ a, (next a).ahead < n) (some : 1 < n) : (answered answer next).ahead < n := by
  cases answer with
  | error e => exact some
  | ok a => exact ahead a

/-- The holder gets nearer to the end. -/
theorem Stage.work_ahead (r : Replica κ) {stage : Stage}
    (busy : ∀ outcome, stage ≠ .release outcome) :
    (stage.work r).2.ahead < stage.ahead := by
  cases stage with
  | framework client => exact answered_ahead (n := 6) _ (fun _ => (by decide : 5 < 6)) (by decide)
  | bundles client f => exact answered_ahead (n := 5) _ (fun _ => (by decide : 4 < 5)) (by decide)
  | configurations client f bs =>
    exact answered_ahead (n := 4) _ (fun _ => (by decide : 3 < 4)) (by decide)
  | swap fetched => exact (by decide : 2 < 3)
  | mutate event =>
    rw [work]
    cases r.contents with
    | none => exact (by decide : 1 < 3)
    | some c => exact (by decide : 2 < 3)
  | count outcome => exact (by decide : 1 < 2)
  | release outcome => exact absurd rfl (busy outcome)

namespace System

/-- How much all threads have before them. -/
def ahead (sys : System κ) : Nat :=
  8 * sys.waiting.length + (sys.writer.elim 0 fun holder => holder.2.ahead + 1) +
    sys.settled.countP (!·.told)

theorem ahead_release (sys : System κ) {task : Task} {outcome : Outcome}
    (holder : sys.writer = some (task, .release outcome)) :
    (sys.release task outcome).ahead < sys.ahead := by
  have one : [(⟨task, outcome, !outcome.counts⟩ : Settled)].countP (!·.told) ≤ 1 :=
    List.countP_le_length
  simp only [ahead, release, holder, Option.elim, Stage.ahead, List.countP_append]
  omega

theorem ahead_tell (sys : System κ) {k : Nat} {task : Task} {outcome : Outcome}
    (thread : sys.settled[k]? = some ⟨task, outcome, false⟩) :
    (sys.tell k ⟨task, outcome, false⟩).ahead < sys.ahead := by
  obtain ⟨hk, eq⟩ := List.getElem?_eq_some_iff.mp thread
  have untold : 0 < sys.settled.countP (!·.told) :=
    List.countP_pos_iff.mpr ⟨_, List.getElem_mem hk, by rw [eq]; rfl⟩
  have less : (sys.settled.set k ⟨task, outcome, true⟩).countP (!·.told) =
      sys.settled.countP (!·.told) - 1 := by
    rw [List.countP_set hk, eq]
    rfl
  simp only [ahead, tell, less]
  omega

/-- Where somebody is not done, somebody can get on. -/
theorem exists_move {sys : System κ} (busy : ¬ sys.AtRest) :
    ∃ m sys', sys.Moved m sys' ∧ m.arrival? = none ∧ sys'.ahead < sys.ahead := by
  cases holder : sys.writer with
  | some held =>
    obtain ⟨task, stage⟩ := held
    by_cases ends : ∃ outcome, stage = .release outcome
    · obtain ⟨outcome, rfl⟩ := ends
      exact ⟨.work, _, .release holder, rfl, sys.ahead_release holder⟩
    · have working : ∀ outcome, stage ≠ .release outcome := fun outcome eq => ends ⟨outcome, eq⟩
      have nearer := stage.work_ahead sys.replica working
      refine ⟨.work, _, .work holder working, rfl, ?_⟩
      simp only [ahead, work, holder, Option.elim]
      omega
  | none =>
    cases waits : sys.waiting with
    | cons task others =>
      have next : sys.waiting[0]? = some task := by rw [waits]; rfl
      have start := task.start_ahead
      refine ⟨.take 0, _, .take holder next, rfl, ?_⟩
      simp only [ahead, take, waits, holder, Option.elim, List.eraseIdx_zero, List.tail_cons,
        List.length_cons]
      omega
    | nil =>
      cases untold : sys.settled.find? (!·.told) with
      | none =>
        refine absurd ⟨waits, holder, fun thread mem => ?_⟩ busy
        have told := List.find?_eq_none.mp untold thread mem
        simpa using told
      | some thread =>
        obtain ⟨task, outcome, told⟩ := thread
        obtain ⟨k, at_k⟩ := List.getElem?_of_mem (List.mem_of_find?_eq_some untold)
        have false_told := List.find?_some untold
        cases told with
        | true => cases false_told
        | false => exact ⟨.tell k, _, .tell at_k, rfl, sys.ahead_tell at_k⟩

/-- **Everybody can be brought to an end**, whatever has happened so far. -/
theorem exists_rest (sys : System κ) :
    ∃ moves final, arrivals moves = [] ∧ sys.run moves = some final ∧ final.AtRest := by
  induction left : sys.ahead using Nat.strongRecOn generalizing sys with
  | ind n ih =>
    by_cases rest : sys.AtRest
    · exact ⟨[], sys, rfl, rfl, rest⟩
    · obtain ⟨m, next, moved, noArrival, less⟩ := exists_move rest
      obtain ⟨moves, final, none, reached, done⟩ := ih _ (left ▸ less) next rfl
      refine ⟨m :: moves, final, ?_, ?_, done⟩
      · rw [arrivals, List.filterMap_cons, noArrival]
        exact none
      · exact Option.bind_eq_some_iff.mpr ⟨next, moved_iff.mpr moved, reached⟩

end System

end StateReplica.Threads
