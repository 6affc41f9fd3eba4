import StateReplica.Proofs.Replica.Runs
import StateReplica.Replica.Operations

/-!
What a replica does among its surroundings comes to steps. A load is a step with its outcome, and a
notice that is applied is a step, each with what others do to the replica meanwhile: the server while
it is asked and the listeners while they are called may perform steps of their own (`reload_run`,
`apply_run`). Where they do not, each is exactly one step. So what is said of runs is said of these.

The listeners are left out of the comparison, as those who are called may come and go.
-/

namespace StateReplica

open Replica (Step)

/-- What holds of the calls of a round and of the entries in the log, and is passed on from one action to
the next, holds of the round. -/
theorem callAll_induction {κ : Type} {m : Type → Type} [Monad m] {P : {α : Type} → m α → Prop}
    {call : κ → m CallResult} {log : LogEntry → m Unit} (hc : ∀ k, P (call k))
    (hl : ∀ entry, P (log entry)) (pure : ∀ {α : Type} (a : α), P (Pure.pure a))
    (bind : ∀ {α β : Type} {x : m α} {f : α → m β}, P x → (∀ a, P (f a)) → P (x >>= f))
    (round : List (ListenerId × Listener κ)) : P (callAll call log round) := by
  induction round with
  | nil => exact pure 0
  | cons entry rest ih =>
    obtain ⟨id, listener⟩ := entry
    refine bind (hl _) fun _ => bind (hc listener.callee) fun result => ?_
    cases result with
    | done => exact ih
    | failed error => exact bind (hl _) fun _ => bind ih fun _ => pure _
    | panicked => exact bind (hl _) fun _ => bind ih fun _ => pure _

namespace Replica

variable {κ : Type}

/-- A replica without its listeners. -/
def bare (r : Replica κ) : Replica κ := { r with listeners := .empty }

/-- Listeners make no difference to a step. -/
theorem bare_step (r : Replica κ) (s : Step) : (r.step s).bare = r.bare.step s := by
  cases s with
  | reload outcome => cases outcome <;> rfl
  | notice event =>
    obtain ⟨config, contents, generation, listeners⟩ := r
    cases contents <;> rfl

end Replica

namespace Surroundings

variable {σ κ : Type}

/-! ### Actions that take a replica through steps -/

theorem run_bind {α β : Type} (x : StateM σ α) (f : α → StateM σ β) (s : σ) :
    (x >>= f).run s = (f (x.run s).1).run (x.run s).2 := rfl

section Commits

variable (around : Surroundings (StateM σ) κ)

/-- The replica as it is in a state of the world. -/
def now (s : σ) : Replica κ := (around.get.run s).1

/-- An action takes the replica through steps of some kind, one after the other. -/
def Commits {α : Type} (allowed : Step → Prop) (x : StateM σ α) : Prop :=
  ∀ s, ∃ steps, (∀ t ∈ steps, allowed t) ∧
    (around.now (x.run s).2).bare = (around.now s).bare.run steps

variable {around} {α β : Type} {allowed : Step → Prop}

/-- An action that leaves the replica alone commits nothing. -/
theorem Commits.of_same {x : StateM σ α}
    (h : ∀ s, (around.now (x.run s).2).bare = (around.now s).bare) : around.Commits allowed x :=
  fun s => ⟨[], fun _ ht => (nomatch ht), h s⟩

theorem Commits.pure (a : α) : around.Commits allowed (Pure.pure a) := .of_same fun _ => rfl

/-- One action after the other takes the steps of both. -/
theorem Commits.bind {x : StateM σ α} {f : α → StateM σ β} (hx : around.Commits allowed x)
    (hf : ∀ a, around.Commits allowed (f a)) : around.Commits allowed (x >>= f) := by
  intro s
  obtain ⟨before, hbefore, eq⟩ := hx s
  obtain ⟨after, hafter, eq'⟩ := hf (x.run s).1 (x.run s).2
  refine ⟨before ++ after, fun t ht => ?_, ?_⟩
  · rcases List.mem_append.mp ht with ht | ht
    · exact hbefore t ht
    · exact hafter t ht
  · rw [Replica.run_append, ← eq, ← eq']
    rfl

end Commits

/-! ### Surroundings in order -/

/-- Surroundings where a replica is what it was set to last, the log leaves it alone, and the others
take it through steps of some kind. -/
structure Orderly (around : Surroundings (StateM σ) κ) (allowed : Step → Prop) : Prop where
  get_run (s : σ) : (around.get.run s).2 = s
  now_set (r : Replica κ) (s : σ) : around.now ((around.set r).run s).2 = r
  log (entry : LogEntry) (s : σ) :
    (around.now ((around.log entry).run s).2).bare = (around.now s).bare
  framework : around.Commits allowed around.framework
  bundles : around.Commits allowed around.bundles
  configurations (filter : Option String) : around.Commits allowed (around.configurations filter)
  call (k : κ) : around.Commits allowed (around.call k)

namespace Orderly

variable {around : Surroundings (StateM σ) κ} {allowed : Step → Prop}

theorem run_get_bind (h : around.Orderly allowed) {α : Type} (f : Replica κ → StateM σ α) (s : σ) :
    (around.get >>= f).run s = (f (around.now s)).run s := by
  rw [run_bind, h.get_run]
  rfl

theorem commits_get (h : around.Orderly allowed) : around.Commits allowed around.get :=
  .of_same fun s => by rw [h.get_run]

theorem commits_log (h : around.Orderly allowed) (entry : LogEntry) :
    around.Commits allowed (around.log entry) :=
  .of_same (h.log entry)

/-- Asking the server takes the steps that the server takes. -/
theorem commits_fetch (h : around.Orderly allowed) : around.Commits allowed around.fetch := by
  simp only [fetch, ExceptT.run_bind, ExceptT.run_mk, ExceptT.run_liftM, bind_map_left]
  refine h.framework.bind fun framework => ?_
  cases framework with
  | error e => exact .pure _
  | ok framework =>
    refine h.bundles.bind fun bundles => ?_
    cases bundles with
    | error e => exact .pure _
    | ok bundles =>
      refine h.commits_get.bind fun r => ?_
      refine (h.configurations r.config.configurationFilter).bind fun configurations => ?_
      cases configurations <;> exact .pure _

/-- A round of calls takes the steps that those take who are called. -/
theorem commits_callAll (h : around.Orderly allowed) (round : List (ListenerId × Listener κ)) :
    around.Commits allowed (callAll around.call around.log round) :=
  callAll_induction (m := StateM σ) (P := around.Commits allowed) h.call h.commits_log .pure .bind
    round

theorem commits_notify (h : around.Orderly allowed) : around.Commits allowed around.notify :=
  h.commits_get.bind fun r => h.commits_callAll r.listeners.round

/-- What a load does after the change: an entry in the log and a round of calls. -/
theorem commits_tell (h : around.Orderly allowed) (contents : Contents) :
    around.Commits allowed (do
      around.log (.reloaded contents.bundles.records.length contents.services.records.length
        contents.configurations.length (← around.get).generation)
      let _ ← around.notify
      return (.ok () : Except Error Unit)) :=
  h.commits_get.bind fun _ => (h.commits_log _).bind fun _ => h.commits_notify.bind fun _ => .pure _

/-- Writing many entries into the log leaves the replica alone too. -/
theorem forM_log (h : around.Orderly allowed) {α : Type} (entry : α → LogEntry) (as : List α)
    (s : σ) : (around.now ((as.forM fun a => around.log (entry a)).run s).2).bare =
      (around.now s).bare := by
  induction as generalizing s with
  | nil => rfl
  | cons a as ih => exact (ih _).trans (h.log (entry a) s)

end Orderly

variable {around : Surroundings (StateM σ) κ} {allowed : Step → Prop}

/-- **A notice that is applied is a step**, which comes before whatever the listeners do. Whether it
counts is whether the replica was loaded. -/
theorem apply_run (h : around.Orderly allowed) (event : Event) (s : σ) :
    ((around.apply event).run s).1 = (around.now s).isLoaded ∧
      ∃ later, (∀ t ∈ later, allowed t) ∧
        (around.now ((around.apply event).run s).2).bare =
          (around.now s).bare.run (.notice event :: later) := by
  have first (later : List Step) : (around.now s).bare.run (.notice event :: later) =
      ((around.now s).step (.notice event)).bare.run later := by
    rw [Replica.bare_step]
    rfl
  have loaded : ((around.now s).commit? event).isSome = (around.now s).isLoaded := Option.isSome_map
  rw [apply, h.run_get_bind]
  cases outcome : (around.now s).commit? event with
  | none =>
    rw [outcome] at loaded
    refine ⟨loaded, [], fun _ ht => (nomatch ht), ?_⟩
    rw [first, Replica.step, outcome]
    exact h.log (.ignored event) s
  | some changed =>
    rw [outcome] at loaded
    obtain ⟨later, kinds, told⟩ := h.commits_notify ((around.set changed).run s).2
    refine ⟨loaded, later, kinds, ?_⟩
    rw [first, Replica.step, outcome, Option.getD_some]
    rw [h.now_set] at told
    exact told

/-- **A load is a step with what was fetched**, which comes after whatever the server does while it is
asked and before whatever the listeners do. It succeeds if everything was fetched. -/
theorem reload_run (h : around.Orderly allowed) (s : σ) :
    (around.reload.run s).1 = (around.fetch.run s).1.map (fun _ => ()) ∧
      ∃ before later, (∀ t ∈ before, allowed t) ∧ (∀ t ∈ later, allowed t) ∧
        (around.now (around.reload.run s).2).bare =
          (around.now s).bare.run (before ++ .reload (around.fetch.run s).1 :: later) := by
  obtain ⟨before, kinds, asked⟩ := h.commits_fetch s
  rw [reload, run_bind]
  generalize around.fetch.run s = answer at asked
  obtain ⟨outcome, s₁⟩ := answer
  cases outcome with
  | error e =>
    refine ⟨rfl, before, [], kinds, fun _ ht => (nomatch ht), ?_⟩
    rw [Replica.run_append, ← asked]
    exact h.log (.reloadFailed e) s₁
  | ok fetched =>
    simp only
    rw [run_bind, h.run_get_bind, run_bind]
    have warned := h.forM_log .duplicateBundle (Collected.ofList fetched.bundles).repeated s₁
    generalize ((Collected.ofList fetched.bundles).repeated.forM fun id =>
      around.log (.duplicateBundle id)).run s₁ = warnings at warned ⊢
    obtain ⟨later, kinds', told⟩ := h.commits_tell (.ofFetched fetched)
      ((around.set ((around.now warnings.2).replace (.ofFetched fetched))).run warnings.2).2
    refine ⟨rfl, before, later, kinds, kinds', told.trans ?_⟩
    rw [h.now_set, Replica.run_append, ← asked]
    show ((around.now warnings.2).bare.replace (.ofFetched fetched)).run later = _
    rw [warned]
    rfl

/-! ### Where nobody else changes the replica -/

/-- No steps are of the kind that nothing is of. -/
theorem eq_nil_of_forall_false {steps : List Step} (h : ∀ t ∈ steps, False) : steps = [] :=
  List.eq_nil_iff_forall_not_mem.mpr h

/-- A notice that is applied is then exactly one step. -/
theorem apply_alone (h : around.Orderly fun _ => False) (event : Event) (s : σ) :
    (around.now ((around.apply event).run s).2).bare =
      ((around.now s).step (.notice event)).bare := by
  obtain ⟨_, later, none, eq⟩ := apply_run h event s
  rw [eq, eq_nil_of_forall_false none, Replica.bare_step]
  rfl

/-- A load is then exactly one step, with what was fetched. -/
theorem reload_alone (h : around.Orderly fun _ => False) (s : σ) :
    (around.now (around.reload.run s).2).bare =
      ((around.now s).step (.reload (around.fetch.run s).1)).bare := by
  obtain ⟨_, before, later, none, none', eq⟩ := reload_run h s
  rw [eq, eq_nil_of_forall_false none, eq_nil_of_forall_false none', Replica.bare_step]
  rfl

/-- Surroundings that hold nothing but the replica: the server always gives the same answers, nobody
who is called does anything, and nothing is written down. -/
def still (framework : Except Error FrameworkDescriptor) (bundles : Except Error (List BundleRecord))
    (configurations : Option String → Except Error (List ConfigurationRecord))
    (ending : κ → CallResult) : Surroundings (StateM (Replica κ)) κ where
  get := StateT.get
  set := StateT.set
  framework := pure framework
  bundles := pure bundles
  configurations filter := pure (configurations filter)
  call k := pure (ending k)
  log _ := pure ()

/-- Nobody changes a replica in still surroundings. -/
theorem still_orderly (framework : Except Error FrameworkDescriptor)
    (bundles : Except Error (List BundleRecord))
    (configurations : Option String → Except Error (List ConfigurationRecord))
    (ending : κ → CallResult) :
    (still framework bundles configurations ending).Orderly fun _ => False where
  get_run _ := rfl
  now_set _ _ := rfl
  log _ _ := rfl
  framework := .pure _
  bundles := .pure _
  configurations _ := .pure _
  call _ := .pure _

end Surroundings

end StateReplica
