import StateReplica.Proofs.Listeners.Enrolment
import StateReplica.Proofs.Replica.Outcomes

/-!
Threads. Several of them load a replica and apply notices to it at the same time. The contents are
changed by whoever holds the writer, and one thread holds it at a time: it asks the server for one
thing after the other, puts the new contents in place, counts the change, and releases the writer
before its listeners are told. Others may arrive meanwhile and wait for the writer, and may get it
in any order. Questions are answered at any time from the replica as it is, and listeners come and
go at any time, those among them who are called.

What a thread does when it is alone is what the replica does among its surroundings
(`Task.perform`). That one thread holds the writer at a time, and that each move happens at once, is
taken for granted here: of how locks are made nothing is said.
-/

namespace StateReplica.Threads

open Registry (Change)
open Replica (Step)

variable {κ : Type}

/-! ### Tasks -/

/-- What the server has to answer to a load. -/
structure Client where
  framework : Except Error FrameworkDescriptor
  bundles : Except Error (List BundleRecord)
  configurations : Option String → Except Error (List ConfigurationRecord)

/-- A server that nobody asks. -/
def Client.mute : Client := ⟨.error .notLoaded, .error .notLoaded, fun _ => .error .notLoaded⟩

/-- Everything that is fetched, or the first error. -/
def Client.fetched (client : Client) (filter : Option String) : Except Error Fetched := do
  let framework ← client.framework
  let bundles ← client.bundles
  let configurations ← client.configurations filter
  return { framework, bundles, configurations }

/-- What a thread is to do. -/
inductive Task
  | reload (client : Client)
  | apply (event : Event)

/-- The step that a task comes to. -/
def Task.step (filter : Option String) : Task → Step
  | .reload client => .reload (client.fetched filter)
  | .apply event => .notice event

namespace Client

variable (client : Client) (ending : κ → CallResult) (r : Replica κ)

/-- Surroundings with nobody but the server. -/
def surroundings : Surroundings (StateM (Replica κ)) κ :=
  .still client.framework client.bundles client.configurations ending

theorem fetch_run : ((client.surroundings ending).fetch.run r).1 =
    client.fetched r.config.configurationFilter := by
  obtain ⟨framework, bundles, configurations⟩ := client
  cases framework with
  | error e => rfl
  | ok framework =>
    cases bundles with
    | error e => rfl
    | ok bundles =>
      let rest : ExceptT Error (StateM (Replica κ)) Fetched := do
        let given ← ExceptT.mk (pure (configurations r.config.configurationFilter))
        return ⟨framework, bundles, given⟩
      show (rest.run.run r).1 = _
      rw [fetched]
      dsimp only [rest]
      cases configurations r.config.configurationFilter <;> rfl

end Client

namespace Task

/-- What a task gives back when nobody else is about, and the replica after it. -/
def perform (ending : κ → CallResult) (r : Replica κ) : Task → Outcome × Replica κ
  | .reload client =>
    let (outcome, after) := (client.surroundings ending).reload.run r
    (.reloaded outcome, after)
  | .apply event =>
    let (counted, after) := ((Client.mute.surroundings ending).apply event).run r
    (.applied counted, after)

/-- **A task that is performed alone is a step.** -/
theorem perform_eq (ending : κ → CallResult) (r : Replica κ) (task : Task) :
    let step := task.step r.config.configurationFilter
    (task.perform ending r).1 = r.outcome step ∧
      (task.perform ending r).2.bare = (r.step step).bare := by
  have orderly (client : Client) : (client.surroundings ending).Orderly fun _ => False :=
    Surroundings.still_orderly ..
  cases task with
  | reload client =>
    have outcome := (Surroundings.reload_run (orderly client) r).1
    have after := Surroundings.reload_alone (orderly client) r
    rw [client.fetch_run ending r] at outcome after
    exact ⟨congrArg Outcome.reloaded outcome, after⟩
  | apply event =>
    have outcome := (Surroundings.apply_run (orderly .mute) event r).1
    exact ⟨congrArg Outcome.applied outcome, Surroundings.apply_alone (orderly .mute) event r⟩

/-- The replica after some tasks, each performed alone. -/
def performAll (ending : κ → CallResult) (r : Replica κ) (tasks : List Task) : Replica κ :=
  tasks.foldl (fun r task => (task.perform ending r).2) r

theorem performAll_bare (ending : κ → CallResult) (r : Replica κ) (tasks : List Task) :
    (performAll ending r tasks).bare =
      (r.run (tasks.map (Task.step r.config.configurationFilter))).bare := by
  induction tasks generalizing r with
  | nil => rfl
  | cons task tasks ih =>
    have one := (task.perform_eq ending r).2
    have config : (task.perform ending r).2.config = _ := (congrArg Replica.config one :)
    have rest := ih (task.perform ending r).2
    rw [config, ← Replica.run_bare, one, Replica.run_bare] at rest
    simp only [Replica.bare, Replica.config_step] at rest
    exact rest

end Task

/-! ### What the holder of the writer does -/

/-- What comes next for the holder of the writer. -/
inductive Stage
  | framework (client : Client)
  | bundles (client : Client) (framework : FrameworkDescriptor)
  | configurations (client : Client) (framework : FrameworkDescriptor) (bundles : List BundleRecord)
  /-- puts what was fetched in the place of the contents -/
  | swap (fetched : Fetched)
  /-- applies a notice to the contents -/
  | mutate (event : Event)
  | count (outcome : Outcome)
  | release (outcome : Outcome)

def Task.start : Task → Stage
  | .reload client => .framework client
  | .apply event => .mutate event

namespace Stage

/-- Whether a load has not put new contents in place. -/
def isBeforeSwap : Stage → Bool
  | .framework _ | .bundles _ _ | .configurations _ _ _ | .swap _ => true
  | .release (.reloaded (.error _)) => true
  | _ => false

/-- Goes on with an answer of the server. -/
def answered {α : Type} (answer : Except Error α) (next : α → Stage) : Stage :=
  match answer with
  | .error e => .release (.reloaded (.error e))
  | .ok a => next a

/-- What the holder does to the replica, and what comes after that. -/
def work (r : Replica κ) : Stage → Replica κ × Stage
  | .framework client => (r, answered client.framework (.bundles client))
  | .bundles client f => (r, answered client.bundles (.configurations client f))
  | .configurations client f bs =>
    (r, answered (client.configurations r.config.configurationFilter) fun cs => .swap ⟨f, bs, cs⟩)
  | .swap fetched => ({ r with contents := some (.ofFetched fetched) }, .count (.reloaded (.ok ())))
  | .mutate event =>
    match r.contents with
    | none => (r, .release (.applied false))
    | some contents =>
      ({ r with contents := some (contents.apply r.config.bundleConsistency event) },
        .count (.applied true))
  | .count outcome => ({ r with generation := r.generation + 1 }, .release outcome)
  | .release outcome => (r, .release outcome)

end Stage

/-! ### Systems -/

/-- A thread that has released the writer. -/
structure Settled where
  task : Task
  outcome : Outcome
  /-- whether the listeners were told, if there is anything to tell -/
  told : Bool

structure System (κ : Type) where
  replica : Replica κ
  /-- those who wait for the writer -/
  waiting : List Task
  /-- the holder of the writer -/
  writer : Option (Task × Stage)
  /-- those who have released the writer, in order -/
  settled : List Settled
  /-- those who have obtained the writer, in order -/
  turns : List Task

inductive Move (κ : Type)
  | arrive (task : Task)
  /-- somebody who waits obtains the writer -/
  | take (k : Nat)
  /-- the holder of the writer does what comes next -/
  | work
  /-- somebody who has released the writer gets done with telling the listeners -/
  | tell (k : Nat)
  /-- a listener is added or removed -/
  | enrol (change : Change κ)

def Move.arrival? : Move κ → Option Task
  | .arrive task => some task
  | _ => none

def arrivals (moves : List (Move κ)) : List Task := moves.filterMap Move.arrival?

namespace System

variable (sys : System κ)

def take (task : Task) (others : List Task) : System κ :=
  { sys with
    waiting := others
    writer := some (task, task.start)
    turns := sys.turns ++ [task] }

/-- The holder of the writer releases it. Only a change is told to the listeners. -/
def release (task : Task) (outcome : Outcome) : System κ :=
  { sys with
    writer := none
    settled := sys.settled ++ [⟨task, outcome, !outcome.counts⟩] }

def work (task : Task) (stage : Stage) : System κ :=
  { sys with
    replica := (stage.work sys.replica).1
    writer := some (task, (stage.work sys.replica).2) }

def tell (k : Nat) (thread : Settled) : System κ :=
  { sys with settled := sys.settled.set k { thread with told := true } }

/-- What a move makes of a system, if the move is possible. -/
def move : Move κ → Option (System κ)
  | .arrive task => some { sys with waiting := sys.waiting ++ [task] }
  | .take k =>
    match sys.writer, sys.waiting[k]? with
    | none, some task => some (sys.take task (sys.waiting.eraseIdx k))
    | _, _ => none
  | .work =>
    match sys.writer with
    | none => none
    | some (task, .release outcome) => some (sys.release task outcome)
    | some (task, stage) => some (sys.work task stage)
  | .tell k =>
    match sys.settled[k]? with
    | some ⟨task, outcome, false⟩ => some (sys.tell k ⟨task, outcome, false⟩)
    | _ => none
  | .enrol change =>
    some { sys with
      replica := { sys.replica with listeners := sys.replica.listeners.change change } }

/-- A system after some moves, if they are possible. -/
def run (moves : List (Move κ)) : Option (System κ) := moves.foldlM move sys

/-- Nobody waits, nobody holds the writer, and there is nothing left to tell. -/
structure AtRest : Prop where
  waiting : sys.waiting = []
  writer : sys.writer = none
  told : ∀ thread ∈ sys.settled, thread.told = true

/-- A thread that has just obtained the writer, with nobody else about. -/
def begun (r : Replica κ) (task : Task) : System κ :=
  ⟨r, [], some (task, task.start), [], [task]⟩

end System

end StateReplica.Threads
