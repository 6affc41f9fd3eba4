import StateReplica.Contents.Query
import StateReplica.Listeners.Basic

/-!
Replicas of the state of a server. A replica has no contents until it is loaded for the first time.
From then on every load and every notice is a change that counts.
-/

namespace StateReplica

/-- A replica. -/
structure Replica (κ : Type) where
  config : ReplicaConfig
  contents : Option Contents
  /-- the number of changes -/
  generation : UInt64
  listeners : Registry κ

namespace Replica

variable {κ : Type}

/-- A replica that nothing was loaded into. -/
def new (config : ReplicaConfig) : Replica κ := ⟨config, none, 0, .empty⟩

instance : Inhabited (Replica κ) := ⟨new default⟩

variable (r : Replica κ)

/-- Whether the replica was loaded. -/
def isLoaded : Bool := r.contents.isSome

/-- Answers a question about the contents. -/
def ask (query : Query) : Except Error Reply :=
  match r.contents with
  | some contents => .ok (contents.answer query)
  | none => .error .notLoaded

/-- Puts contents in the place of what was there. -/
def replace (contents : Contents) : Replica κ :=
  { r with contents := some contents, generation := r.generation + 1 }

/-- Applies a notice, if the replica is loaded. -/
def commit? (event : Event) : Option (Replica κ) :=
  r.contents.map fun contents => r.replace (contents.apply r.config.bundleConsistency event)

end Replica

end StateReplica
