import StateReplica.Listeners.Round
import StateReplica.Replica.Basic
import StateReplica.Scenario.Step
import StateReplica.Subscribers

/-!
The world of a scenario: the server, the replicas and everybody who is called back, with a trace of
what happened. Lists do not keep their subscribers alive; who is kept neither by an owner nor by
something under way is gone.
-/

namespace StateReplica.Scenario

/-! ### Answers and traces -/

/-- The answer to a step. -/
inductive Answer
  | nothing
  | flag (value : Bool)
  | number (value : Nat)
  /-- how many there are, and whether there are none -/
  | size (count : Nat)
  | added (handle : Nat) (id : ListenerId)
  | config (config : ReplicaConfig)
  | reply (reply : Reply)
  | failed (error : Error)
  | outcomes (outcomes : List (Except Error Unit))
  | noReplica

/-- The answer for something that may have failed. -/
def Answer.ofExcept {α : Type} (answer : α → Answer) : Except Error α → Answer
  | .ok a => answer a
  | .error e => .failed e

/-- What somebody did who was called back. -/
inductive CallEntry
  /-- a listener was called -/
  | listener (name : String)
  /-- a recorder got a notice -/
  | recorder (name : String) (event : Event) (server : ServerIdentity)
  /-- one of them performed a step -/
  | action (name : String) (answer : Answer)

/-- What the server was asked for. -/
inductive FetchEntry
  | framework
  | bundles
  | configurations (filter : Option String)
  /-- a step was performed meanwhile -/
  | during (answer : Answer)

/-- What happened, in order. -/
structure Trace where
  calls : List CallEntry
  fetches : List FetchEntry
  logs : List LogEntry

instance : EmptyCollection Trace := ⟨⟨[], [], []⟩⟩

/-! ### The world -/

/-- Somebody to whom notices are delivered. -/
inductive Recipient
  | replica (r : Nat)
  | recorder (k : Nat)
  | list (l : Nat)
  deriving DecidableEq, Repr

/-- Something that its owner holds until it is dropped. -/
structure Owned (α : Type) where
  value : α
  held : Bool

/-- Somebody who acts by a script, and how often that was so far. -/
structure Actor where
  script : Script Step
  calls : Nat

/-- The server. -/
structure Server where
  framework : FrameworkDescriptor
  bundles : List BundleRecord
  configurations : List ConfigurationRecord
  identity : ServerIdentity
  failure : Part → Option Error
  followers : SubscriberList Recipient

/-- A listener that was added, and the number it was added under. -/
structure Handle where
  listener : Nat
  id : ListenerId

/-- The world. -/
structure World where
  server : Server
  replicas : List (Owned (Replica Nat))
  /-- the registry that stands alone -/
  registry : Registry Nat
  listeners : List Actor
  handles : List Handle
  lists : List (SubscriberList Recipient)
  recorders : List Actor
  subscribers : List (Owned Recipient)
  /-- those who are kept alive by something under way -/
  pinned : List Recipient
  /-- the contents kept in mind -/
  remembered : Option Contents
  trace : Trace

/-- A list of subscribers: the server's or a numbered one. -/
inductive ListRef
  | followers
  | numbered (l : Nat)
  deriving DecidableEq, Repr

/-- A server that answers without failing. -/
def Server.new (framework : FrameworkDescriptor) (bundles : List BundleRecord)
    (configurations : List ConfigurationRecord) (identity : ServerIdentity) : Server :=
  ⟨framework, bundles, configurations, identity, fun _ => none, .empty⟩

/-- Lets a server fail in some part, or no longer. -/
def Server.setFailure (server : Server) (part : Part) (error : Option Error) : Server :=
  { server with failure := fun p => if p = part then error else server.failure p }

/-- Whether a replica that loads itself gets to see the bundles. -/
def Server.showsBundles (server : Server) : Bool :=
  (server.failure .framework).isNone && (server.failure .bundles).isNone

namespace World

/-- A world with a server and nobody else. -/
def new (server : Server) : World :=
  ⟨server, [], .empty, [], [], [], [], [], [], none, ∅⟩

variable (w : World)

/-- Whether somebody is held by an owner. Numbered lists always are. -/
def holds : Recipient → Bool
  | .replica r => (w.replicas[r]?).any (·.held)
  | .recorder k => w.subscribers.any fun s => s.held && s.value = .recorder k
  | .list _ => true

/-- Whether somebody is there. -/
def alive (x : Recipient) : Bool := w.holds x || w.pinned.contains x

/-- A replica. -/
def replica (r : Nat) : Replica Nat := (w.replicas[r]?).elim default (·.value)

/-- Changes a replica. -/
def setReplica (r : Nat) (replica : Replica Nat) : World :=
  { w with replicas := w.replicas.modify r fun owned => { owned with value := replica } }

/-- A list of subscribers. -/
def subscriberList : ListRef → SubscriberList Recipient
  | .followers => w.server.followers
  | .numbered l => (w.lists[l]?).getD .empty

/-- Changes a list of subscribers. -/
def setSubscriberList (list : SubscriberList Recipient) : ListRef → World
  | .followers => { w with server := { w.server with followers := list } }
  | .numbered l => { w with lists := w.lists.set l list }

/-- A registry of listeners. -/
def registryOf : RegistryRef → Registry Nat
  | .alone => w.registry
  | .replica r => (w.replica r).listeners

/-- Changes a registry of listeners. -/
def setRegistry (registry : Registry Nat) : RegistryRef → World
  | .alone => { w with registry }
  | .replica r => w.setReplica r { w.replica r with listeners := registry }

/-- Keeps somebody alive. -/
def pin (x : Recipient) : World := { w with pinned := x :: w.pinned }

/-- Takes back that somebody was kept alive. -/
def unpin (x : Recipient) : World := { w with pinned := w.pinned.erase x }

end World

end StateReplica.Scenario
