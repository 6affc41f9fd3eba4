import StateReplica.Contents.Query
import StateReplica.Listeners.Basic

/-!
The steps of a scenario. A scenario has one server, whose answers are set by steps, and any number of
replicas that follow it; beside them a registry of listeners and lists of subscribers that are used on
their own. Whatever is called back acts by a script: it performs steps of its own.
-/

namespace StateReplica.Scenario

/-- What somebody who is called back does. -/
structure Script (σ : Type) where
  name : String
  actions : List σ
  /-- on so many of the first calls the actions are performed -/
  times : Nat
  /-- what comes of a call in the end -/
  ending : CallResult

/-- The three things that are fetched from a server. -/
inductive Part
  | framework
  | bundles
  | configurations
  deriving DecidableEq, Repr

/-- A registry of listeners: the one that stands alone, or the one of a replica. -/
inductive RegistryRef
  | alone
  | replica (r : Nat)
  deriving DecidableEq, Repr

/-- A step. Replicas, listeners, lists and subscribers are numbered in the order in which they are
made, each kind by itself. -/
inductive Step
  /-- changes what the server answers -/
  | setServer (framework : Option FrameworkDescriptor) (bundles : Option (List BundleRecord))
      (configurations : Option (List ConfigurationRecord))
  /-- lets the server fail from now on, or no longer -/
  | fail (part : Part) (error : Option Error)
  /-- sends a notice to those who follow the server -/
  | emit (event : Event)
  | countFollowers
  /-- adds a new listener -/
  | addListener (registry : RegistryRef) (script : Script Step)
  /-- adds a listener that was added before -/
  | addAgain (registry : RegistryRef) (handle : Nat)
  /-- removes whatever has the number that some listener was added under -/
  | removeListener (registry : RegistryRef) (handle : Nat)
  /-- calls the listeners of the registry that stands alone -/
  | notify
  | measureRegistry
  | newList
  | newRecorder (script : Script Step)
  /-- makes a subscriber that passes everything on to a list -/
  | newForwarder (list : Nat)
  | dropSubscriber (subscriber : Nat)
  | subscribe (list subscriber : Nat)
  | measureList (list : Nat)
  | send (list : Nat) (event : Event)
  | newReplica (config : ReplicaConfig)
  | dropReplica (r : Nat)
  /-- loads a replica; some steps are performed while the bundles are fetched, and a notice that
  comes in meanwhile has to wait until the end -/
  | reload (r : Nat) (during : List Step) (waiting : Option Event)
  | reloadInBackground (r count : Nat)
  | apply (r : Nat) (event : Event)
  | countListeners (r : Nat)
  | isLoaded (r : Nat)
  | generation (r : Nat)
  | config (r : Nat)
  | ask (r : Nat) (query : Query)
  /-- keeps the contents of a replica in mind -/
  | remember (r : Nat)
  /-- asks whether the contents of a replica are those kept in mind -/
  | isRemembered (r : Nat)

mutual

/-- A bound for how often a step, with all that comes after it, can lead to further steps inside. -/
def Step.weight : Step → Nat
  | .addListener _ script => scriptWeight script + 1
  | .newRecorder script => scriptWeight script + 1
  | .reload _ during _ => weights during + 1
  | _ => 1

/-- The bound for a script. -/
def scriptWeight : Script Step → Nat
  | ⟨_, actions, times, _⟩ => times * (weights actions + 1)

/-- The bound for several steps. -/
def weights : List Step → Nat
  | [] => 0
  | step :: steps => step.weight + weights steps

end

/-- A bound for how deep steps can lie inside each other when some steps are performed in turn. A
notice can pass through every list between two callbacks that act. -/
def depthBound (steps : List Step) : Nat := 2 * (weights steps + 1) * (weights steps + 1)

end StateReplica.Scenario
