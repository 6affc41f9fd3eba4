import StateReplica.Listeners.Round
import StateReplica.Replica.Basic

/-!
What a replica does among its surroundings: it loads itself from a server, takes notices from it, and
tells its listeners. Nothing is told before the change is made, and where there is no change nobody is
called.
-/

namespace StateReplica

/-- The surroundings of a replica, which act in `m`. -/
structure Surroundings (m : Type → Type) (κ : Type) where
  /-- the replica as it is now -/
  get : m (Replica κ)
  set : Replica κ → m Unit
  /-- the server -/
  framework : m (Except Error FrameworkDescriptor)
  bundles : m (Except Error (List BundleRecord))
  configurations : Option String → m (Except Error (List ConfigurationRecord))
  /-- the listeners -/
  call : κ → m CallResult
  log : LogEntry → m Unit

namespace Surroundings

variable {κ : Type} {m : Type → Type} [Monad m] (around : Surroundings m κ)

/-- Fetches everything from the server, up to the first error. -/
def fetch : m (Except Error Fetched) := ExceptT.run do
  let framework ← ExceptT.mk around.framework
  let bundles ← ExceptT.mk around.bundles
  let filter := (← around.get).config.configurationFilter
  let configurations ← ExceptT.mk (around.configurations filter)
  return { framework, bundles, configurations }

/-- Calls the listeners, and counts those that failed or panicked. -/
def notify : m Nat := do callAll around.call around.log (← around.get).listeners.round

/-- Loads the replica. If something cannot be fetched, it stays as it was. -/
def reload : m (Except Error Unit) := do
  match ← around.fetch with
  | .error e =>
    around.log (.reloadFailed e)
    return .error e
  | .ok fetched =>
    (Collected.ofList fetched.bundles).repeated.forM fun id => around.log (.duplicateBundle id)
    let contents := Contents.ofFetched fetched
    around.set ((← around.get).replace contents)
    around.log (.reloaded contents.bundles.records.length contents.services.records.length
      contents.configurations.length (← around.get).generation)
    let _ ← around.notify
    return .ok ()

/-- Applies a notice, and says whether it counted. -/
def apply (event : Event) : m Bool := do
  match (← around.get).commit? event with
  | none =>
    around.log (.ignored event)
    return false
  | some changed =>
    around.set changed
    let _ ← around.notify
    return true

/-- Takes a notice from a server. -/
def receive (server : ServerIdentity) (event : Event) : m Unit := do
  if (← around.get).config.logEvents then around.log (.received server event)
  let _ ← around.apply event

end Surroundings

end StateReplica
