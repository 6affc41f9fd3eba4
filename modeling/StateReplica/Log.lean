import StateReplica.Config.Basic
import StateReplica.Listeners.Basic
import StateReplica.Record.Event

/-!
The log. An entry says what happened; its level, its message and its fields follow from that.
-/

namespace StateReplica

/-- How much an entry of the log matters. -/
inductive Level
  | trace
  | debug
  | info
  | warn
  deriving DecidableEq, Repr

/-- The name of a level. -/
def Level.name : Level → String
  | .trace => "TRACE"
  | .debug => "DEBUG"
  | .info => "INFO"
  | .warn => "WARN"

/-- An entry of the log. -/
inductive LogEntry
  | created (consistency : BundleConsistency)
  | reloadFailed (error : Error)
  | reloaded (bundles services configurations : Nat) (generation : UInt64)
  | duplicateBundle (id : UInt64)
  /-- a notice before anything was loaded -/
  | ignored (event : Event)
  | received (server : ServerIdentity) (event : Event)
  | registered (name : String) (id : ListenerId)
  | unregistered (id : ListenerId)
  | notifying (id : ListenerId) (name : String)
  | listenerFailed (id : ListenerId) (name : String) (error : Error)
  | listenerPanicked (id : ListenerId) (name : String)
  /-- so many subscribers were gone and are not kept any longer -/
  | pruned (dropped : Nat)
  | scheduled
  deriving DecidableEq

namespace LogEntry

/-- The level of an entry. -/
def level : LogEntry → Level
  | .created _ | .ignored _ | .registered _ _ | .unregistered _ | .scheduled => .debug
  | .reloaded _ _ _ _ => .info
  | .reloadFailed _ | .duplicateBundle _ | .listenerFailed _ _ _ | .listenerPanicked _ _ => .warn
  | .received _ _ | .notifying _ _ | .pruned _ => .trace

/-- The message of an entry. -/
def message : LogEntry → String
  | .created _ => "Server state created"
  | .reloadFailed _ => "Server state reload failed"
  | .reloaded _ _ _ _ => "Server state reloaded"
  | .duplicateBundle _ => "Duplicate bundle id in reload, keeping the last record"
  | .ignored _ => "Ignoring event before first reload"
  | .received _ (.bundle _) => "Bundle event received"
  | .received _ (.service _) => "Service event received"
  | .received _ (.framework _) => "Framework event received"
  | .registered _ _ => "Registering state listener"
  | .unregistered _ => "Unregistered state listener"
  | .notifying _ _ => "Notifying listener"
  | .listenerFailed _ _ _ => "State listener failed"
  | .listenerPanicked _ _ => "State listener panicked"
  | .pruned _ => "Pruned dropped subscribers"
  | .scheduled => "Scheduling background reload"

/-- The fields that name a listener. -/
def listenerFields (id : ListenerId) (name : String) : List (String × String) :=
  [("listener_id", id.display), ("listener_name", name)]

/-- What a notice that was received is about. -/
def eventFields : Event → List (String × String)
  | .bundle event => [("bundle_id", toString event.bundleId.toNat)]
  | .service event =>
    [("service_id", toString event.service.id.toNat), ("kind", event.kind.logName)]
  | .framework event => [("start_level", toString event.framework.startLevel.toNat)]

/-- The fields of an entry. -/
def fields : LogEntry → List (String × String)
  | .created consistency => [("bundle_consistency", consistency.logName)]
  | .reloadFailed error => [("error", error.message)]
  | .reloaded bundles services configurations generation =>
    [("bundles", toString bundles), ("services", toString services),
      ("configurations", toString configurations), ("generation", toString generation.toNat)]
  | .duplicateBundle id => [("bundle_id", toString id.toNat)]
  | .ignored event => [("event", event.subject)]
  | .received server event => ("server", server.display) :: eventFields event
  | .registered name id => listenerFields id name
  | .unregistered id => [("listener_id", id.display)]
  | .notifying id name => listenerFields id name
  | .listenerFailed id name error => listenerFields id name ++ [("error", error.message)]
  | .listenerPanicked id name => listenerFields id name
  | .pruned dropped => [("dropped", toString dropped)]
  | .scheduled => []

end LogEntry

end StateReplica
