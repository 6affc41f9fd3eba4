import StateReplica.Record.Bundle
import StateReplica.Record.Framework
import StateReplica.Json.Format

/-!
The notices a server sends when something changes there, and the identity of the server that sends
them.
-/

namespace StateReplica

/-- The server a notice comes from. -/
structure ServerIdentity where
  host : String
  port : UInt16
  deriving DecidableEq

namespace ServerIdentity

/-- The identity as a text. -/
def display (s : ServerIdentity) : String := s.host ++ ":" ++ toString s.port.toNat

/-- How identities are written. -/
def shape : Json.Shape ServerIdentity :=
  .record "ServerIdentity"
    (.required "host" .string <| .required "port" (.word .u16) .done)
    (fun (host, port, ()) => ⟨host, port⟩)
    (fun s => (s.host, s.port, ()))
    (fun _ => rfl)

end ServerIdentity

/-! ### Bundles -/

/-- What happened to a bundle that is still there. -/
inductive BundleEventKind
  | installed
  | resolved
  | unresolved
  | started
  | stopped
  | updated
  deriving DecidableEq, Repr

namespace BundleEventKind

/-- The name of a kind. -/
def name : BundleEventKind → String
  | .installed => "INSTALLED"
  | .resolved => "RESOLVED"
  | .unresolved => "UNRESOLVED"
  | .started => "STARTED"
  | .stopped => "STOPPED"
  | .updated => "UPDATED"

/-- How kinds are written. -/
def choice : Json.Choice BundleEventKind where
  all := [.installed, .resolved, .unresolved, .started, .stopped, .updated]
  name := name
  mem_all a := by cases a <;> decide
  name_injective {a b} h := by cases a <;> cases b <;> first | rfl | simp [name] at h

end BundleEventKind

/-- A notice about a bundle: it is gone, or it has become what the record says. -/
inductive BundleEvent
  | uninstalled (bundleId : UInt64)
  | changed (kind : BundleEventKind) (bundle : BundleRecord)
  deriving DecidableEq

namespace BundleEvent

/-- The id of the bundle that a notice is about. -/
def bundleId : BundleEvent → UInt64
  | .uninstalled bundleId => bundleId
  | .changed _ bundle => bundle.id

/-- The two kinds of notice about a bundle. -/
inductive Tag
  | uninstalled
  | changed
  deriving DecidableEq, Repr

/-- How the kinds of notice are written. -/
def Tag.choice : Json.Choice Tag where
  all := [.uninstalled, .changed]
  name
    | .uninstalled => "uninstalled"
    | .changed => "changed"
  mem_all a := by cases a <;> decide
  name_injective {a b} h := by cases a <;> cases b <;> first | rfl | simp at h

/-- What a notice of each kind consists of. -/
def Content : Tag → Type
  | .uninstalled => UInt64 × Unit
  | .changed => BundleEventKind × BundleRecord × Unit

/-- How notices about bundles are written. -/
def tagged : Json.Tagged BundleEvent where
  name := "internally tagged enum BundleEvent"
  field := "type"
  tags := Tag.choice
  Content := Content
  label
    | .uninstalled => "struct variant BundleEvent::Uninstalled"
    | .changed => "struct variant BundleEvent::Changed"
  fields
    | .uninstalled => .required "bundle_id" (.word .u64) .done
    | .changed =>
      .required "kind" (.choice BundleEventKind.choice) <|
        .required "bundle" BundleRecord.shape .done
  make
    | .uninstalled => fun (bundleId, ()) => .uninstalled bundleId
    | .changed => fun (kind, bundle, ()) => .changed kind bundle
  split
    | .uninstalled bundleId => ⟨.uninstalled, (bundleId, ())⟩
    | .changed kind bundle => ⟨.changed, (kind, bundle, ())⟩
  make_split a := by cases a <;> rfl

end BundleEvent

/-! ### Services -/

/-- What happened to a service. -/
inductive ServiceEventKind
  | registered
  | modified
  | unregistering
  deriving DecidableEq, Repr

namespace ServiceEventKind

/-- The name of a kind. -/
def name : ServiceEventKind → String
  | .registered => "REGISTERED"
  | .modified => "MODIFIED"
  | .unregistering => "UNREGISTERING"

/-- The name of a kind as it stands in a log. -/
def logName : ServiceEventKind → String
  | .registered => "Registered"
  | .modified => "Modified"
  | .unregistering => "Unregistering"

/-- How kinds are written. -/
def choice : Json.Choice ServiceEventKind where
  all := [.registered, .modified, .unregistering]
  name := name
  mem_all a := by cases a <;> decide
  name_injective {a b} h := by cases a <;> cases b <;> first | rfl | simp [name] at h

end ServiceEventKind

/-- A notice about a service. -/
structure ServiceEvent where
  kind : ServiceEventKind
  service : ServiceRecord
  deriving DecidableEq

/-- How notices about services are written. -/
def ServiceEvent.shape : Json.Shape ServiceEvent :=
  .record "ServiceEvent"
    (.required "kind" (.choice ServiceEventKind.choice) <|
      .required "service" ServiceRecord.shape .done)
    (fun (kind, service, ()) => ⟨kind, service⟩)
    (fun e => (e.kind, e.service, ()))
    (fun _ => rfl)

/-! ### The framework -/

/-- A notice that the framework has become what the description says. -/
structure FrameworkEvent where
  framework : FrameworkDescriptor
  deriving DecidableEq

/-- How notices about the framework are written. -/
def FrameworkEvent.shape : Json.Shape FrameworkEvent :=
  .record "FrameworkEvent"
    (.required "framework" FrameworkDescriptor.shape .done)
    (fun (framework, ()) => ⟨framework⟩)
    (fun e => (e.framework, ()))
    (fun _ => rfl)

/-- A notice of any kind. -/
inductive Event
  | bundle (event : BundleEvent)
  | service (event : ServiceEvent)
  | framework (event : FrameworkEvent)
  deriving DecidableEq

/-- What a notice is about, in a word. -/
def Event.subject : Event → String
  | .bundle _ => "bundle"
  | .service _ => "service"
  | .framework _ => "framework"

end StateReplica
