import StateReplica.Record.Service

/-!
Bundles of the remote framework, the units that are installed there and register services. Bundles
are ordered by their ids first.
-/

namespace StateReplica

/-- The states of a bundle's life, in order. -/
inductive BundleState
  | uninstalled
  | installed
  | resolved
  | starting
  | stopping
  | active
  deriving DecidableEq, Repr

namespace BundleState

/-- The name of a state. -/
def name : BundleState → String
  | .uninstalled => "UNINSTALLED"
  | .installed => "INSTALLED"
  | .resolved => "RESOLVED"
  | .starting => "STARTING"
  | .stopping => "STOPPING"
  | .active => "ACTIVE"

/-- All states, in order. -/
def all : List BundleState := [.uninstalled, .installed, .resolved, .starting, .stopping, .active]

/-- How states are written. -/
def choice : Json.Choice BundleState where
  all := all
  name := name
  mem_all a := by cases a <;> decide
  name_injective {a b} h := by cases a <;> cases b <;> first | rfl | simp [name] at h

/-- The place of a state in the order. -/
def rank : BundleState → Nat
  | .uninstalled => 0
  | .installed => 1
  | .resolved => 2
  | .starting => 3
  | .stopping => 4
  | .active => 5

theorem rank_injective {a b : BundleState} (h : a.rank = b.rank) : a = b := by
  cases a <;> cases b <;> first | rfl | simp [rank] at h

end BundleState

instance : Ord BundleState := ⟨compareOn BundleState.rank⟩

instance : Std.TransOrd BundleState := inferInstanceAs (Std.TransCmp (compareOn BundleState.rank))

instance : Std.LawfulEqOrd BundleState where
  compare_self {a} := by
    show compareOn BundleState.rank a a = .eq
    simp [compareOn]
  eq_of_compare {a b} h := by
    have h : compareOn BundleState.rank a b = .eq := h
    simp only [compareOn, Std.LawfulEqOrd.compare_eq_iff_eq] at h
    exact BundleState.rank_injective h

/-- A bundle. Several bundles may have the same name, but not the same id. -/
structure BundleRecord where
  id : UInt64
  symbolicName : String
  version : String
  state : BundleState
  location : String
  services : List ServiceRecord
  deriving DecidableEq

namespace BundleRecord

/-- A bundle without version, location and services. -/
def new (id : UInt64) (symbolicName : String) (state : BundleState) : BundleRecord :=
  ⟨id, symbolicName, "", state, "", []⟩

/-- Replaces the version. -/
def withVersion (b : BundleRecord) (version : String) : BundleRecord := { b with version }

/-- Replaces the location. -/
def withLocation (b : BundleRecord) (location : String) : BundleRecord := { b with location }

/-- Adds services behind those the bundle has. -/
def withServices (b : BundleRecord) (services : List ServiceRecord) : BundleRecord :=
  { b with services := b.services ++ services }

/-- Adds a service behind those the bundle has. -/
def withService (b : BundleRecord) (service : ServiceRecord) : BundleRecord :=
  b.withServices [service]

/-- Whether the bundle is active. -/
def isActive (b : BundleRecord) : Bool := b.state = .active

/-- Bundles are compared field by field. -/
protected def cmp : BundleRecord → BundleRecord → Ordering :=
  compareLex (compareOn (·.id)) <| compareLex (compareOn (·.symbolicName)) <|
    compareLex (compareOn (·.version)) <| compareLex (compareOn (·.state)) <|
    compareLex (compareOn (·.location)) (compareOn (·.services))

/-- How bundles are written. -/
def shape : Json.Shape BundleRecord :=
  .record "BundleRecord"
    (.required "id" (.word .u64) <| .required "symbolicName" .string <|
      .defaulted "version" .string "" <| .required "state" (.choice BundleState.choice) <|
      .defaulted "location" .string "" <|
      .defaulted "services" (.list ServiceRecord.shape) [] .done)
    (fun (id, symbolicName, version, state, location, services, ()) =>
      ⟨id, symbolicName, version, state, location, services⟩)
    (fun b => (b.id, b.symbolicName, b.version, b.state, b.location, b.services, ()))
    (fun _ => rfl)

end BundleRecord

instance : Ord BundleRecord := ⟨BundleRecord.cmp⟩

instance : Std.TransOrd BundleRecord := by
  unfold Std.TransOrd; show Std.TransCmp BundleRecord.cmp
  unfold BundleRecord.cmp; infer_instance

instance : Std.LawfulEqOrd BundleRecord where
  compare_self {a} := by
    show BundleRecord.cmp a a = .eq
    simp [BundleRecord.cmp, compareLex, compareOn]
  eq_of_compare {a b} h := by
    have h : BundleRecord.cmp a b = .eq := h
    simp only [BundleRecord.cmp, compareLex, compareOn, Ordering.then_eq_eq,
      Std.LawfulEqOrd.compare_eq_iff_eq] at h
    cases a; cases b
    simp_all

end StateReplica
