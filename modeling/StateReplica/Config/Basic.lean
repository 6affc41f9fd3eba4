import StateReplica.Json.Format

/-!
The settings of a replica. Settings from several places are merged one after the other: whatever
differs from the default in the later one replaces what was there before.
-/

namespace StateReplica

/-- How notices about bundles are applied. -/
inductive BundleConsistency
  /-- bundles stay in order, and a name goes when no bundle has it any more -/
  | strict
  /-- changed bundles move to the end, and a name goes with any bundle that has it -/
  | legacy
  deriving DecidableEq, Repr

namespace BundleConsistency

/-- The name of a consistency. -/
def name : BundleConsistency → String
  | .strict => "strict"
  | .legacy => "legacy"

/-- The name of a consistency as it stands in a log. -/
def logName : BundleConsistency → String
  | .strict => "Strict"
  | .legacy => "Legacy"

/-- How consistencies are written. -/
def choice : Json.Choice BundleConsistency where
  all := [.strict, .legacy]
  name := name
  mem_all a := by cases a <;> decide
  name_injective {a b} h := by cases a <;> cases b <;> first | rfl | simp [name] at h

/-- Whether the consistency is the strict one. -/
def isStrict (c : BundleConsistency) : Bool := c = .strict

end BundleConsistency

/-- The settings of a replica. -/
structure ReplicaConfig where
  /-- which configuration entries are fetched; all of them if there is no filter -/
  configurationFilter : Option String
  bundleConsistency : BundleConsistency
  /-- whether every notice that arrives is logged -/
  logEvents : Bool
  deriving DecidableEq, Repr

namespace ReplicaConfig

/-- The settings where nothing is set. -/
def default : ReplicaConfig := ⟨none, .strict, false⟩

instance : Inhabited ReplicaConfig := ⟨default⟩

/-- Sets the filter. -/
def withConfigurationFilter (c : ReplicaConfig) (filter : String) : ReplicaConfig :=
  { c with configurationFilter := some filter }

/-- Replaces the consistency. -/
def withBundleConsistency (c : ReplicaConfig) (consistency : BundleConsistency) : ReplicaConfig :=
  { c with bundleConsistency := consistency }

/-- Says whether notices are logged. -/
def withLogEvents (c : ReplicaConfig) (enabled : Bool) : ReplicaConfig :=
  { c with logEvents := enabled }

/-- Settings over which other settings are laid: what the others set counts. -/
def merge (base upper : ReplicaConfig) : ReplicaConfig where
  configurationFilter := upper.configurationFilter.or base.configurationFilter
  bundleConsistency := match upper.bundleConsistency with
    | .strict => base.bundleConsistency
    | .legacy => .legacy
  logEvents := upper.logEvents || base.logEvents

/-- The settings after each of several merges. -/
def mergeSteps (base : ReplicaConfig) : List ReplicaConfig → List ReplicaConfig
  | [] => []
  | upper :: rest => base.merge upper :: (base.merge upper).mergeSteps rest

/-- The settings after all of several merges, from the default on. -/
def mergeAll (configs : List ReplicaConfig) : ReplicaConfig := configs.foldl merge default

/-- How settings are written. -/
def shape : Json.Shape ReplicaConfig :=
  .record "ReplicaConfig"
    (.optional "configurationFilter" .string <|
      .defaulted "bundleConsistency" (.choice BundleConsistency.choice) .strict <|
      .defaulted "logEvents" .flag false .done)
    (fun (configurationFilter, bundleConsistency, logEvents, ()) =>
      ⟨configurationFilter, bundleConsistency, logEvents⟩)
    (fun c => (c.configurationFilter, c.bundleConsistency, c.logEvents, ()))
    (fun _ => rfl)

end ReplicaConfig

end StateReplica
