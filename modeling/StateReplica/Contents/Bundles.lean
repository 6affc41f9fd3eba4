import StateReplica.Config.Basic
import StateReplica.Record.Event
import StateReplica.Record.Sorted

/-!
The bundles a replica holds: a list of them, the same bundles by id, and their names. Several bundles
may share a name, and a name stays as long as some bundle of the list has it; under the legacy
consistency a name goes with any bundle that has it, and the list is in no order.
-/

namespace StateReplica

/-! ### Fetched bundles -/

/-- What a list of fetched bundles comes to, where ids may repeat. -/
structure Collected where
  /-- the last bundle of every id -/
  byId : Std.ExtTreeMap UInt64 BundleRecord
  /-- the ids in the order in which they first occurred -/
  order : List UInt64
  /-- the ids that occurred again, once per time -/
  repeated : List UInt64

namespace Collected

/-- Adds a bundle. -/
def add (c : Collected) (b : BundleRecord) : Collected where
  byId := c.byId.insert b.id b
  order := if b.id ∈ c.byId then c.order else c.order ++ [b.id]
  repeated := if b.id ∈ c.byId then c.repeated ++ [b.id] else c.repeated

/-- Collects a list of bundles. -/
def ofList (bundles : List BundleRecord) : Collected := bundles.foldl add ⟨∅, [], []⟩

/-- The bundles that stay, in the order in which their ids first occurred. -/
def records (c : Collected) : List BundleRecord := c.order.filterMap fun id => c.byId[id]?

end Collected

/-! ### The table -/

/-- The bundles of a replica. -/
structure BundleTable where
  records : List BundleRecord
  byId : Std.ExtTreeMap UInt64 BundleRecord
  names : Std.ExtTreeSet String
  deriving DecidableEq

namespace BundleTable

/-- The table of collected bundles. -/
def ofCollected (c : Collected) : BundleTable where
  records := sorted c.records
  byId := c.byId
  names := .ofList (c.records.map (·.symbolicName))

variable (t : BundleTable)

/-- Takes a name away, unless some bundle has it. -/
def releaseName (name : String) : BundleTable :=
  if t.records.any (·.symbolicName = name) then t else { t with names := t.names.erase name }

/-- Takes a name away. -/
def eraseName (name : String) : BundleTable := { t with names := t.names.erase name }

/-- Takes the bundle with an id away. -/
def uninstall (consistency : BundleConsistency) (id : UInt64) : BundleTable :=
  match t.byId[id]? with
  | none => t
  | some removed =>
    let rest : BundleTable :=
      ⟨t.records.filter (·.id ≠ removed.id), t.byId.erase id, t.names⟩
    match consistency with
    | .strict => rest.releaseName removed.symbolicName
    | .legacy => rest.eraseName removed.symbolicName

/-- Takes a bundle up, in place of the one with the same id if there is one. -/
def change (consistency : BundleConsistency) (bundle : BundleRecord) : BundleTable :=
  let previous := t.byId[bundle.id]?
  let others := if previous.isSome then t.records.filter (·.id ≠ bundle.id) else t.records
  let byId := t.byId.insert bundle.id bundle
  let names := t.names.insert bundle.symbolicName
  match consistency with
  | .legacy => ⟨others ++ [bundle], byId, names⟩
  | .strict =>
    let changed : BundleTable := ⟨insertSorted others bundle, byId, names⟩
    match previous with
    | none => changed
    | some previous =>
      if previous.symbolicName = bundle.symbolicName then changed
      else changed.releaseName previous.symbolicName

/-- Applies a notice. -/
def apply (consistency : BundleConsistency) : BundleEvent → BundleTable
  | .uninstalled id => t.uninstall consistency id
  | .changed _ bundle => t.change consistency bundle

/-! ### Queries -/

/-- The bundles of a name, in order. -/
def named (name : String) : List BundleRecord :=
  sorted (t.records.filter (·.symbolicName = name))

/-- The names of the bundles that are in one of some states; of all bundles where no state is
given. -/
def namesIn (states : List BundleState) : List String :=
  if states.isEmpty then t.names.toList
  else
    (Std.ExtTreeSet.ofList
      ((t.records.filter fun b => states.contains b.state).map (·.symbolicName))).toList

end BundleTable

end StateReplica
