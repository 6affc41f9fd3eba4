import StateReplica.Record.Event
import StateReplica.Record.Sorted

/-!
The services a replica holds: a list of them, the list of the classes they are registered under, and
the names of those classes. A class belongs to the service whose id it carries, wherever it came
from.
-/

namespace StateReplica

/-- The services of a replica. -/
structure ServiceTable where
  records : List ServiceRecord
  classes : List ServiceClassRecord
  classNames : Std.ExtTreeSet String
  deriving DecidableEq

namespace ServiceTable

/-- The table of the services of some bundles. -/
def ofBundles (bundles : List BundleRecord) : ServiceTable :=
  let services := bundles.flatMap (·.services)
  let classes := services.flatMap (·.registeredClasses)
  ⟨sorted services, sorted classes, .ofList (classes.map (·.className))⟩

variable (t : ServiceTable)

/-- The service of an id; the first one where there are several. -/
def find? (id : UInt64) : Option ServiceRecord := t.records.find? (·.id = id)

/-- The table with its lists in order. -/
def ordered : ServiceTable := ⟨sorted t.records, sorted t.classes, t.classNames⟩

/-- Adds a service and its classes. -/
def register (s : ServiceRecord) : ServiceTable where
  records := t.records ++ [s]
  classes := t.classes ++ s.registeredClasses
  classNames := t.classNames.insertMany s.classNames

/-- Takes names away, except for those that some class has. -/
def releaseNames (names : List String) : ServiceTable :=
  let unused := names.filter fun name => !t.classes.any (·.className = name)
  { t with classNames := unused.foldl (fun all name => all.erase name) t.classNames }

/-- Takes the services of an id and the classes that carry it away, together with the names that
nothing has any more, as far as the service or those classes had them. -/
def unregister (s : ServiceRecord) : ServiceTable :=
  let gone := t.classes.filter (·.serviceId = s.id)
  let rest : ServiceTable :=
    ⟨t.records.filter (·.id ≠ s.id), t.classes.filter (·.serviceId ≠ s.id), t.classNames⟩
  rest.releaseNames (s.classNames ++ gone.map (·.className))

/-- Replaces the properties of the first service with an id. -/
def setProperties (id : UInt64) (properties : Properties) : List ServiceRecord → List ServiceRecord
  | [] => []
  | s :: rest =>
    if s.id = id then { s with properties } :: rest else s :: setProperties id properties rest

/-- Applies a notice. A service that registers again replaces what there was; one that is modified
only gets new properties; one that unregisters goes with the classes it had here. -/
def apply (event : ServiceEvent) : ServiceTable :=
  let stored := t.find? event.service.id
  match event.kind with
  | .registered => ((stored.elim t t.unregister).register event.service).ordered
  | .modified =>
    { t with records := setProperties event.service.id event.service.properties t.records }
  | .unregistering => (t.unregister (stored.getD event.service)).ordered

/-! ### Queries -/

/-- The services that are registered under a class. -/
def byClass (className : String) : List ServiceRecord := t.records.filter (·.provides className)

/-- The services that a bundle has registered. -/
def ofBundle (bundleId : UInt64) : List ServiceRecord := t.records.filter (·.bundleId = bundleId)

end ServiceTable

end StateReplica
