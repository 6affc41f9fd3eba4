import StateReplica.Contents.Bundles
import StateReplica.Contents.Services
import StateReplica.Record.Configuration

/-!
The contents of a replica: what was fetched from the server at one time, with the notices since
applied to it. A notice about a bundle leaves the services alone and the other way round, even though
fetched bundles bring their services along.
-/

namespace StateReplica

/-- What is fetched from a server to load a replica. -/
structure Fetched where
  framework : FrameworkDescriptor
  bundles : List BundleRecord
  configurations : List ConfigurationRecord

/-- The contents of a replica. -/
structure Contents where
  framework : FrameworkDescriptor
  bundles : BundleTable
  services : ServiceTable
  configurations : List ConfigurationRecord
  deriving DecidableEq

namespace Contents

/-- The contents that something fetched makes. -/
def ofFetched (fetched : Fetched) : Contents :=
  let collected := Collected.ofList fetched.bundles
  { framework := fetched.framework
    bundles := .ofCollected collected
    services := .ofBundles collected.records
    configurations := sorted fetched.configurations }

/-- Applies a notice. -/
def apply (consistency : BundleConsistency) (c : Contents) : Event → Contents
  | .bundle event => { c with bundles := c.bundles.apply consistency event }
  | .service event => { c with services := c.services.apply event }
  | .framework event => { c with framework := event.framework }

end Contents

end StateReplica
