import StateReplica.Contents.Basic

/-!
Questions about the contents of a replica, and the answers to them.
-/

namespace StateReplica

/-- A question about the contents of a replica. -/
inductive Query
  | framework
  | bundle (id : UInt64)
  | bundles
  | bundlesNamed (name : String)
  | bundleNames
  | bundleNamesIn (states : List BundleState)
  | bundleMap
  | services
  | servicesByClass (className : String)
  | servicesOfBundle (bundleId : UInt64)
  | serviceClasses
  | serviceClassNames
  | configurations
  /-- everything at once -/
  | contents
  deriving DecidableEq, Repr

/-- An answer to a question. -/
inductive Reply
  | framework (framework : FrameworkDescriptor)
  | bundle (bundle : Option BundleRecord)
  | bundles (bundles : List BundleRecord)
  | bundleMap (bundles : Std.ExtTreeMap UInt64 BundleRecord)
  | names (names : List String)
  | services (services : List ServiceRecord)
  | serviceClasses (classes : List ServiceClassRecord)
  | configurations (configurations : List ConfigurationRecord)
  | contents (contents : Contents)

/-- Answers a question. -/
def Contents.answer (c : Contents) : Query → Reply
  | .framework => .framework c.framework
  | .bundle id => .bundle c.bundles.byId[id]?
  | .bundles => .bundles c.bundles.records
  | .bundlesNamed name => .bundles (c.bundles.named name)
  | .bundleNames => .names c.bundles.names.toList
  | .bundleNamesIn states => .names (c.bundles.namesIn states)
  | .bundleMap => .bundleMap c.bundles.byId
  | .services => .services c.services.records
  | .servicesByClass className => .services (c.services.byClass className)
  | .servicesOfBundle bundleId => .services (c.services.ofBundle bundleId)
  | .serviceClasses => .serviceClasses c.services.classes
  | .serviceClassNames => .names c.services.classNames.toList
  | .configurations => .configurations c.configurations
  | .contents => .contents c

end StateReplica
