import StateReplica.Json.Shape

/-!
The framework as a whole: its version, its vendor and its start levels.
-/

namespace StateReplica

/-- The description of a framework. -/
structure FrameworkDescriptor where
  version : String
  vendor : String
  startLevel : UInt32
  /-- the start level that newly installed bundles get -/
  initialBundleStartLevel : UInt32
  deriving DecidableEq

namespace FrameworkDescriptor

/-- A framework without a vendor, whose new bundles start at level 1. -/
def new (version : String) (startLevel : UInt32) : FrameworkDescriptor :=
  ⟨version, "", startLevel, 1⟩

/-- The description without any content: no texts, and both levels 0. -/
def blank : FrameworkDescriptor := ⟨"", "", 0, 0⟩

/-- Replaces the vendor. -/
def withVendor (f : FrameworkDescriptor) (vendor : String) : FrameworkDescriptor :=
  { f with vendor }

/-- Replaces the level of new bundles. -/
def withInitialBundleStartLevel (f : FrameworkDescriptor) (level : UInt32) : FrameworkDescriptor :=
  { f with initialBundleStartLevel := level }

/-- How frameworks are written. -/
def shape : Json.Shape FrameworkDescriptor :=
  .record "FrameworkDescriptor"
    (.required "version" .string <| .defaulted "vendor" .string "" <|
      .required "startLevel" (.word .u32) <|
      .defaulted "initialBundleStartLevel" (.word .u32) 1 .done)
    (fun (version, vendor, startLevel, initialBundleStartLevel, ()) =>
      ⟨version, vendor, startLevel, initialBundleStartLevel⟩)
    (fun f => (f.version, f.vendor, f.startLevel, f.initialBundleStartLevel, ()))
    (fun _ => rfl)

end FrameworkDescriptor

end StateReplica
