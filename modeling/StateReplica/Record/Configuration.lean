import StateReplica.Record.Service

/-!
Configuration entries of the remote framework, ordered by their persistent ids first.
-/

namespace StateReplica

/-- A configuration entry. -/
structure ConfigurationRecord where
  pid : String
  factoryPid : Option String
  bundleLocation : Option String
  properties : Properties
  deriving DecidableEq

namespace ConfigurationRecord

/-- An entry with a persistent id and nothing else. -/
def new (pid : String) : ConfigurationRecord := ⟨pid, none, none, ∅⟩

/-- Sets the id of the factory. -/
def withFactoryPid (c : ConfigurationRecord) (factoryPid : String) : ConfigurationRecord :=
  { c with factoryPid := some factoryPid }

/-- Sets the location of the bundle the entry is bound to. -/
def withBundleLocation (c : ConfigurationRecord) (location : String) : ConfigurationRecord :=
  { c with bundleLocation := some location }

/-- Sets a property. -/
def withProperty (c : ConfigurationRecord) (key value : String) : ConfigurationRecord :=
  { c with properties := c.properties.insert key value }

/-- Entries are compared field by field; an absent text comes before every present one. -/
protected def cmp : ConfigurationRecord → ConfigurationRecord → Ordering :=
  compareLex (compareOn (·.pid)) <| compareLex (compareOn (·.factoryPid)) <|
    compareLex (compareOn (·.bundleLocation)) (compareOn (·.properties))

/-- How entries are written. -/
def shape : Json.Shape ConfigurationRecord :=
  .record "ConfigurationRecord"
    (.required "pid" .string <| .optional "factoryPid" .string <|
      .optional "bundleLocation" .string <| .defaulted "properties" .properties ∅ .done)
    (fun (pid, factoryPid, bundleLocation, properties, ()) =>
      ⟨pid, factoryPid, bundleLocation, properties⟩)
    (fun c => (c.pid, c.factoryPid, c.bundleLocation, c.properties, ()))
    (fun _ => rfl)

end ConfigurationRecord

instance : Ord ConfigurationRecord := ⟨ConfigurationRecord.cmp⟩

instance : Std.TransOrd ConfigurationRecord := by
  unfold Std.TransOrd; show Std.TransCmp ConfigurationRecord.cmp
  unfold ConfigurationRecord.cmp; infer_instance

instance : Std.LawfulEqOrd ConfigurationRecord where
  compare_self {a} := by
    show ConfigurationRecord.cmp a a = .eq
    simp [ConfigurationRecord.cmp, compareLex, compareOn]
  eq_of_compare {a b} h := by
    have h : ConfigurationRecord.cmp a b = .eq := h
    simp only [ConfigurationRecord.cmp, compareLex, compareOn, Ordering.then_eq_eq,
      Std.LawfulEqOrd.compare_eq_iff_eq] at h
    cases a; cases b
    simp_all

end StateReplica
