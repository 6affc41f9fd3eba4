import StateReplica.Record.Order
import StateReplica.Json.Shape

/-!
Services of the remote framework and the classes they are registered under. Services are ordered by
their ids first, class registrations by the class names first.
-/

namespace StateReplica

/-- A class that a service is registered under. -/
structure ServiceClassRecord where
  className : String
  serviceId : UInt64
  deriving DecidableEq

/-- A service. It is registered by one bundle. -/
structure ServiceRecord where
  id : UInt64
  bundleId : UInt64
  registeredClasses : List ServiceClassRecord
  properties : Properties
  deriving DecidableEq

namespace ServiceRecord

/-- A service without classes and properties. -/
def new (id bundleId : UInt64) : ServiceRecord := ⟨id, bundleId, [], ∅⟩

/-- Adds a class that the service is registered under; it refers to the service by its id. -/
def withClass (s : ServiceRecord) (className : String) : ServiceRecord :=
  { s with registeredClasses := s.registeredClasses ++ [⟨className, s.id⟩] }

/-- Sets a property. -/
def withProperty (s : ServiceRecord) (key value : String) : ServiceRecord :=
  { s with properties := s.properties.insert key value }

/-- The names of the classes, in the order of registration. -/
def classNames (s : ServiceRecord) : List String :=
  s.registeredClasses.map ServiceClassRecord.className

/-- Whether the service is registered under a class. -/
def provides (s : ServiceRecord) (className : String) : Bool := s.classNames.contains className

end ServiceRecord

/-! ### Order -/

/-- Class registrations are compared field by field. -/
protected def ServiceClassRecord.cmp : ServiceClassRecord → ServiceClassRecord → Ordering :=
  compareLex (compareOn (·.className)) (compareOn (·.serviceId))

instance : Ord ServiceClassRecord := ⟨ServiceClassRecord.cmp⟩

instance : Std.TransOrd ServiceClassRecord := by
  unfold Std.TransOrd; show Std.TransCmp ServiceClassRecord.cmp
  unfold ServiceClassRecord.cmp; infer_instance

instance : Std.LawfulEqOrd ServiceClassRecord where
  compare_self {a} := by
    show ServiceClassRecord.cmp a a = .eq
    simp [ServiceClassRecord.cmp, compareLex, compareOn]
  eq_of_compare {a b} h := by
    have h : ServiceClassRecord.cmp a b = .eq := h
    simp only [ServiceClassRecord.cmp, compareLex, compareOn, Ordering.then_eq_eq,
      Std.LawfulEqOrd.compare_eq_iff_eq] at h
    cases a; cases b
    simp_all

instance : Ord Properties := ⟨compareOn fun ps => ps.toList⟩

instance : Std.TransOrd Properties :=
  inferInstanceAs (Std.TransCmp (compareOn fun ps : Properties => ps.toList))

instance : Std.LawfulEqOrd Properties where
  compare_self {a} := by
    show compareOn (fun ps : Properties => ps.toList) a a = .eq
    simp [compareOn]
  eq_of_compare {a b} h := by
    have h : compareOn (fun ps : Properties => ps.toList) a b = .eq := h
    simp only [compareOn, Std.LawfulEqOrd.compare_eq_iff_eq] at h
    exact Std.ExtTreeMap.ext_toList (h ▸ .rfl)

/-- Services are compared field by field. -/
protected def ServiceRecord.cmp : ServiceRecord → ServiceRecord → Ordering :=
  compareLex (compareOn (·.id)) <| compareLex (compareOn (·.bundleId)) <|
    compareLex (compareOn (·.registeredClasses)) (compareOn (·.properties))

instance : Ord ServiceRecord := ⟨ServiceRecord.cmp⟩

instance : Std.TransOrd ServiceRecord := by
  unfold Std.TransOrd; show Std.TransCmp ServiceRecord.cmp
  unfold ServiceRecord.cmp; infer_instance

instance : Std.LawfulEqOrd ServiceRecord where
  compare_self {a} := by
    show ServiceRecord.cmp a a = .eq
    simp [ServiceRecord.cmp, compareLex, compareOn]
  eq_of_compare {a b} h := by
    have h : ServiceRecord.cmp a b = .eq := h
    simp only [ServiceRecord.cmp, compareLex, compareOn, Ordering.then_eq_eq,
      Std.LawfulEqOrd.compare_eq_iff_eq] at h
    cases a; cases b
    simp_all

/-! ### JSON -/

namespace ServiceClassRecord

/-- How class registrations are written. -/
def shape : Json.Shape ServiceClassRecord :=
  .record "ServiceClassRecord"
    (.required "className" .string <| .required "serviceId" (.word .u64) .done)
    (fun (className, serviceId, ()) => ⟨className, serviceId⟩)
    (fun c => (c.className, c.serviceId, ()))
    (fun _ => rfl)

end ServiceClassRecord

namespace ServiceRecord

/-- How services are written. -/
def shape : Json.Shape ServiceRecord :=
  .record "ServiceRecord"
    (.required "id" (.word .u64) <| .required "bundleId" (.word .u64) <|
      .defaulted "registeredClasses" (.list ServiceClassRecord.shape) [] <|
      .defaulted "properties" .properties ∅ .done)
    (fun (id, bundleId, registeredClasses, properties, ()) =>
      ⟨id, bundleId, registeredClasses, properties⟩)
    (fun s => (s.id, s.bundleId, s.registeredClasses, s.properties, ()))
    (fun _ => rfl)

end ServiceRecord

end StateReplica
