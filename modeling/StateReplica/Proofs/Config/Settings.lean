import StateReplica.Config.Layers
import StateReplica.Proofs.Json.Fields

/-!
What the text of a settings file says. A setting is contained in a text as the member of its name, or as
the item at its place where the settings are written as an array; a filter that is null is not contained.
What is read from a text that is accepted is what it says, with the default in place of every setting that it
does not contain (`of_parse`).
-/

namespace StateReplica

/-- A setting of a replica. -/
inductive Setting
  | configurationFilter
  | bundleConsistency
  | logEvents
  deriving DecidableEq, Repr

namespace Setting

open Json

/-- The values of a setting. -/
abbrev Value : Setting → Type
  | .configurationFilter => Option String
  | .bundleConsistency => BundleConsistency
  | .logEvents => Bool

/-- The value that a setting has among all settings. -/
def of (c : ReplicaConfig) : (s : Setting) → s.Value
  | .configurationFilter => c.configurationFilter
  | .bundleConsistency => c.bundleConsistency
  | .logEvents => c.logEvents

/-- The value of a setting that is set nowhere. -/
def fallback (s : Setting) : s.Value := of .default s

/-- The name of a setting in a file. -/
def name : Setting → String
  | .configurationFilter => "configurationFilter"
  | .bundleConsistency => "bundleConsistency"
  | .logEvents => "logEvents"

/-- The place of a setting where all settings are written one after the other. -/
def index : Setting → Nat
  | .configurationFilter => 0
  | .bundleConsistency => 1
  | .logEvents => 2

/-! ### What a text says -/

/-- The consistency of a name. -/
def consistencyOf? : String → Option BundleConsistency
  | "strict" => some .strict
  | "legacy" => some .legacy
  | _ => none

/-- The value that something stands for. A consistency stands there by its name, or by an object whose one
member has that name. -/
def value? : (s : Setting) → Tree → Option s.Value
  | .configurationFilter, .string ⟨.ok text, _⟩ => some (some text)
  | .bundleConsistency, .string ⟨.ok name, _⟩ => consistencyOf? name
  | .bundleConsistency, .object [(⟨.ok name, _⟩, _)] _ => consistencyOf? name
  | .logEvents, .literal (.ok (.flag b)) => some b
  | _, _ => none

/-- The value that a text contains for a setting, if it contains any. -/
def inText? (s : Setting) (text : String) : Option s.Value :=
  ((scan text.toList).1.fieldOf? s.name s.index).bind s.value?

/-! ### What is read -/

/-- How a setting is read. -/
def read : (s : Setting) → Tree → Except Problem s.Value
  | .configurationFilter => readOptional readString
  | .bundleConsistency => BundleConsistency.choice.readDirect
  | .logEvents => readFlag

theorem consistencyOf?_of_ofName {name : String} {c : BundleConsistency}
    (h : BundleConsistency.choice.ofName name = .ok c) : consistencyOf? name = some c := by
  unfold Choice.ofName Choice.ofName? at h
  split at h
  next found =>
    cases h
    have named : BundleConsistency.choice.name c = name := by simpa using List.find?_some found
    subst named
    cases c <;> rfl
  next => cases h

/-- **What is read of a setting is the value that stands there**, or the default where none does. -/
theorem eq_of_read {s : Setting} {t : Tree} {v : s.Value} (ok : s.read t = .ok v) :
    (s.value? t).getD s.fallback = v := by
  cases s with
  | configurationFilter =>
    have ok : readOptional readString t = .ok v := ok
    by_cases null : t = .literal (.ok .null)
    · subst null
      cases ok
      rfl
    · rw [readOptional_of_ne_null null] at ok
      obtain ⟨text, read, rfl⟩ := map_eq_ok.mp ok
      cases t with
      | string token =>
        obtain ⟨value, passed⟩ := token
        obtain rfl : value = .ok text := orFault_eq_ok.mp read
        rfl
      | literal | number | array | object | broken => exact absurd read mismatch_ne_ok
  | bundleConsistency =>
    have ok : BundleConsistency.choice.readDirect t = .ok v := ok
    cases t with
    | string token =>
      obtain ⟨name, named, chosen⟩ := bind_eq_ok.mp ok
      obtain ⟨value, passed⟩ := token
      obtain rfl : value = .ok name := orFault_eq_ok.mp named
      exact congrArg (Option.getD · _) (consistencyOf?_of_ofName chosen)
    | object members ending =>
      cases members with
      | nil => cases ending <;> cases ok
      | cons m members =>
        obtain ⟨⟨name, named, chosen⟩, -, rfl, -⟩ := Choice.readDirect_object_eq_ok ok
        obtain ⟨⟨value, passed⟩, t⟩ := m
        obtain rfl : value = .ok name := named
        exact congrArg (Option.getD · _) (consistencyOf?_of_ofName chosen)
    | literal | number | array | broken => cases ok
  | logEvents =>
    have ok : readFlag t = .ok v := ok
    unfold readFlag at ok
    split at ok
    next => exact Except.ok.inj ok
    next => exact absurd ok mismatch_ne_ok

/-- **What is read of the settings comes of what stands for each of them.** -/
theorem of_read {t : Tree} {c : ReplicaConfig} (ok : ReplicaConfig.shape.read .direct t = .ok c)
    (s : Setting) : ComesOf s.read (some s.fallback) (t.fieldOf? s.name s.index) (s.of c) := by
  obtain ⟨⟨filter, consistency, logs, ⟨⟩⟩, rfl, found⟩ := exists_of_read_record (by decide) ok
  obtain ⟨hfilter, hconsistency, hlogs, -⟩ := found
  cases s with
  | configurationFilter => exact hfilter
  | bundleConsistency => exact hconsistency
  | logEvents => exact hlogs

/-- **Settings that are read are what their text says**, with defaults for those that it does not
contain. -/
theorem of_parse {text : String} {c : ReplicaConfig} (ok : ReplicaConfig.format.parse text = .ok c)
    (s : Setting) : s.of c = (s.inText? text).getD s.fallback := by
  unfold Format.parse at ok
  unfold inText?
  generalize scan text.toList = scanned at ok ⊢
  obtain ⟨t, rest⟩ := scanned
  obtain ⟨c', read, ok⟩ := bind_eq_ok.mp ok
  split at ok
  next =>
    cases ok
    rcases of_read read s with ⟨nothing, filled⟩ | ⟨t', found, value⟩
    · rw [nothing]
      exact (Option.some.inj filled).symm
    · rw [found]
      exact (eq_of_read value).symm
  next => cases ok

end Setting

end StateReplica
