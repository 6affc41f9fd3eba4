import StateReplica.Config.Basic
import StateReplica.Error
import StateReplica.Record.Configuration
import StateReplica.Record.Event
import StateReplica.Proofs.Json.CutTree
import StateReplica.Proofs.Json.RoundTrip
import StateReplica.Proofs.Json.Variation

/-!
The texts of records. Every kind of record and every choice is written in one way, its schema
(`RecordKind.schema`), and every schema is sound. So what is known of sound shapes and tagged types holds
of all of them: a text that was written is read back, a text that is cut is recognised as cut, and the
order of members and members of unknown names do not matter. What is refused of every kind, choices
included, is an object in which something else stands where a name is due.

Notices about bundles are left out where members of unknown names are concerned: those are settled before
they are passed over, and may then be nested too deeply or hold what no value is.
-/

namespace StateReplica

namespace Json

/-- How the values of a type are written: in one shape, or in several that are told apart by a tag. -/
inductive Schema (α : Type) : Type 1
  | untagged (shape : Shape α)
  | tagged (kinds : Tagged α)

/-- Whether a shape is that of bare numbers. -/
def Shape.isWord : {α : Type} → Shape α → Bool
  | _, .word _ => true
  | _, _ => false

/-- Only words are written as numbers. -/
theorem Shape.write_ne_number {α : Type} {shape : Shape α} (h : shape.isWord = false) (a : α)
    (token : Token Number) : (shape.write a).tree ≠ .number token := by
  cases shape with
  | word => cases h
  | _ => exact nofun

namespace Schema

variable {α : Type}

/-- The format of a schema. -/
def format : Schema α → Format α
  | untagged shape => shape.format
  | tagged kinds => kinds.format

/-- Whether what is written can be told apart again, also from what is left of it if it is cut: of a
bare number that is cut one cannot tell. -/
def Sound : Schema α → Prop
  | untagged shape => shape.Sound ∧ shape.isWord = false
  | tagged kinds => kinds.Sound

/-- Whether a spelling becomes another one by putting the members of records into another order. -/
def Reorders : Schema α → Spelling → Spelling → Prop
  | untagged shape => shape.Varies Reordered
  | tagged kinds => kinds.Varies Reordered

/-- Whether a spelling becomes another one by adding members of unknown names to records. -/
def Enriches : Schema α → Spelling → Spelling → Prop
  | untagged shape => shape.Varies Enriched
  | tagged kinds => kinds.Varies Enriched

variable {schema : Schema α}

theorem Sound.write_plain (sound : schema.Sound) (a : α) : (schema.format.write a).Plain := by
  cases schema with
  | untagged shape => exact shape.write_plain sound.1 a
  | tagged kinds => exact Tagged.Sound.write_plain sound a

theorem Sound.read_tree (sound : schema.Sound) (a : α) :
    schema.format.read nestingRoom (schema.format.write a).tree = .ok a := by
  cases schema with
  | untagged shape => exact shape.read_tree .direct sound.1 a
  | tagged kinds => exact Tagged.Sound.read_tree sound a

theorem Sound.read_cut (sound : schema.Sound) (a : α) {t : Tree}
    (cut : t.Cut (schema.format.write a).tree) :
    schema.format.read nestingRoom t = .error (.fault .cut) := by
  have ok := sound.read_tree a
  cases schema with
  | untagged shape =>
    rcases shape.read_cut cut ok with eq | ⟨⟨token, number⟩, -⟩
    · exact eq
    · exact absurd number (Shape.write_ne_number sound.2 a token)
  | tagged kinds => exact Tagged.read_cut cut ok

theorem Sound.read_reordered (sound : schema.Sound) {x y : Spelling} (reorders : schema.Reorders x y)
    {a : α} (ok : schema.format.read nestingRoom x.tree = .ok a) :
    schema.format.read nestingRoom y.tree = .ok a := by
  cases schema with
  | untagged shape => exact shape.read_varies reordered_harmless .direct reorders ok
  | tagged kinds =>
    exact Tagged.read_varies (fun tag => (List.nodup_cons.mp (sound.nodup tag)).1) reorders ok

end Schema

end Json

/-! ### Kinds -/

/-- The kinds of record, and the choices they are made with. -/
inductive RecordKind
  | framework
  | bundle
  | service
  | serviceClass
  | configuration
  | identity
  | bundleEvent
  | serviceEvent
  | frameworkEvent
  | config
  | bundleState
  | bundleEventKind
  | serviceEventKind
  | bundleConsistency
  deriving DecidableEq, Repr

namespace RecordKind

open Json

/-- The values of a kind. -/
def Value : RecordKind → Type
  | .framework => FrameworkDescriptor
  | .bundle => BundleRecord
  | .service => ServiceRecord
  | .serviceClass => ServiceClassRecord
  | .configuration => ConfigurationRecord
  | .identity => ServerIdentity
  | .bundleEvent => BundleEvent
  | .serviceEvent => ServiceEvent
  | .frameworkEvent => FrameworkEvent
  | .config => ReplicaConfig
  | .bundleState => BundleState
  | .bundleEventKind => BundleEventKind
  | .serviceEventKind => ServiceEventKind
  | .bundleConsistency => BundleConsistency

/-- How the values of a kind are written. -/
def schema : (k : RecordKind) → Schema k.Value
  | .framework => .untagged FrameworkDescriptor.shape
  | .bundle => .untagged BundleRecord.shape
  | .service => .untagged ServiceRecord.shape
  | .serviceClass => .untagged ServiceClassRecord.shape
  | .configuration => .untagged ConfigurationRecord.shape
  | .identity => .untagged ServerIdentity.shape
  | .bundleEvent => .tagged BundleEvent.tagged
  | .serviceEvent => .untagged ServiceEvent.shape
  | .frameworkEvent => .untagged FrameworkEvent.shape
  | .config => .untagged ReplicaConfig.shape
  | .bundleState => .untagged (.choice BundleState.choice)
  | .bundleEventKind => .untagged (.choice BundleEventKind.choice)
  | .serviceEventKind => .untagged (.choice ServiceEventKind.choice)
  | .bundleConsistency => .untagged (.choice BundleConsistency.choice)

/-- The format of a kind. -/
def format (k : RecordKind) : Format k.Value := k.schema.format

end RecordKind

/-! The shapes of all records are sound: their numbers fit 64 bits, and no two fields have one name. -/

theorem u16_sound : (Json.Shape.word .u16).Sound := show UInt16.size ≤ UInt64.size by decide

theorem u32_sound : (Json.Shape.word .u32).Sound := show UInt32.size ≤ UInt64.size by decide

theorem u64_sound : (Json.Shape.word .u64).Sound := Nat.le_refl _

theorem FrameworkDescriptor.shape_sound : shape.Sound :=
  ⟨by decide, trivial, trivial, u32_sound, u32_sound, trivial⟩

theorem ServiceClassRecord.shape_sound : shape.Sound := ⟨by decide, trivial, u64_sound, trivial⟩

theorem ServiceRecord.shape_sound : shape.Sound :=
  ⟨by decide, u64_sound, u64_sound, ServiceClassRecord.shape_sound, trivial, trivial⟩

theorem BundleRecord.shape_sound : shape.Sound :=
  ⟨by decide, u64_sound, trivial, trivial, trivial, trivial, ServiceRecord.shape_sound, trivial⟩

theorem ConfigurationRecord.shape_sound : shape.Sound :=
  ⟨by decide, trivial, trivial, trivial, trivial, trivial⟩

theorem ServerIdentity.shape_sound : shape.Sound := ⟨by decide, trivial, u16_sound, trivial⟩

theorem ServiceEvent.shape_sound : shape.Sound :=
  ⟨by decide, trivial, ServiceRecord.shape_sound, trivial⟩

theorem FrameworkEvent.shape_sound : shape.Sound :=
  ⟨by decide, FrameworkDescriptor.shape_sound, trivial⟩

theorem ReplicaConfig.shape_sound : shape.Sound := ⟨by decide, trivial, trivial, trivial, trivial⟩

/-- A notice about a bundle is not nested more deeply than there is room for: below it there are the
bundle, its services and their classes. -/
theorem BundleEvent.tagged_sound : tagged.Sound where
  fields
    | .uninstalled => ⟨u64_sound, trivial⟩
    | .changed => ⟨trivial, BundleRecord.shape_sound, trivial⟩
  nodup
    | .uninstalled => by decide
    | .changed => by decide
  depth
    | .uninstalled => by decide
    | .changed => by decide

namespace RecordKind

/-- **Every kind is written soundly.** -/
theorem schema_sound (k : RecordKind) : k.schema.Sound := by
  cases k with
  | framework => exact ⟨FrameworkDescriptor.shape_sound, rfl⟩
  | bundle => exact ⟨BundleRecord.shape_sound, rfl⟩
  | service => exact ⟨ServiceRecord.shape_sound, rfl⟩
  | serviceClass => exact ⟨ServiceClassRecord.shape_sound, rfl⟩
  | configuration => exact ⟨ConfigurationRecord.shape_sound, rfl⟩
  | identity => exact ⟨ServerIdentity.shape_sound, rfl⟩
  | bundleEvent => exact BundleEvent.tagged_sound
  | serviceEvent => exact ⟨ServiceEvent.shape_sound, rfl⟩
  | frameworkEvent => exact ⟨FrameworkEvent.shape_sound, rfl⟩
  | config => exact ⟨ReplicaConfig.shape_sound, rfl⟩
  | bundleState | bundleEventKind | serviceEventKind | bundleConsistency => exact ⟨trivial, rfl⟩

variable (k : RecordKind)

theorem parse_render (v : k.Value) (layout : Json.Layout) :
    k.format.parse (String.ofList ((k.format.write v).render layout 0)) = .ok v :=
  Json.Format.parse_render (k.schema_sound.write_plain v).spellable (k.schema_sound.read_tree v) layout

/-- **A record that was written is read back**, from both layouts. -/
theorem parse_written (v : k.Value) :
    k.format.parse (k.format.compact v) = .ok v ∧ k.format.parse (k.format.pretty v) = .ok v :=
  ⟨k.parse_render v .compact, k.parse_render v .pretty⟩

/-- **A record that is cut is recognised as cut**, wherever the cut is in whichever layout. -/
theorem parse_truncated (v : k.Value) {kept lost : String}
    (text : kept ++ lost = k.format.compact v ∨ kept ++ lost = k.format.pretty v) (more : lost ≠ "") :
    k.format.parse kept = .error (.fault .cut) ∧
      (Error.ofProblem (.fault .cut)).message = "JSON error: <eof>" := by
  have sound := k.schema_sound
  refine ⟨?_, rfl⟩
  rcases text with text | text
  · exact Json.Format.parse_cut (sound.write_plain v) (fun _ => sound.read_cut v) text more
  · exact Json.Format.parse_cut (sound.write_plain v) (fun _ => sound.read_cut v) text more

/-- What is left of an identity that is cut within its port is not the identity of another port. -/
theorem parse_truncated_identity :
    RecordKind.identity.format.parse "\x7b\"host\":\"h\",\"port\":80" = .error (.fault .cut) ∧
      (Error.ofProblem (.fault .cut)).message = "JSON error: <eof>" :=
  @parse_truncated .identity ⟨"h", 8080⟩ _ "80\x7d" (.inl (by decide)) (by decide)

/-- **Where a name is due, nothing else is read**: behind the brace of an object every kind, a choice no
less than a record, refuses what neither begins a name nor closes the object as malformed, be it a value
of another type or a word that is cut. -/
theorem parse_nameless (before inside : Json.Blanks) {c : Char} (blank : Json.isBlank c = false)
    (quote : c ≠ '"') (closed : c ≠ '\x7d') (cs : List Char) :
    k.format.parse (.ofList (before.1 ++ '\x7b' :: (inside.1 ++ c :: cs))) =
      .error (.fault .malformed) := by
  refine Json.Format.parse_nameless ?_ before inside blank quote closed cs
  cases k <;> rfl

/-- A literal that is cut is not found to be cut where a name is due. -/
example : (Json.Shape.choice BundleState.choice).format.parse "\x7b nul" =
    .error (.fault .malformed) := by decide +kernel

/-! ### What does not matter -/

/-- The kinds that are not tagged. -/
theorem exists_untagged {k : RecordKind} (h : k ≠ .bundleEvent) :
    ∃ shape, k.schema = .untagged shape := by
  cases k with
  | bundleEvent => exact absurd rfl h
  | _ => exact ⟨_, rfl⟩

variable {k : RecordKind}

theorem read_enriched (h : k ≠ .bundleEvent) {x y : Json.Spelling} (enriches : k.schema.Enriches x y)
    {v : k.Value} (ok : k.format.read Json.nestingRoom x.tree = .ok v) :
    k.format.read Json.nestingRoom y.tree = .ok v := by
  obtain ⟨shape, eq⟩ := exists_untagged h
  rw [format, eq] at ok ⊢
  rw [eq] at enriches
  exact shape.read_varies Json.enriched_harmless .direct enriches ok

/-- **The order of members does not matter, nor do members of unknown names.** Every text that is
accepted is that of a document, and whatever document comes of it by putting the members of its records
into another order, or by adding members to them that they do not know, is accepted with the same
value. -/
theorem parse_varied {text : String} {v : k.Value} (h : k.format.parse text = .ok v) :
    (∃ d : Json.Document, d.text = text) ∧ ∀ d d' : Json.Document, d.text = text →
      (k.schema.Reorders d.value d'.value → k.format.parse d'.text = .ok v) ∧
      (k ≠ .bundleEvent → k.schema.Enriches d.value d'.value → k.format.parse d'.text = .ok v) := by
  obtain ⟨d, same, -⟩ := Json.Format.parse_eq_ok_iff.mp h
  refine ⟨⟨d, same⟩, ?_⟩
  rintro d d' rfl
  rw [Json.Format.parse_document] at h ⊢
  exact ⟨fun reorders => k.schema_sound.read_reordered reorders h,
    fun untagged enriches => read_enriched untagged enriches h⟩

/-- The letters of a text that is spelled without escapes. -/
def lettersOf (s : String) : List Json.Letter := s.toList.filterMap fun c =>
  if allowed : c ≠ '"' ∧ c ≠ '\\' ∧ 0x20 ≤ c.toNat then some (.plain c allowed) else none

/-- A member without blanks. -/
def tightMember (name : String) (value : Json.Spelling) : Json.Member Json.Spelling :=
  ⟨.none, lettersOf name, .none, .none, value, .none⟩

/-- A notice about the framework of some members. -/
def frameworkNotice (members : List (Json.Member Json.Spelling)) : Json.Document :=
  ⟨.none, .object .none [tightMember "framework" (.object .none members)], .none⟩

/-- The framework of a notice varies within the notice. -/
theorem frameworkNotice_varies {change : Json.Change}
    (keeps : ∀ names members, change names members members)
    {members members' : List (Json.Member Json.Spelling)}
    (changed : change ["version", "vendor", "startLevel", "initialBundleStartLevel"] members members') :
    FrameworkEvent.shape.Varies change (frameworkNotice members).value
      (frameworkNotice members').value := by
  have named : (Json.lettersToken (lettersOf "framework")).value = .ok "framework" := by decide +kernel
  refine ⟨[tightMember "framework" (.object .none members')], .cons ⟨rfl, fun name eq => ?_⟩ .nil,
    keeps _ _⟩
  obtain rfl : "framework" = name := Except.ok.inj (named.symm.trans eq)
  exact ⟨fun _ => Json.Shape.varies_of_change keeps changed, fun other => absurd rfl other⟩

/-- A framework within a notice, its members the other way round, and with one that it does not know. -/
theorem parse_varied_framework_event :
    RecordKind.frameworkEvent.format.parse
        "\x7b\"framework\":\x7b\"startLevel\":3,\"version\":\"1\"\x7d\x7d" =
      .ok ⟨⟨"1", "", 3, 1⟩⟩ ∧
    RecordKind.frameworkEvent.format.parse
        "\x7b\"framework\":\x7b\"version\":\"1\",\"x\":[\x7b\x7d],\"startLevel\":3\x7d\x7d" =
      .ok ⟨⟨"1", "", 3, 1⟩⟩ := by
  let version := tightMember "version" (.string (lettersOf "1"))
  let level := tightMember "startLevel"
    (.number (.ofDigits (.ofNat 3) (Json.Digits.ofNat_plain 3)))
  let more := tightMember "x" (.array .none [⟨.none, .object .none [], .none⟩])
  have accepted : FrameworkEvent.shape.format.parse
      "\x7b\"framework\":\x7b\"version\":\"1\",\"startLevel\":3\x7d\x7d" = .ok ⟨⟨"1", "", 3, 1⟩⟩ := by
    decide +kernel
  have unknown : (Json.lettersToken more.name).value = .ok "x" := by decide +kernel
  have varied (members : List (Json.Member Json.Spelling)) :=
    (parse_varied (k := .frameworkEvent) accepted).2 (frameworkNotice [version, level])
      (frameworkNotice members) (by decide)
  constructor
  · exact (varied [level, version]).1
      (frameworkNotice_varies Json.reordered_refl (.swap level version []))
  · exact (varied [version, more, level]).2 (by decide) (frameworkNotice_varies Json.enriched_refl
      (.keep version (.add more unknown (by decide) (.keep level .done))))

end RecordKind

end StateReplica
