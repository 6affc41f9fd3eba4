import StateReplica.Proofs.Records.Texts

/-!
The forms of records. Whatever kind of record is written, each record in it on its own may be an object
without fields that have their defaults, or an array that ends where all further fields have theirs; and a
notice about a bundle may be an array that begins with its tag. Every text of such a form is read as the
record that was written, also if the members of its objects are in another order (`RecordKind.parse_form`).

Choices are written by their names here, and no members are added that a record does not know.
-/

namespace StateReplica

namespace Json.Schema

variable {α : Type} {schema : Schema α}

/-- Whether a value may be written in some way. -/
def Writes : Schema α → α → Json → Prop
  | untagged shape => shape.Writes
  | tagged kinds => kinds.Writes

theorem Sound.read_writes (sound : schema.Sound) {a : α} {j : Json} (form : schema.Writes a j) :
    schema.format.read nestingRoom j.tree = .ok a := by
  cases schema with
  | untagged shape => exact shape.readsBack .direct sound.1 a j form
  | tagged kinds => exact Tagged.Sound.read_writes sound form

theorem Sound.spellable (sound : schema.Sound) {a : α} {j : Json} (form : schema.Writes a j) :
    j.Spellable := by
  cases schema with
  | untagged shape => exact shape.spellable sound.1 a j form
  | tagged kinds => exact Tagged.Sound.spellable sound form

end Json.Schema

namespace RecordKind

open Json

/-- **Every form of a record is read as the record.** A text of whatever form of a record is accepted, with
this record as the value: the form itself in both layouts, every other text that stands for it, and what comes
of such a text by putting the members of records into another order. -/
theorem parse_form (k : RecordKind) {v : k.Value} {j : Json} (form : k.schema.Writes v j) :
    k.format.parse j.compact = .ok v ∧ k.format.parse j.pretty = .ok v ∧
      ∀ d : Document, d.value.tree = j.tree → k.format.parse d.text = .ok v ∧
        ∀ d' : Document, k.schema.Reorders d.value d'.value → k.format.parse d'.text = .ok v := by
  have read := k.schema_sound.read_writes form
  have spellable := k.schema_sound.spellable form
  refine ⟨Format.parse_render spellable read .compact, Format.parse_render spellable read .pretty,
    fun d same => ?_⟩
  rw [← same] at read
  refine ⟨?_, fun d' reorders => ?_⟩
  · rw [Format.parse_document]
    exact read
  · rw [Format.parse_document]
    exact k.schema_sound.read_reordered reorders read

/-- Settings as an array that begins with a filter that is absent and ends before a default, and a notice as
an array, with a bundle as an object and its one service as an array. -/
theorem parse_form_arrays :
    RecordKind.config.format.parse "[null,\"legacy\"]" = .ok ⟨none, .legacy, false⟩ ∧
    RecordKind.bundleEvent.format.parse
        ("[\"changed\",\"STARTED\",\x7b\"id\":1,\"symbolicName\":\"b\",\"state\":\"ACTIVE\"," ++
          "\"services\":[[7,1]]\x7d]") =
      .ok (.changed .started ⟨1, "b", "", .active, "", [⟨7, 1, [], ∅⟩]⟩) := by
  have settings : RecordKind.config.schema.Writes ⟨none, .legacy, false⟩
      (.array [.null, .string "legacy"]) := by
    refine .inr ⟨_, ?_, rfl⟩
    exact .inl ⟨rfl, .inl ⟨rfl, .inr ⟨rfl, rfl, rfl⟩⟩⟩
  have service : ServiceRecord.shape.Writes ⟨7, 1, [], ∅⟩ (.array [.number 7, .number 1]) := by
    refine .inr ⟨_, ?_, rfl⟩
    exact ⟨rfl, rfl, .inr ⟨rfl, rfl, .inr ⟨rfl, rfl, rfl⟩⟩⟩
  have bundle : BundleRecord.shape.Writes ⟨1, "b", "", .active, "", [⟨7, 1, [], ∅⟩]⟩
      (.object [("id", .number 1), ("symbolicName", .string "b"), ("state", .string "ACTIVE"),
        ("services", .array [.array [.number 7, .number 1]])]) := by
    refine .inl ⟨_, ?_, rfl⟩
    refine ⟨rfl, rfl, rfl, rfl, .inr ⟨rfl, rfl, rfl, .inr ⟨rfl, .inl ⟨rfl, ?_, rfl⟩⟩⟩⟩
    exact ⟨_, .cons service .nil, rfl⟩
  have notice : RecordKind.bundleEvent.schema.Writes
      (.changed .started ⟨1, "b", "", .active, "", [⟨7, 1, [], ∅⟩]⟩)
      (.array [.string "changed", .string "STARTED", .object [("id", .number 1), ("symbolicName", .string "b"),
        ("state", .string "ACTIVE"), ("services", .array [.array [.number 7, .number 1]])]]) := by
    refine .inr ⟨_, ?_, rfl⟩
    exact ⟨rfl, bundle, rfl⟩
  exact ⟨(parse_form .config settings).1, (parse_form .bundleEvent notice).1⟩

end RecordKind

end StateReplica
