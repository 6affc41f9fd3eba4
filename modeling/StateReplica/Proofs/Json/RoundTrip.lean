import StateReplica.Proofs.Json.Forms

/-!
Reading back what was written. Values are written in the one form in which nothing is left out but what has no
value (`Shape.writes_write`), so they are read back from it (`Shape.read_tree`, `Tagged.Sound.read_tree`). As
both layouts of a value are scanned to its tree, this is what reading its text comes to
(`Format.parse_render`).
-/

namespace StateReplica.Json

/-! ### What is written -/

mutual

/-- **What is written is a form of the value.** -/
theorem Shape.writes_write : {α : Type} → (shape : Shape α) → (a : α) → shape.Writes a (shape.write a)
  | _, .word _, _ => rfl
  | _, .flag, _ => rfl
  | _, .string, _ => rfl
  | _, .choice _, _ => rfl
  | _, .properties, _ => rfl
  | _, .list item, as => by
    refine ⟨as.map item.write, ?_, by rw [Shape.write]⟩
    rw [List.forall₂_map_right_iff]
    exact List.forall₂_same.mpr fun a _ => item.writes_write a
  | _, .record _ fields _ split _, a => .inl ⟨_, fields.writes_write (split a), by rw [Shape.write]⟩

theorem Fields.writes_write : {β : Type} → (fields : Fields β) → (b : β) →
    fields.WritesMembers b (fields.write b)
  | _, .done, () => rfl
  | _, .required _ shape rest, (a, b) => ⟨rfl, shape.writes_write a, rest.writes_write b⟩
  | _, .defaulted _ shape _ rest, (a, b) => .inl ⟨rfl, shape.writes_write a, rest.writes_write b⟩
  | _, .optional _ shape rest, (some a, b) => .inl ⟨rfl, shape.writes_write a, rest.writes_write b⟩
  | _, .optional _ _ rest, (none, b) => .inr ⟨rfl, rest.writes_write b⟩

end

mutual

/-- What is written in a sound shape is plain. -/
theorem Shape.write_plain : {α : Type} → (shape : Shape α) → shape.Sound → (a : α) →
    (shape.write a).Plain
  | _, .word word, sound, a =>
    .number (Nat.le_sub_one_of_lt (Nat.lt_of_lt_of_le (word.toNat_lt a) sound))
  | _, .flag, _, b => .flag b
  | _, .string, _, s => .string s
  | _, .choice choice, _, a => .string (choice.name a)
  | _, .list item, sound, as => .array fun j mem => by
    obtain ⟨a, -, rfl⟩ := List.mem_map.mp mem
    exact item.write_plain sound a
  | _, .properties, _, ps => .object fun m mem => by
    obtain ⟨p, -, rfl⟩ := List.mem_map.mp mem
    exact .string p.2
  | _, .record _ fields _ split _, sound, a => .object (fields.write_plain sound.2 (split a))

/-- So are the values of fields. -/
theorem Fields.write_plain : {β : Type} → (fields : Fields β) → fields.Sound → (b : β) →
    ∀ m ∈ fields.write b, m.2.Plain
  | _, .done, _, () => nofun
  | _, .required _ shape rest, sound, (a, b) => List.forall_mem_cons.mpr
    ⟨shape.write_plain sound.1 a, rest.write_plain sound.2 b⟩
  | _, .defaulted _ shape _ rest, sound, (a, b) => List.forall_mem_cons.mpr
    ⟨shape.write_plain sound.1 a, rest.write_plain sound.2 b⟩
  | _, .optional _ shape rest, sound, (some a, b) => List.forall_mem_cons.mpr
    ⟨shape.write_plain sound.1 a, rest.write_plain sound.2 b⟩
  | _, .optional _ _ rest, sound, (none, b) => rest.write_plain sound.2 b

end

/-- **What was written in a sound shape is read back from its tree.** -/
theorem Shape.read_tree (mode : Mode) {α : Type} (shape : Shape α) (sound : shape.Sound) (a : α) :
    shape.read mode (shape.write a).tree = .ok a :=
  shape.readsBack mode sound a _ (shape.writes_write a)

namespace Tagged

variable {α : Type} {tagged : Tagged α}

theorem writes_write (a : α) : tagged.Writes a (tagged.write a) :=
  .inl ⟨_, Fields.writes_write _ _, rfl⟩

theorem Sound.write_plain (sound : tagged.Sound) (a : α) : (tagged.write a).Plain :=
  .object (List.forall_mem_cons.mpr ⟨.string _, Fields.write_plain _ (sound.fields _) _⟩)

/-- **What was written of a sound tagged type is read back from its tree.** -/
theorem Sound.read_tree (sound : tagged.Sound) (a : α) :
    tagged.read nestingRoom (tagged.write a).tree = .ok a :=
  sound.read_writes (writes_write a)

end Tagged

/-! ### Texts -/

/-- **The text of a form is read as what the form is read as**, in both layouts. -/
theorem Format.parse_render {α : Type} {format : Format α} {a : α} {j : Json} (spellable : j.Spellable)
    (value : format.read nestingRoom j.tree = .ok a) (layout : Layout) :
    format.parse (String.ofList (j.render layout 0)) = .ok a := by
  obtain ⟨x, text, tree⟩ := exists_spelling_of_render spellable layout 0
  refine parse_eq_ok_iff.mpr ⟨⟨.none, x, .none⟩, ?_, tree ▸ value⟩
  rw [Document.text, ← text]
  simp [Blanks.none]

end StateReplica.Json
