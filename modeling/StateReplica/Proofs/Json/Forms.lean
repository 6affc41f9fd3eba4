import StateReplica.Proofs.Json.Layout
import StateReplica.Proofs.Json.Tagged

/-!
The forms in which a value may be written. A record may be an object without some of the fields that have
their default, or an array of its fields in order that ends where all further ones have theirs; and each record
within a value takes its form on its own (`Shape.Writes`). From the tree of any form of a value the value itself
is read, in both modes (`Shape.readsBack`). This holds of sound shapes, in which no two fields have one name.

It is proved once of the forms of a record, for any fields that are read back themselves
(`Fields.take_writes`, `Fields.ofItems_writes`), so that the induction over shapes goes through the fields of a
record one by one. A tagged type adds its tag in front and the bound on the nesting
(`Tagged.Sound.read_writes`).
-/

namespace StateReplica.Json

/-! ### Sound shapes -/

mutual

/-- Whether what is written in a shape can be told apart again: all numbers are words of at most 64
bits, and no two fields of a record have the same name. -/
def Shape.Sound : {α : Type} → Shape α → Prop
  | _, .word word => word.size ≤ UInt64.size
  | _, .list item => item.Sound
  | _, .record _ fields _ _ _ => fields.names.Nodup ∧ fields.Sound
  | _, _ => True

/-- Whether the shapes of all fields are sound. -/
def Fields.Sound : {β : Type} → Fields β → Prop
  | _, .done => True
  | _, .required _ shape rest => shape.Sound ∧ rest.Sound
  | _, .defaulted _ shape _ rest => shape.Sound ∧ rest.Sound
  | _, .optional _ shape rest => shape.Sound ∧ rest.Sound

end

/-! ### Forms -/

section

variable {α : Type}

/-- Whether members begin with one of a name. -/
def FirstMember (name : String) (value : Json → Prop) (others : List (String × Json) → Prop) :
    List (String × Json) → Prop
  | [] => False
  | (key, j) :: members => key = name ∧ value j ∧ others members

/-- Whether items begin with one. -/
def FirstItem (value : Json → Prop) (others : List Json → Prop) : List Json → Prop
  | [] => False
  | j :: items => value j ∧ others items

theorem FirstMember.exists_cons {name : String} {value : Json → Prop}
    {others : List (String × Json) → Prop} {members : List (String × Json)}
    (first : FirstMember name value others members) :
    ∃ j rest, members = (name, j) :: rest ∧ value j ∧ others rest := by
  cases members with
  | nil => exact first.elim
  | cons m rest =>
    obtain ⟨rfl, value, others⟩ := first
    exact ⟨m.2, rest, rfl, value, others⟩

theorem FirstMember.mem_names {name : String} {value : Json → Prop}
    {others : List (String × Json) → Prop} {names : List String}
    (behind : ∀ {rest}, others rest → ∀ m ∈ rest, m.1 ∈ names) {members : List (String × Json)}
    (first : FirstMember name value others members) : ∀ m ∈ members, m.1 ∈ name :: names := by
  obtain ⟨j, rest, rfl, -, others⟩ := first.exists_cons
  exact List.forall_mem_cons.mpr
    ⟨List.mem_cons_self, fun m mem => List.mem_cons_of_mem _ (behind others m mem)⟩

theorem FirstItem.exists_cons {value : Json → Prop} {others : List Json → Prop} {items : List Json}
    (first : FirstItem value others items) : ∃ j rest, items = j :: rest ∧ value j ∧ others rest := by
  cases items with
  | nil => exact first.elim
  | cons j rest => exact ⟨j, rest, rfl, first⟩

section

variable {value P : Json → Prop}

theorem FirstMember.forall_mem {name : String} {others : List (String × Json) → Prop}
    (first : ∀ j, value j → P j) (behind : ∀ {rest}, others rest → ∀ m ∈ rest, P m.2)
    {members : List (String × Json)} (h : FirstMember name value others members) :
    ∀ m ∈ members, P m.2 := by
  obtain ⟨j, rest, rfl, here, others⟩ := h.exists_cons
  exact List.forall_mem_cons.mpr ⟨first j here, behind others⟩

theorem FirstItem.forall_mem {others : List Json → Prop} (first : ∀ j, value j → P j)
    (behind : ∀ {rest}, others rest → ∀ j ∈ rest, P j) {items : List Json}
    (h : FirstItem value others items) : ∀ j ∈ items, P j := by
  obtain ⟨j, rest, rfl, here, others⟩ := h.exists_cons
  exact List.forall_mem_cons.mpr ⟨first j here, behind others⟩

end

/-- How a value is written that may be absent. -/
def OptionWrites (writes : α → Json → Prop) : Option α → Json → Prop
  | none, j => j = .null
  | some a, j => writes a j

end

mutual

/-- Whether a value may be written in some way. Every record in it is written as an object or as an array of
its own; whatever else is in it is written in one way. -/
def Shape.Writes : {α : Type} → Shape α → α → Json → Prop
  | _, .list item, as, j => ∃ items, List.Forall₂ item.Writes as items ∧ j = .array items
  | _, .record _ fields _ split _, a, j =>
    (∃ members, fields.WritesMembers (split a) members ∧ j = .object members) ∨
      ∃ items, fields.WritesItems (split a) items ∧ j = .array items
  | _, shape, a, j => j = shape.write a

/-- Whether fields may be written as some members. A field that has its default may be missing. -/
def Fields.WritesMembers : {β : Type} → Fields β → β → List (String × Json) → Prop
  | _, .done, (), members => members = []
  | _, .required name shape rest, (a, b), members =>
    FirstMember name (shape.Writes a) (rest.WritesMembers b) members
  | _, .defaulted name shape fill rest, (a, b), members =>
    FirstMember name (shape.Writes a) (rest.WritesMembers b) members ∨
      a = fill ∧ rest.WritesMembers b members
  | _, .optional name shape rest, (a, b), members =>
    FirstMember name (OptionWrites shape.Writes a) (rest.WritesMembers b) members ∨
      a = none ∧ rest.WritesMembers b members

/-- Whether fields may be written as some items, in order. The items may end before the fields do, if all
fields that are left have their defaults; one that has to be there has none. -/
def Fields.WritesItems : {β : Type} → Fields β → β → List Json → Prop
  | _, .done, (), items => items = []
  | _, .required _ shape rest, (a, b), items => FirstItem (shape.Writes a) (rest.WritesItems b) items
  | _, .defaulted _ shape fill rest, (a, b), items =>
    FirstItem (shape.Writes a) (rest.WritesItems b) items ∨ items = [] ∧ a = fill ∧ rest.WritesItems b []
  | _, .optional _ shape rest, (a, b), items =>
    FirstItem (OptionWrites shape.Writes a) (rest.WritesItems b) items ∨
      items = [] ∧ a = none ∧ rest.WritesItems b []

end

/-! ### Parts of records -/

/-- A fold whose steps succeed is a fold of what comes of them. -/
theorem foldlM_map_eq_ok {ε σ α β : Type} {f : σ → β → Except ε σ} {g : σ → α → σ} {m : α → β}
    (h : ∀ s a, f s (m a) = .ok (g s a)) (as : List α) (s : σ) :
    (as.map m).foldlM f s = .ok (as.foldl g s) := by
  induction as generalizing s with
  | nil => rfl
  | cons a as ih =>
    rw [List.map_cons, List.foldlM_cons, h, List.foldl_cons]
    exact ih (g s a)

/-- Texts by name are what their list makes. -/
theorem insertMany_toList (ps : Properties) :
    ps.toList.foldl (fun ps p => ps.insert p.1 p.2) ∅ = ps := by
  have insertAll (l : List (String × String)) (start : Properties) :
      l.foldl (fun ps p => ps.insert p.1 p.2) start = start.insertMany l := by
    induction l generalizing start with
    | nil => rw [List.foldl_nil, Std.ExtTreeMap.insertMany_nil]
    | cons p l ih => rw [List.foldl_cons, ih, Std.ExtTreeMap.insertMany_cons]
  rw [insertAll, ← Std.ExtTreeMap.ofList_eq_insertMany_empty]
  refine Std.ExtTreeMap.ext_getElem? fun name => ?_
  by_cases held : name ∈ ps
  · obtain ⟨text, held⟩ := Option.isSome_iff_exists.mp (Std.ExtTreeMap.mem_iff_isSome_getElem?.mp held)
    rw [held]
    exact Std.ExtTreeMap.getElem?_ofList_of_mem Std.ReflOrd.compare_self ps.distinct_keys_toList
      (Std.ExtTreeMap.mem_toList_iff_getElem?_eq_some.mpr held)
  · rw [Std.ExtTreeMap.getElem?_eq_none held]
    refine Std.ExtTreeMap.getElem?_ofList_of_contains_eq_false ?_
    rw [Std.ExtTreeMap.map_fst_toList_eq_keys, Std.ExtTreeMap.contains_keys]
    exact Bool.eq_false_iff.mpr held

theorem readProperties_tree (ps : Properties) :
    readProperties (Shape.properties.write ps).tree = .ok ps := by
  rw [Shape.write, tree, treesOfMembers_eq, readProperties, List.map_map,
    foldlM_map_eq_ok (g := fun ps p => ps.insert p.1 p.2) (fun _ _ => rfl), insertMany_toList]
  rfl

namespace Choice

variable {α : Type} (choice : Choice α)

theorem ofName?_name (a : α) : choice.ofName? (choice.name a) = some a := by
  have found : (choice.ofName? (choice.name a)).isSome :=
    List.find?_isSome.mpr ⟨a, choice.mem_all a, decide_eq_true rfl⟩
  obtain ⟨b, eq⟩ := Option.isSome_iff_exists.mp found
  have same : choice.name b = choice.name a := by simpa using List.find?_some eq
  rw [eq, choice.name_injective same]

theorem ofName_name (a : α) : choice.ofName (choice.name a) = .ok a := by
  rw [ofName, ofName?_name]
  rfl

theorem read_name (mode : Mode) (a : α) :
    choice.read mode (.string (.ok (choice.name a))) = .ok a := by
  cases mode <;> exact choice.ofName_name a

end Choice

theorem Word.read_toNat {α : Type} (word : Word α) (a : α) :
    word.read (.number (.ok (.integer (word.toNat a)))) = .ok a := by
  have inRange : (0 : Int) ≤ word.toNat a ∧ (word.toNat a : Int).toNat < word.size :=
    ⟨Int.natCast_nonneg _, word.toNat_lt a⟩
  rw [read_integer, if_pos inRange, Int.toNat_natCast, word.ofNat_toNat]

/-- Only nothing is written as null. -/
theorem Shape.tree_ne_null {α : Type} {shape : Shape α} {a : α} {j : Json} (form : shape.Writes a j) :
    j.tree ≠ .literal (.ok .null) := by
  cases shape with
  | list =>
    obtain ⟨items, -, rfl⟩ := form
    exact nofun
  | record =>
    obtain ⟨members, -, rfl⟩ | ⟨items, -, rfl⟩ := form
    · exact nofun
    · exact nofun
  | _ =>
    obtain rfl : j = _ := form
    exact nofun

theorem readOptional_writes {α : Type} {shape : Shape α} {read : Tree → Except Problem α}
    (value : ∀ a j, shape.Writes a j → read j.tree = .ok a) {a : Option α} {j : Json}
    (form : OptionWrites shape.Writes a j) : readOptional read j.tree = .ok a := by
  cases a with
  | none =>
    obtain rfl : j = .null := form
    rfl
  | some a =>
    rw [readOptional_of_ne_null (Shape.tree_ne_null form), value a j form]
    rfl

/-! ### Fields -/

/-- Whether something is so of the shapes of all fields. -/
def Fields.Each (P : {α : Type} → Shape α → Prop) : {β : Type} → Fields β → Prop
  | _, .done => True
  | _, .required _ shape rest => P shape ∧ rest.Each P
  | _, .defaulted _ shape _ rest => P shape ∧ rest.Each P
  | _, .optional _ shape rest => P shape ∧ rest.Each P

/-- Whether a shape is read back from all forms of its values. -/
def Shape.ReadsBack (mode : Mode) {α : Type} (shape : Shape α) : Prop :=
  ∀ a j, shape.Writes a j → shape.read mode j.tree = .ok a

/-- Whether something is so of all forms of the values of a shape. -/
def Shape.AllForms (P : Json → Prop) {α : Type} (shape : Shape α) : Prop := ∀ a j, shape.Writes a j → P j

section

variable {P : Json → Prop} {α : Type} {shape : Shape α}

theorem OptionWrites.elim (null : P .null) (all : shape.AllForms P) {a : Option α} {j : Json}
    (form : OptionWrites shape.Writes a j) : P j := by
  cases a with
  | none =>
    obtain rfl : j = .null := form
    exact null
  | some a => exact all a j form

theorem forall_mem_of_forms (all : shape.AllForms P) {as : List α} {items : List Json}
    (forms : List.Forall₂ shape.Writes as items) : ∀ j ∈ items, P j := by
  induction forms with
  | nil => exact nofun
  | cons first _ ih => exact List.forall_mem_cons.mpr ⟨all _ _ first, ih⟩

/-- What is so of the null and of all forms of the values of fields is so of all members that the fields may be
written as. -/
theorem Fields.forall_mem_of_writesMembers (null : P .null) : {β : Type} → (fields : Fields β) →
    fields.Each (·.AllForms P) → {b : β} → {members : List (String × Json)} →
    fields.WritesMembers b members → ∀ m ∈ members, P m.2
  | _, .done, _, (), _, form => by
    obtain rfl : _ = [] := form
    exact nofun
  | _, .required _ _ rest, each, (a, _), _, form =>
    form.forall_mem (each.1 a) (rest.forall_mem_of_writesMembers null each.2)
  | _, .defaulted _ _ _ rest, each, (a, _), _, form => form.elim
    (·.forall_mem (each.1 a) (rest.forall_mem_of_writesMembers null each.2))
    (fun form => rest.forall_mem_of_writesMembers null each.2 form.2)
  | _, .optional _ _ rest, each, (_, _), _, form => form.elim
    (·.forall_mem (fun _ => OptionWrites.elim null each.1) (rest.forall_mem_of_writesMembers null each.2))
    (fun form => rest.forall_mem_of_writesMembers null each.2 form.2)

/-- And it is so of all items that the fields may be written as. -/
theorem Fields.forall_mem_of_writesItems (null : P .null) : {β : Type} → (fields : Fields β) →
    fields.Each (·.AllForms P) → {b : β} → {items : List Json} → fields.WritesItems b items →
    ∀ j ∈ items, P j
  | _, .done, _, (), _, form => by
    obtain rfl : _ = [] := form
    exact nofun
  | _, .required _ _ rest, each, (a, _), _, form =>
    form.forall_mem (each.1 a) (rest.forall_mem_of_writesItems null each.2)
  | _, .defaulted _ _ _ rest, each, (a, _), _, form => form.elim
    (·.forall_mem (each.1 a) (rest.forall_mem_of_writesItems null each.2))
    (fun form => form.1 ▸ nofun)
  | _, .optional _ _ rest, each, (_, _), _, form => form.elim
    (·.forall_mem (fun _ => OptionWrites.elim null each.1) (rest.forall_mem_of_writesItems null each.2))
    (fun form => form.1 ▸ nofun)

end

/-- Only names of fields are written. -/
theorem Fields.mem_names_of_writesMembers : {β : Type} → (fields : Fields β) → {b : β} →
    {members : List (String × Json)} → fields.WritesMembers b members → ∀ m ∈ members, m.1 ∈ fields.names
  | _, .done, (), _, form => by
    obtain rfl : _ = [] := form
    exact nofun
  | _, .required _ _ rest, (_, _), _, form => form.mem_names rest.mem_names_of_writesMembers
  | _, .defaulted _ _ _ rest, (_, _), _, form => form.elim
    (·.mem_names rest.mem_names_of_writesMembers)
    (fun form m mem => List.mem_cons_of_mem _ (rest.mem_names_of_writesMembers form.2 m mem))
  | _, .optional _ _ rest, (_, _), _, form => form.elim
    (·.mem_names rest.mem_names_of_writesMembers)
    (fun form m mem => List.mem_cons_of_mem _ (rest.mem_names_of_writesMembers form.2 m mem))

/-- A member as it is scanned. -/
def memberTree (m : String × Json) : Token String × Tree := (.ok m.1, m.2.tree)

/-- A name that no field has is not written. -/
theorem Fields.absent_of_notMem {β : Type} {fields : Fields β} {field : String}
    (unknown : field ∉ fields.names) {b : β} {members : List (String × Json)}
    (form : fields.WritesMembers b members) : ∀ m ∈ members.map memberTree, m.1.value ≠ .ok field := by
  rw [List.forall_mem_map]
  intro m mem same
  exact unknown (Except.ok.inj same ▸ fields.mem_names_of_writesMembers form m mem)

/-- **Members that fields may be written as are taken into slots that hold the fields.** -/
theorem Fields.take_writes (mode : Mode) : {β : Type} → (fields : Fields β) →
    fields.Each (·.ReadsBack mode) → fields.names.Nodup → {b : β} → {members : List (String × Json)} →
    fields.WritesMembers b members →
    ∃ slots, (members.map memberTree).foldlM (takeMember (fields.put mode)) fields.empty = .ok slots ∧
      fields.collect slots = .ok b
  | _, .done, _, _, (), _, form => by
    obtain rfl : _ = [] := form
    exact ⟨(), rfl, rfl⟩
  | _, .required _ shape rest, each, nodup, (a, b), _, form => by
    obtain ⟨new, distinct⟩ := List.nodup_cons.mp nodup
    obtain ⟨j, others, rfl, first, form⟩ := form.exists_cons
    obtain ⟨slots, taken, collected⟩ := rest.take_writes mode each.2 distinct form
    refine ⟨(some a, slots), ?_, bind_eq_ok.mpr ⟨b, collected, rfl⟩⟩
    rw [put_required]
    exact foldlM_putFirst_cons rfl (Fields.absent_of_notMem new form) (each.1 a j first) taken
  | _, .defaulted _ shape fill rest, each, nodup, (a, b), _, form => by
    obtain ⟨new, distinct⟩ := List.nodup_cons.mp nodup
    rw [put_defaulted]
    rcases form with form | ⟨rfl, form⟩
    · obtain ⟨j, others, rfl, first, form⟩ := form.exists_cons
      obtain ⟨slots, taken, collected⟩ := rest.take_writes mode each.2 distinct form
      exact ⟨(some a, slots),
        foldlM_putFirst_cons rfl (Fields.absent_of_notMem new form) (each.1 a j first) taken,
        bind_eq_ok.mpr ⟨b, collected, rfl⟩⟩
    · -- no other field has the name, so the slot stays empty
      obtain ⟨slots, taken, collected⟩ := rest.take_writes mode each.2 distinct form
      exact ⟨(none, slots), foldlM_putFirst (Fields.absent_of_notMem new form) none taken,
        bind_eq_ok.mpr ⟨b, collected, rfl⟩⟩
  | _, .optional _ shape rest, each, nodup, (a, b), _, form => by
    obtain ⟨new, distinct⟩ := List.nodup_cons.mp nodup
    rw [put_optional]
    rcases form with form | ⟨rfl, form⟩
    · obtain ⟨j, others, rfl, first, form⟩ := form.exists_cons
      obtain ⟨slots, taken, collected⟩ := rest.take_writes mode each.2 distinct form
      exact ⟨(some a, slots), foldlM_putFirst_cons rfl (Fields.absent_of_notMem new form)
        (readOptional_writes each.1 first) taken, bind_eq_ok.mpr ⟨b, collected, by cases a <;> rfl⟩⟩
    · obtain ⟨slots, taken, collected⟩ := rest.take_writes mode each.2 distinct form
      exact ⟨(none, slots), foldlM_putFirst (Fields.absent_of_notMem new form) none taken,
        bind_eq_ok.mpr ⟨b, collected, rfl⟩⟩

/-- **Items that fields may be written as are read as the fields.** -/
theorem Fields.ofItems_writes (mode : Mode) : {β : Type} → (fields : Fields β) →
    fields.Each (·.ReadsBack mode) → {b : β} → {items : List Json} → fields.WritesItems b items →
    (wanted : String) → (index : Nat) →
    fields.ofItems mode wanted index (items.map tree) .closed = .ok b
  | _, .done, _, (), _, form, _, _ => by
    obtain rfl : _ = [] := form
    cases mode <;> rfl
  | _, .required _ shape rest, each, (a, b), _, form, wanted, index => by
    obtain ⟨j, others, rfl, first, form⟩ := form.exists_cons
    rw [ofItems_required, List.map_cons, itemsFirst_cons_eq_ok]
    exact ⟨each.1 a j first, rest.ofItems_writes mode each.2 form wanted (index + 1)⟩
  | _, .defaulted _ shape fill rest, each, (a, b), _, form, wanted, index => by
    rw [ofItems_defaulted]
    rcases form with form | ⟨rfl, rfl, form⟩
    · obtain ⟨j, others, rfl, first, form⟩ := form.exists_cons
      exact itemsFirst_cons_eq_ok.mpr
        ⟨each.1 a j first, rest.ofItems_writes mode each.2 form wanted (index + 1)⟩
    · exact itemsFirst_nil_eq_ok.mpr ⟨rfl, rest.ofItems_writes mode each.2 form wanted (index + 1)⟩
  | _, .optional _ shape rest, each, (a, b), _, form, wanted, index => by
    rw [ofItems_optional]
    rcases form with form | ⟨rfl, rfl, form⟩
    · obtain ⟨j, others, rfl, first, form⟩ := form.exists_cons
      exact itemsFirst_cons_eq_ok.mpr
        ⟨readOptional_writes each.1 first, rest.ofItems_writes mode each.2 form wanted (index + 1)⟩
    · exact itemsFirst_nil_eq_ok.mpr ⟨rfl, rest.ofItems_writes mode each.2 form wanted (index + 1)⟩

/-! ### Reading -/

mutual

/-- **A sound shape is read back from all forms of its values.** -/
theorem Shape.readsBack (mode : Mode) : {α : Type} → (shape : Shape α) → shape.Sound →
    shape.ReadsBack mode
  | _, .word word, _, a, _, form => (show _ = _ from form) ▸ word.read_toNat a
  | _, .flag, _, _, _, form => (show _ = _ from form) ▸ rfl
  | _, .string, _, _, _, form => (show _ = _ from form) ▸ rfl
  | _, .choice choice, _, a, _, form => (show _ = _ from form) ▸ choice.read_name mode a
  | _, .properties, _, ps, _, form => (show _ = _ from form) ▸ readProperties_tree ps
  | _, .list item, sound, as, _, form => by
    obtain ⟨items, forms, rfl⟩ := form
    have read : (items.map tree).mapM (item.read mode) = .ok as := by
      rw [mapM_eq_ok, List.forall₂_map_left_iff]
      exact forms.flip.imp fun _ _ => item.readsBack mode sound _ _
    rw [tree, treesOfItems_eq, Shape.read, readList, readItems, read]
    rfl
  | _, .record _ fields _ split make_split, sound, a, _, form => by
    have each := fields.readsBack mode sound.2
    rcases form with ⟨members, form, rfl⟩ | ⟨items, form, rfl⟩
    · obtain ⟨slots, taken, collected⟩ := fields.take_writes mode each sound.1 form
      rw [tree, treesOfMembers_eq, read_object_eq_ok]
      exact ⟨slots, split a, taken, collected, make_split a⟩
    · rw [tree, treesOfItems_eq, read_array_eq_ok]
      exact ⟨split a, fields.ofItems_writes mode each form _ 0, make_split a⟩

theorem Fields.readsBack (mode : Mode) : {β : Type} → (fields : Fields β) → fields.Sound →
    fields.Each (·.ReadsBack mode)
  | _, .done, _ => trivial
  | _, .required _ shape rest, sound => ⟨shape.readsBack mode sound.1, rest.readsBack mode sound.2⟩
  | _, .defaulted _ shape _ rest, sound => ⟨shape.readsBack mode sound.1, rest.readsBack mode sound.2⟩
  | _, .optional _ shape rest, sound => ⟨shape.readsBack mode sound.1, rest.readsBack mode sound.2⟩

end

/-! ### Nesting -/

mutual

/-- The levels of arrays and objects of what is written in a shape. -/
def Shape.depth : {α : Type} → Shape α → Nat
  | _, .list item => item.depth + 1
  | _, .properties => 1
  | _, .record _ fields _ _ _ => fields.depth + 1
  | _, _ => 0

/-- The levels below the members of a record. -/
def Fields.depth : {β : Type} → Fields β → Nat
  | _, .done => 0
  | _, .required _ shape rest => max shape.depth rest.depth
  | _, .defaulted _ shape _ rest => max shape.depth rest.depth
  | _, .optional _ shape rest => max shape.depth rest.depth

end

theorem settle_literal (room : Nat) (word : Literal) : (Tree.literal (.ok word)).settle room = .ok () := by
  rw [Tree.settle]
  rfl

theorem settle_number (room : Nat) (n : Number) : (Tree.number (.ok n)).settle room = .ok () := by
  rw [Tree.settle]
  rfl

theorem settle_string (room : Nat) (text : String) : (Tree.string (.ok text)).settle room = .ok () := by
  rw [Tree.settle]
  rfl

mutual

/-- All forms can be settled where there is room for the nesting. -/
theorem Shape.settles : {α : Type} → (shape : Shape α) → {room : Nat} → shape.depth ≤ room →
    shape.AllForms (·.tree.settle room = .ok ())
  | _, .word _, _, _, _, _, form => (show _ = _ from form) ▸ settle_number _ _
  | _, .flag, _, _, _, _, form => (show _ = _ from form) ▸ settle_literal _ _
  | _, .string, _, _, _, _, form => (show _ = _ from form) ▸ settle_string _ _
  | _, .choice _, _, _, _, _, form => (show _ = _ from form) ▸ settle_string _ _
  | _, .properties, room + 1, _, ps, _, form => by
    obtain rfl := (show _ = _ from form)
    show (tree _).settle _ = _
    rw [Shape.write, tree, treesOfMembers_eq, settle_object_eq_ok, List.map_map]
    refine ⟨room, rfl, fun m mem => ?_⟩
    obtain ⟨p, -, rfl⟩ := List.mem_map.mp mem
    exact ⟨⟨p.1, rfl⟩, settle_string room p.2⟩
  | _, .list item, room + 1, fits, as, _, form => by
    obtain ⟨items, forms, rfl⟩ := form
    show (tree _).settle _ = _
    rw [tree, treesOfItems_eq, settle_array_eq_ok]
    refine ⟨room, rfl, List.forall_mem_map.mpr ?_⟩
    exact forall_mem_of_forms (item.settles (Nat.le_of_succ_le_succ fits)) forms
  | _, .record _ fields _ split _, room + 1, fits, a, _, form => by
    have each := fields.settles (Nat.le_of_succ_le_succ fits)
    have null : (tree .null).settle room = .ok () := settle_literal room .null
    rcases form with ⟨members, form, rfl⟩ | ⟨items, form, rfl⟩
    · show (tree _).settle _ = _
      rw [tree, treesOfMembers_eq, settle_object_eq_ok]
      refine ⟨room, rfl, List.forall_mem_map.mpr fun m mem => ?_⟩
      exact ⟨⟨m.1, rfl⟩, fields.forall_mem_of_writesMembers null each form m mem⟩
    · show (tree _).settle _ = _
      rw [tree, treesOfItems_eq, settle_array_eq_ok]
      exact ⟨room, rfl, List.forall_mem_map.mpr (fields.forall_mem_of_writesItems null each form)⟩

theorem Fields.settles : {β : Type} → (fields : Fields β) → {room : Nat} → fields.depth ≤ room →
    fields.Each (·.AllForms (·.tree.settle room = .ok ()))
  | _, .done, _, _ => trivial
  | _, .required _ shape rest, _, fits =>
    have ⟨here, behind⟩ := Nat.max_le.mp fits
    ⟨shape.settles here, rest.settles behind⟩
  | _, .defaulted _ shape _ rest, _, fits =>
    have ⟨here, behind⟩ := Nat.max_le.mp fits
    ⟨shape.settles here, rest.settles behind⟩
  | _, .optional _ shape rest, _, fits =>
    have ⟨here, behind⟩ := Nat.max_le.mp fits
    ⟨shape.settles here, rest.settles behind⟩

end

/-! ### Spelling -/

mutual

/-- All forms of the values of a sound shape can be spelled. -/
theorem Shape.spellable : {α : Type} → (shape : Shape α) → shape.Sound → shape.AllForms Spellable
  | _, .word word, sound, a, _, form => (show _ = _ from form) ▸
    .number (Nat.le_sub_one_of_lt (Nat.lt_of_lt_of_le (word.toNat_lt a) sound))
  | _, .flag, _, b, _, form => (show _ = _ from form) ▸ .flag b
  | _, .string, _, s, _, form => (show _ = _ from form) ▸ .string s
  | _, .choice choice, _, a, _, form => (show _ = _ from form) ▸ .string (choice.name a)
  | _, .properties, _, ps, _, form => (show _ = _ from form) ▸ .object fun m mem => by
    obtain ⟨p, -, rfl⟩ := List.mem_map.mp mem
    exact .string p.2
  | _, .list item, sound, as, _, form => by
    obtain ⟨items, forms, rfl⟩ := form
    exact .array (forall_mem_of_forms (item.spellable sound) forms)
  | _, .record _ fields _ split _, sound, a, _, form => by
    have each := fields.spellable sound.2
    rcases form with ⟨members, form, rfl⟩ | ⟨items, form, rfl⟩
    · exact .object (fields.forall_mem_of_writesMembers .null each form)
    · exact .array (fields.forall_mem_of_writesItems .null each form)

theorem Fields.spellable : {β : Type} → (fields : Fields β) → fields.Sound →
    fields.Each (·.AllForms Spellable)
  | _, .done, _ => trivial
  | _, .required _ shape rest, sound => ⟨shape.spellable sound.1, rest.spellable sound.2⟩
  | _, .defaulted _ shape _ rest, sound => ⟨shape.spellable sound.1, rest.spellable sound.2⟩
  | _, .optional _ shape rest, sound => ⟨shape.spellable sound.1, rest.spellable sound.2⟩

end

/-! ### Tagged types -/

namespace Tagged

variable {α : Type} {tagged : Tagged α}

variable (tagged) in
/-- Whether a value of a tagged type may be written in some way: as an object whose first member is the tag, or
as an array whose first item is. -/
def Writes (a : α) (j : Json) : Prop :=
  let ⟨tag, content⟩ := tagged.split a
  let name := Json.string (tagged.tags.name tag)
  (∃ members, (tagged.fields tag).WritesMembers content members ∧
    j = .object ((tagged.field, name) :: members)) ∨
  ∃ items, (tagged.fields tag).WritesItems content items ∧ j = .array (name :: items)

variable (tagged) in
/-- Whether what is written of a tagged type can be told apart again: the tag has another name than
all fields, and there is room for the nesting of each kind. -/
structure Sound : Prop where
  fields (tag : tagged.Tag) : (tagged.fields tag).Sound
  nodup (tag : tagged.Tag) : (tagged.field :: (tagged.fields tag).names).Nodup
  depth (tag : tagged.Tag) : (tagged.fields tag).depth < nestingRoom

/-- **A value of a sound tagged type is read back from all its forms.** -/
theorem Sound.read_writes (sound : tagged.Sound) {a : α} {j : Json} (form : tagged.Writes a j) :
    tagged.read nestingRoom j.tree = .ok a := by
  obtain ⟨tag, content, split⟩ : ∃ tag content, tagged.split a = ⟨tag, content⟩ := ⟨_, _, rfl⟩
  have made : tagged.make tag content = a := by rw [← tagged.make_split a, split]
  obtain ⟨notField, nodup⟩ := List.nodup_cons.mp (sound.nodup tag)
  -- the tagged value itself takes a level of the room
  obtain ⟨room, eq⟩ : ∃ room, nestingRoom = room + 1 := ⟨_, rfl⟩
  have fits : (tagged.fields tag).depth ≤ room := by
    have bound := sound.depth tag
    omega
  have each := Fields.readsBack .settled _ (sound.fields tag)
  have settles := Fields.settles _ fits
  have null : (tree .null).settle room = .ok () := settle_literal room .null
  have readTag := tagged.tags.ofName_name tag
  unfold Writes at form
  rw [split] at form
  rcases form with ⟨members, form, rfl⟩ | ⟨items, form, rfl⟩
  · obtain ⟨slots, taken, collected⟩ := Fields.take_writes .settled _ each nodup form
    rw [tree, treesOfMembers_eq, List.map_cons, eq, read_object_eq_ok]
    refine ⟨tag, _, slots, content, gather_eq_ok.mpr ⟨[], _, _, rfl, rfl, ⟨rfl, readTag⟩, ?_⟩, taken,
      collected, made⟩
    refine List.forall_mem_map.mpr fun m mem => ?_
    have isField := Fields.mem_names_of_writesMembers _ form m mem
    exact ⟨⟨m.1, rfl, fun same => notField (same ▸ isField)⟩,
      Fields.forall_mem_of_writesMembers null _ settles form m mem⟩
  · rw [tree, treesOfItems_eq, List.map_cons, eq, read_array_eq_ok]
    refine ⟨_, _, tag, content, rfl, readTag, ?_, Fields.ofItems_writes .settled _ each form _ 0, made⟩
    exact List.forall_mem_map.mpr (Fields.forall_mem_of_writesItems null _ settles form)

/-- All forms of the values of a sound tagged type can be spelled. -/
theorem Sound.spellable (sound : tagged.Sound) {a : α} {j : Json} (form : tagged.Writes a j) :
    j.Spellable := by
  have each := Fields.spellable _ (sound.fields (tagged.split a).1)
  rcases form with ⟨members, form, rfl⟩ | ⟨items, form, rfl⟩
  · exact .object (List.forall_mem_cons.mpr
      ⟨.string _, Fields.forall_mem_of_writesMembers .null _ each form⟩)
  · exact .array (List.forall_mem_cons.mpr
      ⟨.string _, Fields.forall_mem_of_writesItems .null _ each form⟩)

end Tagged

end StateReplica.Json
