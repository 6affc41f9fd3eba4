import StateReplica.Proofs.Json.Spelling
import StateReplica.Proofs.Json.Tagged

/-!
What does not matter in the text of a record: the order of its members, and members of names it does not
know. A spelling varies another one, as the shape describes it, if the members of record objects are
changed at any level (`Shape.Varies`): those of the record itself, of records in its fields and lists,
and of records that are spelled as arrays. Nothing else is changed, but for the blanks around items and
members, which never matter; objects that are no records, such as those of strings by name, stay as they
are.

What is read stays the same if the change does no harm to a single record (`Harmless`,
`Shape.read_varies`). Two changes are harmless: putting the members into another order (`Reordered`) and
adding members of unknown names with any value (`Enriched`). A tagged type may be put into another order,
its tag included (`Tagged.read_varies`); it is not asked whether unknown members do it harm.
-/

namespace StateReplica.Json

/-- A change of the members of a record with fields of some names. -/
abbrev Change := List String → List (Member Spelling) → List (Member Spelling) → Prop

/-- Whether arrays are the same but for items that vary. What is no array stays as it is. -/
def ArraysVary (item : Spelling → Spelling → Prop) : Spelling → Spelling → Prop
  | .array _ items, .array _ items' => List.Forall₂ (fun i j => item i.value j.value) items items'
  | x, y => y = x

/-- Whether the members of objects, or else the items of arrays, vary. What is neither an object nor an
array stays as it is. -/
def RecordsVary (members : List (Member Spelling) → List (Member Spelling) → Prop)
    (items : List (Spaced Spelling) → List (Spaced Spelling) → Prop) : Spelling → Spelling → Prop
  | .object _ ms, .object _ ms' => members ms ms'
  | .array _ is, .array _ is' => items is is'
  | x, y => y = x

/-- Whether a value varies, in one way at a field and in other ways elsewhere. -/
def FieldVaries (field : String) (first : Spelling → Spelling → Prop)
    (others : String → Spelling → Spelling → Prop) (name : String) (x y : Spelling) : Prop :=
  (name = field → first x y) ∧ (name ≠ field → others name x y)

theorem FieldVaries.elim {field : String} {first : Spelling → Spelling → Prop}
    {others : String → Spelling → Spelling → Prop} {name : String} {x y : Spelling} {P : Prop}
    (vary : FieldVaries field first others name x y) (here : first x y → P)
    (elsewhere : others name x y → P) : P := by
  by_cases eq : name = field
  · exact here (vary.1 eq)
  · exact elsewhere (vary.2 eq)

/-- Whether the first of some items and those behind it vary. -/
def FirstVaries (first : Spelling → Spelling → Prop)
    (others : List (Spaced Spelling) → List (Spaced Spelling) → Prop) :
    List (Spaced Spelling) → List (Spaced Spelling) → Prop
  | i :: items, j :: items' => first i.value j.value ∧ others items items'
  | items, items' => items' = items

theorem FirstVaries.refl {first : Spelling → Spelling → Prop}
    {others : List (Spaced Spelling) → List (Spaced Spelling) → Prop} (same : ∀ x, first x x)
    (rest : ∀ items, others items items) (items : List (Spaced Spelling)) :
    FirstVaries first others items items := by
  cases items with
  | nil => rfl
  | cons i items => exact ⟨same i.value, rest items⟩

/-- Whether a member keeps its name and its value varies, as its name says. -/
structure MemberVaries (vary : String → Spelling → Spelling → Prop) (m n : Member Spelling) : Prop where
  name : n.name = m.name
  value : ∀ name, (lettersToken m.name).value = .ok name → vary name m.value n.value

section

variable (change : Change)

/-- Whether members become others: they vary one by one, and then they are changed. -/
def MembersVary (names : List String) (vary : String → Spelling → Spelling → Prop)
    (members members' : List (Member Spelling)) : Prop :=
  ∃ between, List.Forall₂ (MemberVaries vary) members between ∧ change names between members'

mutual

/-- Whether a spelling becomes another one by changes of the members of records. -/
def Shape.Varies : {α : Type} → Shape α → Spelling → Spelling → Prop
  | _, .list item => ArraysVary item.Varies
  | _, .record _ fields _ _ _ =>
    RecordsVary (MembersVary change fields.names fields.VaryAt) fields.VaryInOrder
  | _, _ => fun x y => y = x

/-- Whether the value of a member of some name becomes another one. -/
def Fields.VaryAt : {β : Type} → Fields β → String → Spelling → Spelling → Prop
  | _, .done => fun _ x y => y = x
  | _, .required field shape rest => FieldVaries field shape.Varies rest.VaryAt
  | _, .defaulted field shape _ rest => FieldVaries field shape.Varies rest.VaryAt
  | _, .optional field shape rest => FieldVaries field shape.Varies rest.VaryAt

/-- Whether the items of an array, read as fields, become others. -/
def Fields.VaryInOrder : {β : Type} → Fields β → List (Spaced Spelling) → List (Spaced Spelling) → Prop
  | _, .done => fun items items' => items' = items
  | _, .required _ shape rest => FirstVaries shape.Varies rest.VaryInOrder
  | _, .defaulted _ shape _ rest => FirstVaries shape.Varies rest.VaryInOrder
  | _, .optional _ shape rest => FirstVaries shape.Varies rest.VaryInOrder

end

/-- Whether a spelling of a tagged type becomes another one. Its tag stays as it is. -/
def Tagged.Varies {α : Type} (tagged : Tagged α) : Spelling → Spelling → Prop :=
  RecordsVary
    (fun members members' => ∃ tag, (∃ m ∈ members, tagged.Holds tag m.tree) ∧
      MembersVary change (tagged.field :: (tagged.fields tag).names) ((tagged.fields tag).VaryAt change)
        members members')
    (fun items items' => ∃ tag, (∃ t ∈ items.head?, tagged.readTag t.value.tree = .ok tag) ∧
      FirstVaries (fun x y => y = x) ((tagged.fields tag).VaryInOrder change) items items')

end

/-! ### Changing one record -/

section

variable {change : Change}

theorem MembersVary.of_change {names : List String} {vary : String → Spelling → Spelling → Prop}
    (keeps : ∀ name x, vary name x x) {members members' : List (Member Spelling)}
    (changed : change names members members') : MembersVary change names vary members members' :=
  ⟨members, List.forall₂_same.mpr fun m _ => ⟨rfl, fun name _ => keeps name m.value⟩, changed⟩

mutual

/-- A spelling varies itself, where members may stay as they are. -/
theorem Shape.varies_refl (keeps : ∀ names members, change names members members) : {α : Type} →
    (shape : Shape α) → (x : Spelling) → shape.Varies change x x
  | _, .word _, _ => rfl
  | _, .flag, _ => rfl
  | _, .string, _ => rfl
  | _, .choice _, _ => rfl
  | _, .properties, _ => rfl
  | _, .list item, x => by
    cases x with
    | array inner items => exact List.forall₂_same.mpr fun i _ => item.varies_refl keeps i.value
    | _ => rfl
  | _, .record _ fields _ _ _, x => by
    cases x with
    | array inner items => exact fields.varyInOrder_refl keeps items
    | object inner members => exact .of_change (fields.varyAt_refl keeps) (keeps _ members)
    | _ => rfl

theorem Fields.varyAt_refl (keeps : ∀ names members, change names members members) : {β : Type} →
    (fields : Fields β) → (name : String) → (x : Spelling) → fields.VaryAt change name x x
  | _, .done, _, _ => rfl
  | _, .required _ shape rest, name, x =>
    ⟨fun _ => shape.varies_refl keeps x, fun _ => rest.varyAt_refl keeps name x⟩
  | _, .defaulted _ shape _ rest, name, x =>
    ⟨fun _ => shape.varies_refl keeps x, fun _ => rest.varyAt_refl keeps name x⟩
  | _, .optional _ shape rest, name, x =>
    ⟨fun _ => shape.varies_refl keeps x, fun _ => rest.varyAt_refl keeps name x⟩

theorem Fields.varyInOrder_refl (keeps : ∀ names members, change names members members) : {β : Type} →
    (fields : Fields β) → (items : List (Spaced Spelling)) → fields.VaryInOrder change items items
  | _, .done, _ => rfl
  | _, .required _ shape rest, items =>
    FirstVaries.refl (shape.varies_refl keeps) (rest.varyInOrder_refl keeps) items
  | _, .defaulted _ shape _ rest, items =>
    FirstVaries.refl (shape.varies_refl keeps) (rest.varyInOrder_refl keeps) items
  | _, .optional _ shape rest, items =>
    FirstVaries.refl (shape.varies_refl keeps) (rest.varyInOrder_refl keeps) items

end

/-- A record of which only the members themselves are changed varies. -/
theorem Shape.varies_of_change (keeps : ∀ names members, change names members members) {α β : Type}
    {name : String} {fields : Fields β} {make : β → α} {split : α → β}
    {make_split : ∀ a, make (split a) = a} {inner inner' : Blanks}
    {members members' : List (Member Spelling)} (changed : change fields.names members members') :
    (Shape.record name fields make split make_split).Varies change (.object inner members)
      (.object inner' members') :=
  .of_change (fields.varyAt_refl keeps) changed

end

/-! ### The two changes -/

/-- The same members in another order. -/
def Reordered : Change := fun _ members members' => members.Perm members'

/-- More members, of names that are not known. -/
inductive Enriched (names : List String) : List (Member Spelling) → List (Member Spelling) → Prop
  | done : Enriched names [] []
  | keep (m : Member Spelling) {members members' : List (Member Spelling)} :
      Enriched names members members' → Enriched names (m :: members) (m :: members')
  | add (m : Member Spelling) {name : String} (named : (lettersToken m.name).value = .ok name)
      (unknown : name ∉ names) {members members' : List (Member Spelling)} :
      Enriched names members members' → Enriched names members (m :: members')

theorem reordered_refl (names : List String) (members : List (Member Spelling)) :
    Reordered names members members := .refl members

theorem enriched_refl (names : List String) (members : List (Member Spelling)) :
    Enriched names members members := by
  induction members with
  | nil => exact .done
  | cons m _ ih => exact .keep m ih

/-- Whether a change does no harm to a record: what was taken of its members is taken after it. -/
def Harmless (change : Change) : Prop :=
  ∀ {mode : Mode} {β : Type} {fields : Fields β} {members members' : List (Member Spelling)}
    {slots slots' : fields.Slots}, change fields.names members members' →
    (members.map Member.tree).foldlM (takeMember (fields.put mode)) slots = .ok slots' →
    (members'.map Member.tree).foldlM (takeMember (fields.put mode)) slots = .ok slots'

theorem reordered_harmless : Harmless Reordered :=
  fun perm taken => foldlM_takeMember_perm _ _ (perm.map Member.tree) taken

/-- What is spelled is passed over, whatever it is. -/
theorem Spelling.pass_tree (x : Spelling) : x.tree.pass = .ok () := by
  induction x with
  | literal word => rfl
  | number n => rfl
  | string ls => rfl
  | array inner items ih =>
    have passed : passItems (items.map (·.value.tree)) = .ok () := by
      clear inner
      induction items with
      | nil => rfl
      | cons i items ih' =>
        obtain ⟨first, others⟩ := List.forall_mem_cons.mp ih
        rw [List.map_cons, passItems, first]
        exact ih' others
    rw [tree_array, Tree.pass, passed]
    rfl
  | object inner members ih =>
    have passed : passMembers (members.map Member.tree) = .ok () := by
      clear inner
      induction members with
      | nil => rfl
      | cons m members ih' =>
        obtain ⟨first, others⟩ := List.forall_mem_cons.mp ih
        rw [List.map_cons, Member.tree, passMembers, first]
        exact ih' others
    rw [tree_object, Tree.pass, passed]
    rfl

theorem enriched_harmless : Harmless Enriched := by
  intro mode β fields members members' slots slots' enriched taken
  induction enriched generalizing slots with
  | done => exact taken
  | keep m _ ih =>
    obtain ⟨s, first, rest⟩ := foldlM_cons_eq_ok.mp taken
    exact foldlM_cons_eq_ok.mpr ⟨s, first, ih rest⟩
  | @add m name named unknown _ _ _ ih =>
    refine foldlM_cons_eq_ok.mpr ⟨slots, takeMember_eq_ok.mpr ⟨name, named, .inr ⟨?_, ?_, rfl⟩⟩, ih taken⟩
    · exact (fields.put_eq_none mode slots name _).mpr unknown
    · exact m.value.pass_tree

/-! ### Reading -/

variable {change : Change}

/-- A member of a name that no field has is not varied. -/
theorem Fields.varyAt_of_notMem : {β : Type} → (fields : Fields β) → {name : String} →
    name ∉ fields.names → {x y : Spelling} → fields.VaryAt change name x y → y = x
  | _, .done, _, _, _, _, vary => vary
  | _, .required _ _ rest, _, unknown, _, _, vary =>
    have ⟨ne, unknown⟩ := not_or.mp (List.mem_cons.not.mp unknown)
    rest.varyAt_of_notMem unknown (vary.2 ne)
  | _, .defaulted _ _ _ rest, _, unknown, _, _, vary =>
    have ⟨ne, unknown⟩ := not_or.mp (List.mem_cons.not.mp unknown)
    rest.varyAt_of_notMem unknown (vary.2 ne)
  | _, .optional _ _ rest, _, unknown, _, _, vary =>
    have ⟨ne, unknown⟩ := not_or.mp (List.mem_cons.not.mp unknown)
    rest.varyAt_of_notMem unknown (vary.2 ne)

section

variable {x y : Spelling}

theorem ArraysVary.cases {item : Spelling → Spelling → Prop} (vary : ArraysVary item x y) :
    y = x ∨ ∃ inner items inner' items', x = .array inner items ∧ y = .array inner' items' ∧
      List.Forall₂ (fun i j => item i.value j.value) items items' := by
  rw [ArraysVary.eq_def] at vary
  split at vary
  next => exact .inr ⟨_, _, _, _, rfl, rfl, vary⟩
  next => exact .inl vary

theorem RecordsVary.cases {members : List (Member Spelling) → List (Member Spelling) → Prop}
    {items : List (Spaced Spelling) → List (Spaced Spelling) → Prop}
    (vary : RecordsVary members items x y) :
    y = x ∨
      (∃ inner ms inner' ms', x = .object inner ms ∧ y = .object inner' ms' ∧ members ms ms') ∨
      ∃ inner is inner' is', x = .array inner is ∧ y = .array inner' is' ∧ items is is' := by
  rw [RecordsVary.eq_def] at vary
  split at vary
  next => exact .inr (.inl ⟨_, _, _, _, rfl, rfl, vary⟩)
  next => exact .inr (.inr ⟨_, _, _, _, rfl, rfl, vary⟩)
  next => exact .inl vary

/-- What is varied is the same, or it is not null before and after. -/
theorem Shape.varies_ne_null {α : Type} {shape : Shape α} (vary : shape.Varies change x y) :
    y = x ∨ x.tree ≠ .literal (.ok .null) ∧ y.tree ≠ .literal (.ok .null) := by
  cases shape with
  | list =>
    obtain same | ⟨_, _, _, _, rfl, rfl, _⟩ := vary.cases
    · exact .inl same
    · exact .inr ⟨nofun, nofun⟩
  | record =>
    obtain same | ⟨_, _, _, _, rfl, rfl, _⟩ | ⟨_, _, _, _, rfl, rfl, _⟩ := vary.cases
    · exact .inl same
    · exact .inr ⟨nofun, nofun⟩
    · exact .inr ⟨nofun, nofun⟩
  | _ => exact .inl vary

end

theorem readOptional_varies {α : Type} {shape : Shape α} {read : Tree → Except Problem α}
    {x y : Spelling} (vary : shape.Varies change x y)
    (value : ∀ {a}, read x.tree = .ok a → read y.tree = .ok a) {a : Option α}
    (ok : readOptional read x.tree = .ok a) : readOptional read y.tree = .ok a := by
  rcases Shape.varies_ne_null vary with rfl | ⟨before, after⟩
  · exact ok
  · rw [readOptional_of_ne_null before] at ok
    obtain ⟨b, read, rfl⟩ := map_eq_ok.mp ok
    rw [readOptional_of_ne_null after, value read]
    rfl

theorem mapM_forall₂ {α : Type} {read : Tree → Except Problem α}
    {R : Spaced Spelling → Spaced Spelling → Prop}
    (value : ∀ i j a, R i j → read i.value.tree = .ok a → read j.value.tree = .ok a)
    {items items' : List (Spaced Spelling)} (vary : List.Forall₂ R items items') {as : List α}
    (ok : (items.map (·.value.tree)).mapM read = .ok as) :
    (items'.map (·.value.tree)).mapM read = .ok as := by
  induction vary generalizing as with
  | nil => exact ok
  | cons first _ ih =>
    rw [List.map_cons, List.mapM_cons] at ok ⊢
    obtain ⟨a, head, rest⟩ := bind_eq_ok.mp ok
    obtain ⟨as, tail, rest⟩ := bind_eq_ok.mp rest
    exact bind_eq_ok.mpr ⟨a, value _ _ a first head, bind_eq_ok.mpr ⟨as, ih tail, rest⟩⟩

theorem foldlM_forall₂ {σ : Type} {take : σ → Token String × Tree → Except Problem σ}
    {R : Member Spelling → Member Spelling → Prop}
    (value : ∀ m n s s', R m n → take s m.tree = .ok s' → take s n.tree = .ok s')
    {members members' : List (Member Spelling)} (vary : List.Forall₂ R members members') {s s' : σ}
    (ok : (members.map Member.tree).foldlM take s = .ok s') :
    (members'.map Member.tree).foldlM take s = .ok s' := by
  induction vary generalizing s with
  | nil => exact ok
  | cons first _ ih =>
    obtain ⟨s'', head, rest⟩ := foldlM_cons_eq_ok.mp ok
    exact foldlM_cons_eq_ok.mpr ⟨s'', value _ _ s s'' first head, ih rest⟩

theorem MemberVaries.named {vary : String → Spelling → Spelling → Prop} {m n : Member Spelling}
    (h : MemberVaries vary m n) {name : String} (named : (lettersToken m.name).value = .ok name) :
    (lettersToken n.name).value = .ok name := h.name.symm ▸ named

/-- Members that vary are taken alike. -/
theorem takeMember_varies {mode : Mode} {β : Type} {fields : Fields β}
    (put : ∀ {name : String} {x y : Spelling}, fields.VaryAt change name x y → ∀ slots s,
      fields.put mode slots name x.tree = some (.ok s) → fields.put mode slots name y.tree = some (.ok s))
    {m n : Member Spelling} (vary : MemberVaries (fields.VaryAt change) m n) {slots s : fields.Slots}
    (ok : takeMember (fields.put mode) slots m.tree = .ok s) :
    takeMember (fields.put mode) slots n.tree = .ok s := by
  obtain ⟨name, named, taken⟩ := takeMember_eq_ok.mp ok
  refine takeMember_eq_ok.mpr ⟨name, vary.named named, ?_⟩
  rcases taken with taken | ⟨none, -, rfl⟩
  · exact .inl (put (vary.value name named) slots s taken)
  · have unknown := (fields.put_eq_none mode s name _).mp none
    exact .inr ⟨(fields.put_eq_none mode s name _).mpr unknown, n.value.pass_tree, rfl⟩

theorem itemsFirst_varies {γ β : Type} {read : Tree → Except Problem γ} {lack : Except Problem γ}
    {first : Spelling → Spelling → Prop}
    {others : List (Spaced Spelling) → List (Spaced Spelling) → Prop}
    {readOthers : List Tree → Except Problem β}
    (value : ∀ {x y}, first x y → ∀ a, read x.tree = .ok a → read y.tree = .ok a)
    (rest : ∀ {items items'}, others items items' → ∀ {b},
      readOthers (items.map (·.value.tree)) = .ok b → readOthers (items'.map (·.value.tree)) = .ok b)
    {items items' : List (Spaced Spelling)} (vary : FirstVaries first others items items') {c : γ × β}
    (ok : itemsFirst read lack readOthers (items.map (·.value.tree)) = .ok c) :
    itemsFirst read lack readOthers (items'.map (·.value.tree)) = .ok c := by
  rw [FirstVaries.eq_def] at vary
  split at vary
  next =>
    rw [List.map_cons, itemsFirst_cons_eq_ok] at ok ⊢
    exact ⟨value vary.1 _ ok.1, rest vary.2 ok.2⟩
  next => exact vary ▸ ok

mutual

/-- **What is read of a value does not depend on what a harmless change is about.** -/
theorem Shape.read_varies (harmless : Harmless change) (mode : Mode) : {α : Type} →
    (shape : Shape α) → {x y : Spelling} → shape.Varies change x y → {a : α} →
    shape.read mode x.tree = .ok a → shape.read mode y.tree = .ok a
  | _, .word _, _, _, vary, _, ok => (show _ = _ from vary) ▸ ok
  | _, .flag, _, _, vary, _, ok => (show _ = _ from vary) ▸ ok
  | _, .string, _, _, vary, _, ok => (show _ = _ from vary) ▸ ok
  | _, .choice _, _, _, vary, _, ok => (show _ = _ from vary) ▸ ok
  | _, .properties, _, _, vary, _, ok => (show _ = _ from vary) ▸ ok
  | _, .list item, x, y, vary, as, ok => by
    obtain rfl | ⟨_, _, _, _, rfl, rfl, items⟩ := ArraysVary.cases vary
    · exact ok
    rw [Spelling.tree_array] at ok ⊢
    obtain ⟨as, read, rest⟩ := bind_eq_ok.mp ok
    have read' := mapM_forall₂ (fun _ _ _ vary => item.read_varies harmless mode vary) items read
    exact bind_eq_ok.mpr ⟨as, read', rest⟩
  | _, .record name fields make split make_split, x, y, vary, a, ok => by
    obtain rfl | ⟨_, _, _, _, rfl, rfl, between, values, changed⟩ | ⟨_, _, _, _, rfl, rfl, items⟩ :=
      RecordsVary.cases vary
    · exact ok
    · rw [Spelling.tree_object, read_object_eq_ok] at ok ⊢
      obtain ⟨slots, b, taken, made⟩ := ok
      have taken' := foldlM_forall₂ (fun _ _ _ _ vary => takeMember_varies
        (fields.put_varies harmless mode) vary) values taken
      exact ⟨slots, b, harmless changed taken', made⟩
    · rw [Spelling.tree_array, read_array_eq_ok] at ok ⊢
      obtain ⟨b, read, made⟩ := ok
      exact ⟨b, fields.ofItems_varies harmless mode _ 0 items read, made⟩

/-- Nor does what a member is taken as, -/
theorem Fields.put_varies (harmless : Harmless change) (mode : Mode) : {β : Type} →
    (fields : Fields β) → {name : String} → {x y : Spelling} → fields.VaryAt change name x y →
    (slots s : fields.Slots) → fields.put mode slots name x.tree = some (.ok s) →
    fields.put mode slots name y.tree = some (.ok s)
  | _, .done, _, _, _, _, _, _, ok => nomatch ok
  | _, .required _ shape rest, _, _, _, vary, _, _, ok => by
    rw [put_required] at ok ⊢
    exact putFirst_mono (fun eq _ => shape.read_varies harmless mode (vary.1 eq))
      (fun ne => rest.put_varies harmless mode (vary.2 ne)) ok
  | _, .defaulted _ shape _ rest, _, _, _, vary, _, _, ok => by
    rw [put_defaulted] at ok ⊢
    exact putFirst_mono (fun eq _ => shape.read_varies harmless mode (vary.1 eq))
      (fun ne => rest.put_varies harmless mode (vary.2 ne)) ok
  | _, .optional _ shape rest, _, _, _, vary, _, _, ok => by
    rw [put_optional] at ok ⊢
    exact putFirst_mono
      (fun eq _ => readOptional_varies (vary.1 eq) (shape.read_varies harmless mode (vary.1 eq)))
      (fun ne => rest.put_varies harmless mode (vary.2 ne)) ok

/-- nor what is read of items. -/
theorem Fields.ofItems_varies (harmless : Harmless change) (mode : Mode) : {β : Type} →
    (fields : Fields β) → (wanted : String) → (index : Nat) → {items items' : List (Spaced Spelling)} →
    fields.VaryInOrder change items items' → {b : β} →
    fields.ofItems mode wanted index (items.map (·.value.tree)) .closed = .ok b →
    fields.ofItems mode wanted index (items'.map (·.value.tree)) .closed = .ok b
  | _, .done, _, _, _, _, vary, _, ok => (show _ = _ from vary) ▸ ok
  | _, .required _ shape rest, wanted, index, _, _, vary, _, ok => by
    rw [ofItems_required] at ok ⊢
    exact itemsFirst_varies (fun vary _ => shape.read_varies harmless mode vary)
      (rest.ofItems_varies harmless mode wanted (index + 1)) vary ok
  | _, .defaulted _ shape _ rest, wanted, index, _, _, vary, _, ok => by
    rw [ofItems_defaulted] at ok ⊢
    exact itemsFirst_varies (fun vary _ => shape.read_varies harmless mode vary)
      (rest.ofItems_varies harmless mode wanted (index + 1)) vary ok
  | _, .optional _ shape rest, wanted, index, _, _, vary, _, ok => by
    rw [ofItems_optional] at ok ⊢
    exact itemsFirst_varies
      (fun vary _ => readOptional_varies vary (shape.read_varies harmless mode vary))
      (rest.ofItems_varies harmless mode wanted (index + 1)) vary ok

end

/-! ### Settling -/

/-- Whether a change adds no members. -/
def Narrow (change : Change) : Prop :=
  ∀ {names members members'}, change names members members' → members' ⊆ members

theorem reordered_narrow : Narrow Reordered := fun perm => perm.symm.subset

theorem forall_mem_of_forall₂ {α : Type} {R : α → α → Prop} {P : α → Prop} {as bs : List α}
    (related : List.Forall₂ R as bs) (step : ∀ a b, R a b → P a → P b) (all : ∀ a ∈ as, P a) :
    ∀ b ∈ bs, P b := by
  induction related with
  | nil => exact all
  | cons first _ ih =>
    obtain ⟨head, tail⟩ := List.forall_mem_cons.mp all
    exact List.forall_mem_cons.mpr ⟨step _ _ first head, ih tail⟩

theorem FirstVaries.forall_mem {first : Spelling → Spelling → Prop} {P : Spelling → Prop}
    {others : List (Spaced Spelling) → List (Spaced Spelling) → Prop}
    (step : ∀ {x y}, first x y → P x → P y)
    (rest : ∀ {items items'}, others items items' → (∀ i ∈ items, P i.value) →
      ∀ i ∈ items', P i.value)
    {items items' : List (Spaced Spelling)} (vary : FirstVaries first others items items')
    (all : ∀ i ∈ items, P i.value) : ∀ i ∈ items', P i.value := by
  rw [FirstVaries.eq_def] at vary
  split at vary
  next =>
    obtain ⟨head, tail⟩ := List.forall_mem_cons.mp all
    exact List.forall_mem_cons.mpr ⟨step vary.1 head, rest vary.2 tail⟩
  next => exact vary ▸ all

theorem Settles.varies {vary : String → Spelling → Spelling → Prop} {room : Nat}
    (step : ∀ {name x y}, vary name x y → x.tree.settle room = .ok () → y.tree.settle room = .ok ())
    {m n : Member Spelling} (h : MemberVaries vary m n) (settles : Settles room m.tree) :
    Settles room n.tree := by
  obtain ⟨⟨name, named⟩, settled⟩ := settles
  exact ⟨⟨name, h.named named⟩, step (h.value name named) settled⟩

mutual

/-- What can be settled can be settled after a change that adds nothing. -/
theorem Shape.settle_varies (narrow : Narrow change) : {α : Type} → (shape : Shape α) → {room : Nat} →
    {x y : Spelling} → shape.Varies change x y → x.tree.settle room = .ok () →
    y.tree.settle room = .ok ()
  | _, .word _, _, _, _, vary, ok => (show _ = _ from vary) ▸ ok
  | _, .flag, _, _, _, vary, ok => (show _ = _ from vary) ▸ ok
  | _, .string, _, _, _, vary, ok => (show _ = _ from vary) ▸ ok
  | _, .choice _, _, _, _, vary, ok => (show _ = _ from vary) ▸ ok
  | _, .properties, _, _, _, vary, ok => (show _ = _ from vary) ▸ ok
  | _, .list item, room, x, y, vary, ok => by
    obtain rfl | ⟨_, _, _, _, rfl, rfl, items⟩ := ArraysVary.cases vary
    · exact ok
    rw [Spelling.tree_array, settle_array_eq_ok] at ok ⊢
    obtain ⟨inner, fits, ok⟩ := ok
    rw [List.forall_mem_map] at ok
    refine ⟨inner, fits, List.forall_mem_map.mpr ?_⟩
    exact forall_mem_of_forall₂ items (fun _ _ vary => item.settle_varies narrow vary) ok
  | _, .record name fields make split make_split, room, x, y, vary, ok => by
    obtain rfl | ⟨_, _, _, _, rfl, rfl, between, values, changed⟩ | ⟨_, _, _, _, rfl, rfl, items⟩ :=
      RecordsVary.cases vary
    · exact ok
    · rw [Spelling.tree_object, settle_object_eq_ok] at ok ⊢
      obtain ⟨inner, fits, ok⟩ := ok
      rw [List.forall_mem_map] at ok
      refine ⟨inner, fits, List.forall_mem_map.mpr fun m mem => ?_⟩
      exact forall_mem_of_forall₂ values (fun _ _ => Settles.varies (fields.settle_varyAt narrow)) ok m
        (narrow changed mem)
    · rw [Spelling.tree_array, settle_array_eq_ok] at ok ⊢
      obtain ⟨inner, fits, ok⟩ := ok
      rw [List.forall_mem_map] at ok
      exact ⟨inner, fits, List.forall_mem_map.mpr (fields.settle_varyInOrder narrow items ok)⟩

theorem Fields.settle_varyAt (narrow : Narrow change) : {β : Type} → (fields : Fields β) →
    {name : String} → {room : Nat} → {x y : Spelling} → fields.VaryAt change name x y →
    x.tree.settle room = .ok () → y.tree.settle room = .ok ()
  | _, .done, _, _, _, _, vary, ok => (show _ = _ from vary) ▸ ok
  | _, .required _ shape rest, _, _, _, _, vary, ok =>
    vary.elim (fun first => shape.settle_varies narrow first ok)
      (fun others => rest.settle_varyAt narrow others ok)
  | _, .defaulted _ shape _ rest, _, _, _, _, vary, ok =>
    vary.elim (fun first => shape.settle_varies narrow first ok)
      (fun others => rest.settle_varyAt narrow others ok)
  | _, .optional _ shape rest, _, _, _, _, vary, ok =>
    vary.elim (fun first => shape.settle_varies narrow first ok)
      (fun others => rest.settle_varyAt narrow others ok)

theorem Fields.settle_varyInOrder (narrow : Narrow change) : {β : Type} → (fields : Fields β) →
    {room : Nat} → {items items' : List (Spaced Spelling)} → fields.VaryInOrder change items items' →
    (∀ i ∈ items, i.value.tree.settle room = .ok ()) → ∀ i ∈ items', i.value.tree.settle room = .ok ()
  | _, .done, _, _, _, vary, ok => (show _ = _ from vary) ▸ ok
  | _, .required _ shape rest, _, _, _, vary, ok =>
    FirstVaries.forall_mem (P := (·.tree.settle _ = .ok ())) (shape.settle_varies narrow)
      (rest.settle_varyInOrder narrow) vary ok
  | _, .defaulted _ shape _ rest, _, _, _, vary, ok =>
    FirstVaries.forall_mem (P := (·.tree.settle _ = .ok ())) (shape.settle_varies narrow)
      (rest.settle_varyInOrder narrow) vary ok
  | _, .optional _ shape rest, _, _, _, vary, ok =>
    FirstVaries.forall_mem (P := (·.tree.settle _ = .ok ())) (shape.settle_varies narrow)
      (rest.settle_varyInOrder narrow) vary ok

end

/-! ### Tagged types -/

namespace Tagged

variable {α : Type} {tagged : Tagged α} {room : Nat}

/-- The tag is no field, so it does not vary. -/
theorem Holds.varies {tag tag' : tagged.Tag} (absent : tagged.field ∉ (tagged.fields tag).names)
    {m n : Member Spelling} (vary : MemberVaries ((tagged.fields tag).VaryAt change) m n)
    (holds : tagged.Holds tag' m.tree) : tagged.Holds tag' n.tree := by
  have same : n.value = m.value := Fields.varyAt_of_notMem _ absent (vary.value _ holds.1)
  exact ⟨vary.named holds.1, (congrArg (tagged.readTag ·.tree) same).trans holds.2⟩

theorem Beside.varies (narrow : Narrow change) {tag : tagged.Tag} {m n : Member Spelling}
    (vary : MemberVaries ((tagged.fields tag).VaryAt change) m n)
    (beside : tagged.Beside room m.tree) : tagged.Beside room n.tree := by
  obtain ⟨⟨name, named, other⟩, settled⟩ := beside
  exact ⟨⟨name, vary.named named, other⟩,
    Fields.settle_varyAt narrow _ (vary.value name named) settled⟩

/-- Of members that vary the same is gathered. -/
theorem gather_varies (narrow : Narrow change) {tag : tagged.Tag}
    (absent : tagged.field ∉ (tagged.fields tag).names) {members between : List (Member Spelling)}
    (vary : List.Forall₂ (MemberVaries ((tagged.fields tag).VaryAt change)) members between)
    {found found' : Option tagged.Tag} {others : List (Token String × Tree)}
    (ok : tagged.gather room found (members.map Member.tree) = .ok (found', others)) :
    ∃ os ps, others = os.map Member.tree ∧
      List.Forall₂ (MemberVaries ((tagged.fields tag).VaryAt change)) os ps ∧
      tagged.gather room found (between.map Member.tree) = .ok (found', ps.map Member.tree) := by
  induction vary generalizing found others with
  | nil =>
    cases ok
    exact ⟨[], [], rfl, .nil, rfl⟩
  | @cons m n ms ns first _ ih =>
    rw [List.map_cons] at ok ⊢
    rcases gather_cons_eq_ok.mp ok with ⟨tag', holds, rfl, rest⟩ | ⟨beside, _, rfl, rest⟩
    · obtain ⟨os, ps, eq, others, gathered⟩ := ih rest
      refine ⟨os, ps, eq, others, gather_cons_eq_ok.mpr (.inl ?_)⟩
      exact ⟨tag', holds.varies absent first, rfl, gathered⟩
    · obtain ⟨os, ps, rfl, others, gathered⟩ := ih rest
      refine ⟨m :: os, n :: ps, rfl, .cons first others, gather_cons_eq_ok.mpr (.inr ?_)⟩
      exact ⟨beside.varies narrow first, _, rfl, gathered⟩

/-- There is no other tag than the one that is found. -/
theorem eq_of_holds {members others : List (Token String × Tree)} {tag tag' : tagged.Tag}
    (ok : tagged.gather room none members = .ok (some tag, others)) {m : Token String × Tree}
    (mem : m ∈ members) (holds : tagged.Holds tag' m) : tag' = tag := by
  obtain ⟨before, n, after, rfl, rfl, held, beside⟩ := gather_eq_ok.mp ok
  rcases List.mem_cons.mp (List.perm_middle.mem_iff.mp mem) with rfl | aside
  · exact Except.ok.inj (holds.2.symm.trans held.2)
  · obtain ⟨⟨name, named, other⟩, -⟩ := beside m aside
    exact absurd (Except.ok.inj (named.symm.trans holds.1)) other

/-- **The members of a tagged value may be put into any order**, those of its fields and the tag. -/
theorem read_varies (absent : ∀ tag, tagged.field ∉ (tagged.fields tag).names) {x y : Spelling}
    (vary : tagged.Varies Reordered x y) {a : α} (ok : tagged.read (room + 1) x.tree = .ok a) :
    tagged.read (room + 1) y.tree = .ok a := by
  obtain rfl | ⟨_, members, _, members', rfl, rfl, tag, ⟨m, mem, holds⟩, between, values, perm⟩ |
    ⟨_, items, _, items', rfl, rfl, tag, ⟨i, first, isTag⟩, vary⟩ := RecordsVary.cases vary
  · exact ok
  · rw [Spelling.tree_object, read_object_eq_ok] at ok ⊢
    obtain ⟨tag', others, slots, content, gathered, taken, collected, rfl⟩ := ok
    obtain rfl := eq_of_holds gathered (List.mem_map_of_mem mem) holds
    obtain ⟨os, ps, rfl, vary, gathered⟩ :=
      gather_varies reordered_narrow (absent tag) values gathered
    obtain ⟨others, perm', gathered⟩ := gather_perm (perm.map Member.tree) gathered
    have taken := foldlM_forall₂ (fun _ _ _ _ vary => takeMember_varies
      (Fields.put_varies reordered_harmless .settled _) vary) vary taken
    exact ⟨tag, others, slots, content, gathered, foldlM_takeMember_perm _ _ perm' taken, collected,
      rfl⟩
  · rw [Spelling.tree_array, read_array_eq_ok] at ok ⊢
    rw [FirstVaries.eq_def] at vary
    split at vary
    next =>
      obtain ⟨same, vary⟩ := vary
      obtain rfl := Option.mem_some_iff.mp first
      obtain ⟨_, _, tag', content, eq, readTag, settled, read, rfl⟩ := ok
      cases eq
      obtain rfl := Except.ok.inj (isTag.symm.trans readTag)
      refine ⟨_, _, tag, content, rfl, (congrArg (tagged.readTag ·.tree) same).trans readTag, ?_,
        Fields.ofItems_varies reordered_harmless .settled _ _ 0 vary read, rfl⟩
      rw [List.forall_mem_map] at settled ⊢
      exact Fields.settle_varyInOrder reordered_narrow _ vary settled
    next => exact vary ▸ ok

end Tagged

end StateReplica.Json
