import StateReplica.Proofs.Json.Fields
import StateReplica.Proofs.Json.RoundTrip

/-!
From values that are read while the text is to values that are read from a settled tree. Where the first
gives a value the second gives the same (`Shape.read_settled`): the modes differ in the problems they find,
and the settled one accepts more. And a tree of which a value was read can be settled, where there is room for
what the shape can nest (`Shape.settle_of_knows`).

For the second it matters that the records of the tree have no members that they do not know (`Shape.knows`).
Such a member is passed over while the text is read, and may hold a word that stands for nothing, or be nested
more deeply than there is room for.
-/

namespace StateReplica.Json

/-! ### Members that are known -/

mutual

/-- Whether the records in a tree have no members but those of their fields, at any level. -/
def Shape.knows : {α : Type} → Shape α → Tree → Bool
  | _, .list item, .array items _ => items.all item.knows
  | _, .record _ fields _ _ _, .object members _ => members.all fun (key, value) =>
    match key.value with
    | .ok name => fields.knowsAt name value
    | .error _ => true
  | _, .record _ fields _ _ _, .array items _ => fields.knowsInOrder items
  | _, _, _ => true

/-- Whether a name is that of a field, and the value beside it is known to the field. -/
def Fields.knowsAt : {β : Type} → Fields β → String → Tree → Bool
  | _, .done, _, _ => false
  | _, .required field shape rest, name, t =>
    if name = field then shape.knows t else rest.knowsAt name t
  | _, .defaulted field shape _ rest, name, t =>
    if name = field then shape.knows t else rest.knowsAt name t
  | _, .optional field shape rest, name, t =>
    if name = field then shape.knows t else rest.knowsAt name t

/-- Whether items are known to the fields that they are read as. -/
def Fields.knowsInOrder : {β : Type} → Fields β → List Tree → Bool
  | _, .required _ shape rest, t :: ts => shape.knows t && rest.knowsInOrder ts
  | _, .defaulted _ shape _ rest, t :: ts => shape.knows t && rest.knowsInOrder ts
  | _, .optional _ shape rest, t :: ts => shape.knows t && rest.knowsInOrder ts
  | _, _, _ => true

end

/-! ### The same value -/

theorem Ending.check_eq_ok {ending : Ending} : ending.check = .ok () ↔ ending = .closed := by
  cases ending with
  | closed => exact ⟨fun _ => rfl, fun _ => rfl⟩
  | broken f => exact ⟨nofun, nofun⟩

theorem Choice.readSettled_of_readDirect {α : Type} {choice : Choice α} {t : Tree} {a : α}
    (ok : choice.readDirect t = .ok a) : choice.readSettled t = .ok a := by
  cases t with
  | string token => exact ok
  | object members ending =>
    cases members with
    | nil => cases ending <;> cases ok
    | cons m members =>
      obtain ⟨⟨name, named, chosen⟩, null, rfl, -⟩ := Choice.readDirect_object_eq_ok ok
      obtain ⟨key, value⟩ := m
      obtain rfl : value = _ := null
      exact bind_eq_ok.mpr ⟨name, orFault_eq_ok.mpr named, bind_eq_ok.mpr ⟨a, chosen, rfl⟩⟩
  | literal | number | array | broken => cases ok

theorem readOptional_mono {α : Type} {read read' : Tree → Except Problem α} {t : Tree}
    (value : ∀ a, read t = .ok a → read' t = .ok a) {a : Option α} (ok : readOptional read t = .ok a) :
    readOptional read' t = .ok a := by
  by_cases null : t = .literal (.ok .null)
  · subst null
    exact ok
  · rw [readOptional_of_ne_null null] at ok ⊢
    obtain ⟨b, read, rfl⟩ := map_eq_ok.mp ok
    rw [value b read]
    rfl

/-- A member that is taken is taken where its slot takes as much. -/
theorem takeMember_mono {mode mode' : Mode} {β : Type} {fields : Fields β}
    (put : ∀ {slots s : fields.Slots} {name : String} {t : Tree},
      fields.put mode slots name t = some (.ok s) → fields.put mode' slots name t = some (.ok s))
    {slots s : fields.Slots} {m : Token String × Tree}
    (ok : takeMember (fields.put mode) slots m = .ok s) :
    takeMember (fields.put mode') slots m = .ok s := by
  obtain ⟨name, named, taken⟩ := takeMember_eq_ok.mp ok
  refine takeMember_eq_ok.mpr ⟨name, named, taken.imp put fun ⟨noSlot, passed, same⟩ => ?_⟩
  rw [Fields.put_eq_none] at noSlot ⊢
  exact ⟨noSlot, passed, same⟩

/-- What has nothing left over while the text is read has nothing left over either way. -/
theorem surplus_direct_eq_ok {index : Nat} {items : List Tree} {ending : Ending} :
    surplus .direct index items ending = .ok () ↔ items = [] ∧ ending = .closed := by
  refine ⟨fun ok => ?_, fun ⟨empty, closed⟩ => by subst empty closed; rfl⟩
  rw [surplus.eq_def] at ok
  split at ok
  next => exact ⟨rfl, rfl⟩
  next => cases ok
  next => cases ok
  next mode => cases mode
  next mode => cases mode

theorem itemsFirst_mono {γ β : Type} {read read' : Tree → Except Problem γ} {lack : Except Problem γ}
    {others others' : List Tree → Except Problem β} {items : List Tree}
    (value : ∀ t a, read t = .ok a → read' t = .ok a)
    (rest : ∀ b, others items.tail = .ok b → others' items.tail = .ok b) {c : γ × β}
    (ok : itemsFirst read lack others items = .ok c) : itemsFirst read' lack others' items = .ok c := by
  cases items with
  | nil =>
    obtain ⟨lacks, others⟩ := itemsFirst_nil_eq_ok.mp ok
    exact itemsFirst_nil_eq_ok.mpr ⟨lacks, rest _ others⟩
  | cons t items =>
    obtain ⟨first, others⟩ := itemsFirst_cons_eq_ok.mp ok
    exact itemsFirst_cons_eq_ok.mpr ⟨value t _ first, rest _ others⟩

mutual

/-- **What is read while the text is, is read from a settled tree.** -/
theorem Shape.read_settled : {α : Type} → (shape : Shape α) → {t : Tree} → {a : α} →
    shape.read .direct t = .ok a → shape.read .settled t = .ok a
  | _, .word _, _, _, ok => ok
  | _, .flag, _, _, ok => ok
  | _, .string, _, _, ok => ok
  | _, .choice _, _, _, ok => Choice.readSettled_of_readDirect ok
  | _, .properties, _, _, ok => ok
  | _, .list item, t, as, ok => by
    cases t with
    | array items ending =>
      obtain ⟨as, read, rest⟩ := bind_eq_ok.mp ok
      refine bind_eq_ok.mpr ⟨as, ?_, rest⟩
      rw [mapM_eq_ok] at read ⊢
      exact read.imp fun _ _ => item.read_settled
    | _ => exact absurd ok mismatch_ne_ok
  | _, .record name fields make split make_split, t, a, ok => by
    cases t with
    | object members ending =>
      obtain ⟨slots, read, made⟩ := bind_eq_ok.mp ok
      refine bind_eq_ok.mpr ⟨slots, ?_, made⟩
      rw [readMembers_eq] at read ⊢
      obtain ⟨slots, taken, rest⟩ := bind_eq_ok.mp read
      exact bind_eq_ok.mpr ⟨slots, foldlM_mono (fun _ _ _ => takeMember_mono fields.put_settled) taken,
        rest⟩
    | array items ending =>
      obtain ⟨b, read, made⟩ := read_array_eq_ok.mp ok
      exact read_array_eq_ok.mpr ⟨b, fields.ofItems_settled read, made⟩
    | _ => exact absurd ok mismatch_ne_ok

/-- What a member is taken as while the text is read, it is taken as from a settled tree. -/
theorem Fields.put_settled : {β : Type} → (fields : Fields β) → {slots s : fields.Slots} →
    {name : String} → {t : Tree} → fields.put .direct slots name t = some (.ok s) →
    fields.put .settled slots name t = some (.ok s)
  | _, .done, _, _, _, _, ok => nomatch ok
  | _, .required _ shape rest, _, _, _, _, ok => by
    rw [put_required] at ok ⊢
    exact putFirst_mono (fun _ _ => shape.read_settled) (fun _ _ _ => rest.put_settled) ok
  | _, .defaulted _ shape _ rest, _, _, _, _, ok => by
    rw [put_defaulted] at ok ⊢
    exact putFirst_mono (fun _ _ => shape.read_settled) (fun _ _ _ => rest.put_settled) ok
  | _, .optional _ shape rest, _, _, _, _, ok => by
    rw [put_optional] at ok ⊢
    exact putFirst_mono (fun _ _ => readOptional_mono fun _ => shape.read_settled)
      (fun _ _ _ => rest.put_settled) ok

/-- And what is read of items while the text is, is read of settled items. -/
theorem Fields.ofItems_settled : {β : Type} → (fields : Fields β) → {wanted : String} → {index : Nat} →
    {items : List Tree} → {ending : Ending} → {b : β} →
    fields.ofItems .direct wanted index items ending = .ok b →
    fields.ofItems .settled wanted index items ending = .ok b
  | _, .done, _, index, items, ending, _, ok => by
    obtain ⟨rfl, rfl⟩ := surplus_direct_eq_ok.mp ok
    rfl
  | _, .required _ shape rest, _, _, _, _, _, ok => by
    rw [ofItems_required] at ok ⊢
    exact itemsFirst_mono (fun _ _ => shape.read_settled) (fun _ => rest.ofItems_settled) ok
  | _, .defaulted _ shape _ rest, _, _, _, _, _, ok => by
    rw [ofItems_defaulted] at ok ⊢
    exact itemsFirst_mono (fun _ _ => shape.read_settled) (fun _ => rest.ofItems_settled) ok
  | _, .optional _ shape rest, _, _, _, _, _, ok => by
    rw [ofItems_optional] at ok ⊢
    exact itemsFirst_mono (fun _ _ => readOptional_mono fun _ => shape.read_settled)
      (fun _ => rest.ofItems_settled) ok

end

/-! ### Room for it -/

section

variable {t : Tree} {room : Nat}

theorem Word.settle_of_read {α : Type} {word : Word α} {a : α} (ok : word.read t = .ok a) :
    t.settle room = .ok () := by
  cases t with
  | number token =>
    obtain ⟨n, read, -⟩ := bind_eq_ok.mp ok
    rw [Tree.settle, orFault_eq_ok.mp read]
    rfl
  | _ => exact absurd ok mismatch_ne_ok

theorem settle_of_readFlag {b : Bool} (ok : readFlag t = .ok b) : t.settle room = .ok () := by
  unfold readFlag at ok
  split at ok
  next => rw [Tree.settle]; rfl
  next => exact absurd ok mismatch_ne_ok

theorem settle_of_readString {s : String} (ok : readString t = .ok s) : t.settle room = .ok () := by
  cases t with
  | string token =>
    rw [Tree.settle, orFault_eq_ok.mp ok]
    rfl
  | _ => exact absurd ok mismatch_ne_ok

theorem settle_of_readProperties {ps : Properties} (ok : readProperties t = .ok ps) (fits : 1 ≤ room) :
    t.settle room = .ok () := by
  cases t with
  | object members ending =>
    obtain ⟨ps, taken, rest⟩ := bind_eq_ok.mp ok
    obtain ⟨_, closed, -⟩ := bind_eq_ok.mp rest
    obtain rfl := Ending.check_eq_ok.mp (orFault_eq_ok.mp closed)
    obtain ⟨inner, rfl⟩ := Nat.exists_eq_add_of_le' fits
    refine settle_object_eq_ok.mpr ⟨inner, rfl, fun m mem => ?_⟩
    obtain ⟨_, _, step⟩ := forall_mem_of_foldlM_eq_ok taken m mem
    obtain ⟨name, named, step⟩ := bind_eq_ok.mp step
    obtain ⟨text, read, -⟩ := bind_eq_ok.mp step
    exact ⟨⟨name, orFault_eq_ok.mp named⟩, settle_of_readString read⟩
  | _ => exact absurd ok mismatch_ne_ok

theorem Choice.settle_of_readDirect {α : Type} {choice : Choice α} {a : α}
    (ok : choice.readDirect t = .ok a) (fits : 1 ≤ room) : t.settle room = .ok () := by
  cases t with
  | string token =>
    obtain ⟨name, named, -⟩ := bind_eq_ok.mp ok
    rw [Tree.settle, orFault_eq_ok.mp named]
    rfl
  | object members ending =>
    cases members with
    | nil => cases ending <;> cases ok
    | cons m members =>
      obtain ⟨⟨name, named, -⟩, null, rfl, rfl⟩ := Choice.readDirect_object_eq_ok ok
      obtain ⟨inner, rfl⟩ := Nat.exists_eq_add_of_le' fits
      refine settle_object_eq_ok.mpr ⟨inner, rfl, List.forall_mem_singleton.mpr ⟨⟨name, named⟩, ?_⟩⟩
      rw [null, Tree.settle]
      rfl
  | literal | number | array | broken => cases ok

end

theorem readOptional_settle {α : Type} {read : Tree → Except Problem α} {t : Tree} {room : Nat}
    (value : ∀ a, read t = .ok a → t.settle room = .ok ()) {a : Option α}
    (ok : readOptional read t = .ok a) : t.settle room = .ok () := by
  by_cases null : t = .literal (.ok .null)
  · subst null
    rw [Tree.settle]
    rfl
  · rw [readOptional_of_ne_null null] at ok
    obtain ⟨b, read, -⟩ := map_eq_ok.mp ok
    exact value b read

/-- What a slot takes can be settled, if it can be settled what is known to it and what is known beside it. -/
theorem putFirst_settle {γ σ : Type} {field : String} {read : Tree → Except Problem γ}
    {others : σ → String → Tree → Option (Except Problem σ)} {name : String} {t : Tree}
    {here beside : Bool} {room : Nat}
    (value : here = true → ∀ a, read t = .ok a → t.settle room = .ok ())
    (rest : beside = true → ∀ slots s, others slots name t = some (.ok s) → t.settle room = .ok ())
    (known : (if name = field then here else beside) = true) {slots s : Option γ × σ}
    (ok : putFirst field read others slots name t = some (.ok s)) : t.settle room = .ok () := by
  rcases putFirst_eq_ok.mp ok with ⟨same, -, a, read, -⟩ | ⟨ne, s', other, -⟩
  · rw [if_pos same] at known
    exact value known a read
  · rw [if_neg ne] at known
    exact rest known _ s' other

theorem mem_cons_of_known {field name : String} {names : List String} {here beside : Bool}
    (rest : beside = true → name ∈ names) (known : (if name = field then here else beside) = true) :
    name ∈ field :: names := by
  by_cases same : name = field
  · exact same ▸ List.mem_cons_self
  · rw [if_neg same] at known
    exact List.mem_cons_of_mem _ (rest known)

/-- What is known has the name of a field. -/
theorem Fields.mem_names_of_knowsAt : {β : Type} → (fields : Fields β) → {name : String} → {t : Tree} →
    fields.knowsAt name t = true → name ∈ fields.names
  | _, .done, _, _, known => nomatch known
  | _, .required _ _ rest, _, _, known => mem_cons_of_known rest.mem_names_of_knowsAt known
  | _, .defaulted _ _ _ rest, _, _, known => mem_cons_of_known rest.mem_names_of_knowsAt known
  | _, .optional _ _ rest, _, _, known => mem_cons_of_known rest.mem_names_of_knowsAt known

/-- A member that is known and taken goes into the slot of a field. -/
theorem Fields.put_of_knowsAt {β : Type} {fields : Fields β} {slots s : fields.Slots}
    {m : Token String × Tree} {name : String} (named : m.1.value = .ok name)
    (known : fields.knowsAt name m.2 = true) (taken : takeMember (fields.put .direct) slots m = .ok s) :
    fields.put .direct slots name m.2 = some (.ok s) := by
  obtain ⟨name', named', put | ⟨noSlot, -, -⟩⟩ := takeMember_eq_ok.mp taken
  · cases named.symm.trans named'
    exact put
  · cases named.symm.trans named'
    exact absurd (fields.mem_names_of_knowsAt known) ((fields.put_eq_none _ _ _ _).mp noSlot)

/-- An array is closed behind the last field that is read from it. -/
theorem Fields.closed_of_ofItems : {β : Type} → (fields : Fields β) → {wanted : String} → {index : Nat} →
    {items : List Tree} → {ending : Ending} → {b : β} →
    fields.ofItems .direct wanted index items ending = .ok b → ending = .closed
  | _, .done, _, _, _, _, _, ok => (surplus_direct_eq_ok.mp ok).2
  | _, .required _ _ rest, _, _, _, _, _, ok => by
    rw [ofItems_required] at ok
    exact rest.closed_of_ofItems (itemsFirst_eq_ok ok).2
  | _, .defaulted _ _ _ rest, _, _, _, _, _, ok => by
    rw [ofItems_defaulted] at ok
    exact rest.closed_of_ofItems (itemsFirst_eq_ok ok).2
  | _, .optional _ _ rest, _, _, _, _, _, ok => by
    rw [ofItems_optional] at ok
    exact rest.closed_of_ofItems (itemsFirst_eq_ok ok).2

mutual

/-- **A tree of which a value was read can be settled**, if its records know all their members and there is
room for what the shape can nest, and for one level more: a choice may be written as an object. -/
theorem Shape.settle_of_knows : {α : Type} → (shape : Shape α) → {t : Tree} → {a : α} → {room : Nat} →
    shape.read .direct t = .ok a → shape.knows t = true → shape.depth < room → t.settle room = .ok ()
  | _, .word _, _, _, _, ok, _, _ => Word.settle_of_read ok
  | _, .flag, _, _, _, ok, _, _ => settle_of_readFlag ok
  | _, .string, _, _, _, ok, _, _ => settle_of_readString ok
  | _, .choice _, _, _, _, ok, _, fits => Choice.settle_of_readDirect ok fits
  | _, .properties, _, _, _, ok, _, fits => settle_of_readProperties ok (Nat.le_of_lt fits)
  | _, .list item, t, as, room, ok, known, fits => by
    cases t with
    | array items ending =>
      obtain ⟨as, read, rest⟩ := bind_eq_ok.mp ok
      obtain ⟨_, closed, -⟩ := bind_eq_ok.mp rest
      obtain rfl := Ending.check_eq_ok.mp (orFault_eq_ok.mp closed)
      obtain ⟨inner, rfl⟩ := Nat.exists_eq_add_of_le' (Nat.one_le_of_lt fits)
      refine settle_array_eq_ok.mpr ⟨inner, rfl, fun t mem => ?_⟩
      obtain ⟨a, ok⟩ := forall_mem_of_mapM_eq_ok read t mem
      exact item.settle_of_knows ok (List.all_eq_true.mp known t mem) (Nat.lt_of_succ_lt_succ fits)
    | _ => exact absurd ok mismatch_ne_ok
  | _, .record name fields make split make_split, t, a, room, ok, known, fits => by
    obtain ⟨inner, rfl⟩ := Nat.exists_eq_add_of_le' (Nat.one_le_of_lt fits)
    have fits : fields.depth < inner := Nat.lt_of_succ_lt_succ fits
    cases t with
    | object members ending =>
      -- a member of a field is settled as its value was read; one of another name is not known
      obtain ⟨slots, read, -⟩ := bind_eq_ok.mp ok
      rw [readMembers_eq] at read
      obtain ⟨slots, taken, rest⟩ := bind_eq_ok.mp read
      obtain ⟨_, closed, -⟩ := bind_eq_ok.mp rest
      obtain rfl := Ending.check_eq_ok.mp (orFault_eq_ok.mp closed)
      refine settle_object_eq_ok.mpr ⟨inner, rfl, fun m mem => ?_⟩
      obtain ⟨before, after, step⟩ := forall_mem_of_foldlM_eq_ok taken m mem
      obtain ⟨name, named, -⟩ := takeMember_eq_ok.mp step
      have known : fields.knowsAt name m.2 = true := by
        have known := List.all_eq_true.mp known m mem
        simpa only [named] using known
      exact ⟨⟨name, named⟩, fields.settle_of_knowsAt (Fields.put_of_knowsAt named known step) known fits⟩
    | array items ending =>
      obtain ⟨b, read, -⟩ := read_array_eq_ok.mp ok
      obtain rfl := fields.closed_of_ofItems read
      exact settle_array_eq_ok.mpr ⟨inner, rfl, fields.settle_of_knowsInOrder read known fits⟩
    | _ => exact absurd ok mismatch_ne_ok

theorem Fields.settle_of_knowsAt : {β : Type} → (fields : Fields β) → {slots s : fields.Slots} →
    {name : String} → {t : Tree} → {room : Nat} → fields.put .direct slots name t = some (.ok s) →
    fields.knowsAt name t = true → fields.depth < room → t.settle room = .ok ()
  | _, .done, _, _, _, _, _, ok, _, _ => nomatch ok
  | _, .required _ shape rest, _, _, _, _, _, ok, known, fits => by
    obtain ⟨here, beside⟩ := Nat.max_lt.mp fits
    rw [put_required] at ok
    exact putFirst_settle (fun known _ read => shape.settle_of_knows read known here)
      (fun known _ _ put => rest.settle_of_knowsAt put known beside) known ok
  | _, .defaulted _ shape _ rest, _, _, _, _, _, ok, known, fits => by
    obtain ⟨here, beside⟩ := Nat.max_lt.mp fits
    rw [put_defaulted] at ok
    exact putFirst_settle (fun known _ read => shape.settle_of_knows read known here)
      (fun known _ _ put => rest.settle_of_knowsAt put known beside) known ok
  | _, .optional _ shape rest, _, _, _, _, _, ok, known, fits => by
    obtain ⟨here, beside⟩ := Nat.max_lt.mp fits
    rw [put_optional] at ok
    exact putFirst_settle
      (fun known _ => readOptional_settle fun _ read => shape.settle_of_knows read known here)
      (fun known _ _ put => rest.settle_of_knowsAt put known beside) known ok

theorem Fields.settle_of_knowsInOrder : {β : Type} → (fields : Fields β) → {wanted : String} →
    {index : Nat} → {items : List Tree} → {b : β} → {room : Nat} →
    fields.ofItems .direct wanted index items .closed = .ok b → fields.knowsInOrder items = true →
    fields.depth < room → ∀ t ∈ items, t.settle room = .ok ()
  | _, _, _, _, [], _, _, _, _, _ => nofun
  | _, .done, _, _, t :: items, _, _, ok, _, _ => nomatch (surplus_direct_eq_ok.mp ok).1
  | _, .required _ shape rest, _, _, t :: items, _, _, ok, known, fits => by
    obtain ⟨here, behind⟩ := Nat.max_lt.mp fits
    obtain ⟨first, others⟩ := Bool.and_eq_true_iff.mp known
    rw [ofItems_required, itemsFirst_cons_eq_ok] at ok
    exact List.forall_mem_cons.mpr ⟨shape.settle_of_knows ok.1 first here,
      rest.settle_of_knowsInOrder ok.2 others behind⟩
  | _, .defaulted _ shape _ rest, _, _, t :: items, _, _, ok, known, fits => by
    obtain ⟨here, behind⟩ := Nat.max_lt.mp fits
    obtain ⟨first, others⟩ := Bool.and_eq_true_iff.mp known
    rw [ofItems_defaulted, itemsFirst_cons_eq_ok] at ok
    exact List.forall_mem_cons.mpr ⟨shape.settle_of_knows ok.1 first here,
      rest.settle_of_knowsInOrder ok.2 others behind⟩
  | _, .optional _ shape rest, _, _, t :: items, _, _, ok, known, fits => by
    obtain ⟨here, behind⟩ := Nat.max_lt.mp fits
    obtain ⟨first, others⟩ := Bool.and_eq_true_iff.mp known
    rw [ofItems_optional, itemsFirst_cons_eq_ok] at ok
    exact List.forall_mem_cons.mpr
      ⟨readOptional_settle (fun _ read => shape.settle_of_knows read first here) ok.1,
        rest.settle_of_knowsInOrder ok.2 others behind⟩

end

/-! ### Tagged types -/

/-- **A tagged value is read from an object of its tag and the members of its kind**, in any order, if the
members are read as they are while the text is, and are known. -/
theorem Tagged.read_of_direct {α : Type} {tagged : Tagged α} {tag : tagged.Tag} {room : Nat}
    (absent : tagged.field ∉ (tagged.fields tag).names) (fits : (tagged.fields tag).depth < room)
    {m : Token String × Tree} {members others : List (Token String × Tree)} (holds : tagged.Holds tag m)
    (order : members.Perm (m :: others)) {slots : (tagged.fields tag).Slots} {content : tagged.Content tag}
    (taken : others.foldlM (takeMember ((tagged.fields tag).put .direct)) (tagged.fields tag).empty =
      .ok slots)
    (known : ∀ o ∈ others, ∀ name, o.1.value = .ok name → (tagged.fields tag).knowsAt name o.2 = true)
    (collected : (tagged.fields tag).collect slots = .ok content) :
    tagged.read (room + 1) (.object members .closed) = .ok (tagged.make tag content) := by
  have beside : ∀ o ∈ others, tagged.Beside room o := by
    intro o mem
    obtain ⟨before, after, step⟩ := forall_mem_of_foldlM_eq_ok taken o mem
    obtain ⟨name, named, -⟩ := takeMember_eq_ok.mp step
    have known := known o mem name named
    refine ⟨⟨name, named, ?_⟩,
      Fields.settle_of_knowsAt _ (Fields.put_of_knowsAt named known step) known fits⟩
    rintro rfl
    exact absent (Fields.mem_names_of_knowsAt _ known)
  -- the tag is found wherever it stands, so it may as well stand first
  have gathered : tagged.gather room none (m :: others) = .ok (some tag, others) :=
    gather_eq_ok.mpr ⟨[], m, others, rfl, rfl, holds, beside⟩
  obtain ⟨others', order', gathered⟩ := gather_perm order.symm gathered
  have settled := foldlM_mono (fun _ _ _ => takeMember_mono (Fields.put_settled _)) taken
  exact read_object_eq_ok.mpr ⟨tag, others', slots, content, gathered,
    foldlM_takeMember_perm .settled _ order' settled, collected, rfl⟩

end StateReplica.Json
