import StateReplica.Proofs.Json.Reading

/-!
Records field by field. What a record that was read holds in a field comes of what stands for that field,
and is filled in where nothing does (`exists_of_read_record`): in an object that is the member with the name
of the field, in an array the item at its place. It does not depend on the other fields.
-/

namespace StateReplica.Json

/-- The value of a field comes of what was found for it; if nothing was, it is what the field is filled
with. -/
def ComesOf {γ : Type} (read : Tree → Except Problem γ) (fill : Option γ) (found : Option Tree) (a : γ) :
    Prop :=
  (found = none ∧ fill = some a) ∨ ∃ t, found = some t ∧ read t = .ok a

/-- The values of fields come of what was found under their names and places; the first of them has some
place. -/
def Fields.ComeOf (mode : Mode) (found : String → Nat → Option Tree) :
    {β : Type} → Fields β → Nat → β → Prop
  | _, .done, _, _ => True
  | _, .required name shape rest, i, (a, b) =>
    ComesOf (shape.read mode) none (found name i) a ∧ rest.ComeOf mode found (i + 1) b
  | _, .defaulted name shape fill rest, i, (a, b) =>
    ComesOf (shape.read mode) (some fill) (found name i) a ∧ rest.ComeOf mode found (i + 1) b
  | _, .optional name shape rest, i, (a, b) =>
    ComesOf (readOptional (shape.read mode)) (some none) (found name i) a ∧
      rest.ComeOf mode found (i + 1) b

/-! ### Members by name -/

/-- Whether a member has a name. -/
def isNamed (name : String) (m : Token String × Tree) : Bool :=
  match m.1.value with
  | .ok found => found = name
  | .error _ => false

theorem isNamed_eq {name found : String} {m : Token String × Tree} (named : m.1.value = .ok found) :
    isNamed name m = decide (found = name) := by
  unfold isNamed
  rw [named]

/-- The value of the first member of a name. -/
def memberOf? (name : String) (members : List (Token String × Tree)) : Option Tree :=
  (members.find? (isNamed name)).map (·.2)

/-- Members of one name are found without those of another one. -/
theorem memberOf?_filter {name other : String} (ne : name ≠ other)
    (members : List (Token String × Tree)) :
    memberOf? name (members.filter (!isNamed other ·)) = memberOf? name members := by
  have same (m : Token String × Tree) :
      decide ((!isNamed other m) = true ∧ isNamed name m = true) = isNamed name m := by
    cases named : m.1.value with
    | error f => simp [isNamed, named]
    | ok found =>
      rw [isNamed_eq named, isNamed_eq named]
      by_cases eq : found = name
      · simp [eq, ne]
      · simp [eq]
  unfold memberOf?
  rw [List.find?_filter]
  simp only [same]

section

variable {γ σ : Type} {field : String} {read : Tree → Except Problem γ}
  {others : σ → String → Tree → Option (Except Problem σ)}

/-- **The first of several slots holds the member of its name**, and the others hold the other
members. -/
theorem foldlM_takeMember_first {members : List (Token String × Tree)} {slots slots' : Option γ × σ}
    (taken : members.foldlM (takeMember (putFirst field read others)) slots = .ok slots') :
    (memberOf? field members = none ∧ slots'.1 = slots.1 ∨
      ∃ t a, memberOf? field members = some t ∧ slots.1 = none ∧ read t = .ok a ∧ slots'.1 = some a) ∧
    (members.filter (!isNamed field ·)).foldlM (takeMember others) slots.2 = .ok slots'.2 := by
  induction members generalizing slots with
  | nil =>
    cases taken
    exact ⟨.inl ⟨rfl, rfl⟩, rfl⟩
  | cons m members ih =>
    obtain ⟨slots₁, first, rest⟩ := foldlM_cons_eq_ok.mp taken
    obtain ⟨name, named, put⟩ := takeMember_eq_ok.mp first
    obtain ⟨found, passed⟩ := ih rest
    by_cases mine : name = field
    · -- the slot is full now, so that no later member has the name
      have isField : isNamed field m = true := by rw [isNamed_eq named, decide_eq_true mine]
      have held : memberOf? field (m :: members) = some m.2 := by
        unfold memberOf?
        rw [List.find?_cons_of_pos isField]
        rfl
      rcases put with put | ⟨none, -, -⟩
      · rcases putFirst_eq_ok.mp put with ⟨-, empty, a, value, rfl⟩ | ⟨other, -⟩
        · rcases found with ⟨-, kept⟩ | ⟨t, b, -, full, -⟩
          · refine ⟨.inr ⟨m.2, a, held, empty, value, kept⟩, ?_⟩
            rw [List.filter_cons_of_neg (by simp [isField])]
            exact passed
          · cases full
        · exact absurd mine other
      · exact absurd mine (putFirst_eq_none.mp none).1
    · have notField : isNamed field m = false := by rw [isNamed_eq named, decide_eq_false mine]
      have same : memberOf? field (m :: members) = memberOf? field members := by
        unfold memberOf?
        rw [List.find?_cons_of_neg (by simp [notField])]
      rw [same, List.filter_cons_of_pos (by simp [notField])]
      rcases put with put | ⟨none, pass, rfl⟩
      · rcases putFirst_eq_ok.mp put with ⟨eq, -⟩ | ⟨-, slots₂, other, rfl⟩
        · exact absurd eq mine
        · refine ⟨found, foldlM_cons_eq_ok.mpr ⟨slots₂, ?_, passed⟩⟩
          exact takeMember_eq_ok.mpr ⟨name, named, .inl other⟩
      · refine ⟨found, foldlM_cons_eq_ok.mpr ⟨slots₁.2, ?_, passed⟩⟩
        exact takeMember_eq_ok.mpr ⟨name, named, .inr ⟨(putFirst_eq_none.mp none).2, pass, rfl⟩⟩

/-- The first of several fields comes of the member of its name, where its slot was empty. -/
theorem comesOf_first {members : List (Token String × Tree)} {empty : σ} {slots : Option γ × σ}
    (taken : members.foldlM (takeMember (putFirst field read others)) (none, empty) = .ok slots)
    {fill : Option γ} {a : γ} (filled : slots.1.or fill = some a) :
    ComesOf read fill (memberOf? field members) a := by
  obtain ⟨⟨nothing, still⟩ | ⟨t, b, found, -, value, full⟩, -⟩ := foldlM_takeMember_first taken
  · rw [still, Option.none_or] at filled
    exact .inl ⟨nothing, filled⟩
  · rw [full, Option.some_or] at filled
    cases filled
    exact .inr ⟨t, found, value⟩

end

/-- What is found under the names of other fields is found without the members of the first. -/
theorem finds_others {field : String} {names : List String} {found : String → Nat → Option Tree}
    {members : List (Token String × Tree)} (new : field ∉ names)
    (finds : ∀ name ∈ field :: names, ∀ i, found name i = memberOf? name members) :
    ∀ name ∈ names, ∀ i, found name i = memberOf? name (members.filter (!isNamed field ·)) := by
  intro name mem i
  have other : name ≠ field := by
    rintro rfl
    exact new mem
  rw [memberOf?_filter other, finds name (List.mem_cons_of_mem _ mem)]

/-- **The members of an object come to the fields of their names.** -/
theorem Fields.comeOf_members (mode : Mode) (found : String → Nat → Option Tree) : {β : Type} →
    (fields : Fields β) → (i : Nat) → (members : List (Token String × Tree)) → fields.names.Nodup →
    (∀ name ∈ fields.names, ∀ i, found name i = memberOf? name members) →
    {slots : fields.Slots} → members.foldlM (takeMember (fields.put mode)) fields.empty = .ok slots →
    {b : β} → fields.collect slots = .ok b → fields.ComeOf mode found i b
  | _, .done, _, _, _, _, _, _, _, _ => trivial
  | _, .required field shape rest, i, members, nodup, finds, slots, taken, b, collected => by
    obtain ⟨slot, slots⟩ := slots
    rw [put_required] at taken
    obtain ⟨new, nodup⟩ := List.nodup_cons.mp nodup
    cases slot with
    | none => cases collected
    | some a =>
      obtain ⟨b, others, same⟩ := bind_eq_ok.mp collected
      cases same
      refine ⟨?_, rest.comeOf_members mode found _ _ nodup (finds_others new finds)
        (foldlM_takeMember_first taken).2 others⟩
      rw [finds field List.mem_cons_self]
      exact comesOf_first taken rfl
  | _, .defaulted field shape fill rest, i, members, nodup, finds, slots, taken, b, collected => by
    obtain ⟨slot, slots⟩ := slots
    rw [put_defaulted] at taken
    obtain ⟨new, nodup⟩ := List.nodup_cons.mp nodup
    obtain ⟨b, others, same⟩ := bind_eq_ok.mp collected
    cases same
    refine ⟨?_, rest.comeOf_members mode found _ _ nodup (finds_others new finds)
      (foldlM_takeMember_first taken).2 others⟩
    rw [finds field List.mem_cons_self]
    exact comesOf_first taken (by cases slot <;> rfl)
  | _, .optional field shape rest, i, members, nodup, finds, slots, taken, b, collected => by
    obtain ⟨slot, slots⟩ := slots
    rw [put_optional] at taken
    obtain ⟨new, nodup⟩ := List.nodup_cons.mp nodup
    obtain ⟨b, others, same⟩ := bind_eq_ok.mp collected
    cases same
    refine ⟨?_, rest.comeOf_members mode found _ _ nodup (finds_others new finds)
      (foldlM_takeMember_first taken).2 others⟩
    rw [finds field List.mem_cons_self]
    exact comesOf_first taken (by cases slot <;> rfl)

/-! ### Items by place -/

/-- **The first of several fields is read from the first item**, and the others from those behind it. -/
theorem itemsFirst_eq_ok {γ β : Type} {read : Tree → Except Problem γ} {fill : Option γ} {wanted : String}
    {index : Nat} {ending : Ending} {others : List Tree → Except Problem β} {items : List Tree} {c : γ × β}
    (h : itemsFirst read (lacking wanted index ending fill) others items = .ok c) :
    ComesOf read fill items.head? c.1 ∧ others items.tail = .ok c.2 := by
  cases items with
  | nil =>
    obtain ⟨lack, rest⟩ := itemsFirst_nil_eq_ok.mp h
    obtain ⟨-, -, filled⟩ := bind_eq_ok.mp lack
    cases fill with
    | none => cases filled
    | some fill => exact ⟨.inl ⟨rfl, congrArg some (Except.ok.inj filled)⟩, rest⟩
  | cons t items =>
    obtain ⟨first, rest⟩ := itemsFirst_cons_eq_ok.mp h
    exact ⟨.inr ⟨t, rfl, first⟩, rest⟩

section

variable {found : String → Nat → Option Tree} {i : Nat} {items : List Tree}
  (finds : ∀ name k, found name (i + k) = items[k]?)
include finds

theorem finds_first (name : String) : items.head? = found name i := by
  rw [List.head?_eq_getElem?, ← finds name 0, Nat.add_zero]

theorem finds_behind (name : String) (k : Nat) : found name (i + 1 + k) = items.tail[k]? := by
  rw [List.getElem?_tail, ← finds name (k + 1), Nat.add_assoc, Nat.add_comm 1 k]

end

/-- **The items of an array come to the fields at their places.** -/
theorem Fields.comeOf_items (mode : Mode) (found : String → Nat → Option Tree) (wanted : String)
    (ending : Ending) : {β : Type} → (fields : Fields β) → (i : Nat) → (items : List Tree) →
    (∀ name k, found name (i + k) = items[k]?) → {b : β} →
    fields.ofItems mode wanted i items ending = .ok b → fields.ComeOf mode found i b
  | _, .done, _, _, _, _, _ => trivial
  | _, .required field shape rest, i, items, finds, (a, b), ok => by
    rw [ofItems_required] at ok
    obtain ⟨first, others⟩ := itemsFirst_eq_ok ok
    exact ⟨finds_first finds field ▸ first,
      rest.comeOf_items mode found wanted ending _ _ (finds_behind finds) others⟩
  | _, .defaulted field shape fill rest, i, items, finds, (a, b), ok => by
    rw [ofItems_defaulted] at ok
    obtain ⟨first, others⟩ := itemsFirst_eq_ok ok
    exact ⟨finds_first finds field ▸ first,
      rest.comeOf_items mode found wanted ending _ _ (finds_behind finds) others⟩
  | _, .optional field shape rest, i, items, finds, (a, b), ok => by
    rw [ofItems_optional] at ok
    obtain ⟨first, others⟩ := itemsFirst_eq_ok ok
    exact ⟨finds_first finds field ▸ first,
      rest.comeOf_items mode found wanted ending _ _ (finds_behind finds) others⟩

/-! ### Records -/

/-- What stands for a field. -/
def Tree.fieldOf? (t : Tree) (name : String) (i : Nat) : Option Tree :=
  match t with
  | .object members _ => memberOf? name members
  | .array items _ => items[i]?
  | _ => none

/-- **What is read of a record comes field by field** of what stands for its fields. -/
theorem exists_of_read_record {mode : Mode} {α β : Type} {name : String} {fields : Fields β}
    {make : β → α} {split : α → β} {make_split : ∀ a, make (split a) = a} {t : Tree} {a : α}
    (nodup : fields.names.Nodup)
    (ok : (Shape.record name fields make split make_split).read mode t = .ok a) :
    ∃ b, make b = a ∧ fields.ComeOf mode t.fieldOf? 0 b := by
  cases t with
  | object members ending =>
    rw [read_object] at ok
    obtain ⟨slots, taken, ok⟩ := bind_eq_ok.mp ok
    obtain ⟨b, collected, made⟩ := bind_eq_ok.mp ok
    rw [readMembers_eq] at taken
    obtain ⟨slots', taken, ok⟩ := bind_eq_ok.mp taken
    obtain ⟨-, -, same⟩ := bind_eq_ok.mp ok
    cases same
    exact ⟨b, Except.ok.inj made, fields.comeOf_members mode _ 0 members nodup (fun _ _ _ => rfl) taken
      collected⟩
  | array items ending =>
    obtain ⟨b, ok, made⟩ := read_array_eq_ok.mp ok
    exact ⟨b, made, fields.comeOf_items mode _ _ ending 0 items (fun _ k => by rw [Nat.zero_add]; rfl) ok⟩
  | literal | number | string | broken => exact absurd ok mismatch_ne_ok

end StateReplica.Json
