import StateReplica.Json.Format
import StateReplica.Proofs.Except

/-!
How records are read from the members of an object. Each member is taken into the slot of its field
(`takeMember`), and all that a slot can do is said once (`putFirst_eq_ok`): it takes a member of its
name if it is empty and the value can be read. From this follows for the slots of every record that it
does not depend on what is in them whether a member has a slot (`Fields.put_eq_none`), and that members
that are taken can be taken in any other order (`foldlM_takeMember_perm`).
-/

namespace StateReplica.Json

/-! ### Outcomes -/

theorem orFault_eq_ok {α : Type} {x : Except Fault α} {a : α} : orFault x = .ok a ↔ x = .ok a := by
  cases x with
  | error e => exact ⟨nofun, nofun⟩
  | ok b => exact ⟨fun h => by cases h; rfl, fun h => by cases h; rfl⟩

theorem mismatch_ne_ok {α : Type} {t : Tree} {wanted : String} {a : α} :
    mismatch t wanted ≠ .ok a := by
  intro h
  obtain ⟨_, -, thrown⟩ := bind_eq_ok.mp h
  cases thrown

theorem Word.read_integer {α : Type} (word : Word α) (i : Int) :
    word.read (.number (.ok (.integer i))) =
      if 0 ≤ i ∧ i.toNat < word.size then .ok (word.ofNat i.toNat)
      else .error (.invalidValue (.integer i) word.name) := rfl

/-- What is not null stands for a value. -/
theorem readOptional_of_ne_null {α : Type} {read : Tree → Except Problem α} {t : Tree}
    (h : t ≠ .literal (.ok .null)) : readOptional read t = (read t).map some := by
  rw [readOptional.eq_def]
  split
  next => exact absurd rfl h
  next => rfl

/-! ### Choices -/

theorem readUnit_direct_eq_ok {t : Tree} (ok : readUnit .direct t = .ok ()) : t = .literal (.ok .null) := by
  rw [readUnit.eq_def] at ok
  split at ok
  next => rfl
  next settled => cases settled
  next => exact absurd ok mismatch_ne_ok

/-- A choice that is read from an object is the one its only member names. -/
theorem Choice.readDirect_object_eq_ok {α : Type} {choice : Choice α} {key : Token String}
    {value : Tree} {members : List (Token String × Tree)} {ending : Ending} {a : α}
    (ok : choice.readDirect (.object ((key, value) :: members) ending) = .ok a) :
    (∃ name, key.value = .ok name ∧ choice.ofName name = .ok a) ∧ value = .literal (.ok .null) ∧
      members = [] ∧ ending = .closed := by
  obtain ⟨name, named, rest⟩ := bind_eq_ok.mp ok
  obtain ⟨b, found, rest⟩ := bind_eq_ok.mp rest
  obtain ⟨_, unit, rest⟩ := bind_eq_ok.mp rest
  split at rest
  next =>
    cases rest
    exact ⟨⟨name, orFault_eq_ok.mp named, found⟩, readUnit_direct_eq_ok unit, rfl, rfl⟩
  next => cases rest
  next => cases rest

/-! ### Members -/

section

variable {σ : Type} (put : σ → String → Tree → Option (Except Problem σ))

/-- Takes a member into its slot, or passes over it where it has none. -/
def takeMember (slots : σ) : Token String × Tree → Except Problem σ := fun (key, value) => do
  let name ← orFault key.value
  match put slots name value with
  | some outcome => outcome
  | none => orFault value.pass; return slots

theorem readMembers_eq (slots : σ) (members : List (Token String × Tree)) (ending : Ending) :
    readMembers put slots members ending = do
      let slots ← members.foldlM (takeMember put) slots
      orFault ending.check
      return slots := rfl

theorem readMembers_closed (slots : σ) (members : List (Token String × Tree)) :
    readMembers put slots members .closed = members.foldlM (takeMember put) slots := by
  rw [readMembers_eq]
  cases members.foldlM (takeMember put) slots <;> rfl

variable {put}

theorem takeMember_eq_ok {slots slots' : σ} {m : Token String × Tree} :
    takeMember put slots m = .ok slots' ↔ ∃ name, m.1.value = .ok name ∧
      (put slots name m.2 = some (.ok slots') ∨
        put slots name m.2 = none ∧ m.2.pass = .ok () ∧ slots' = slots) := by
  rw [takeMember, bind_eq_ok]
  constructor
  · rintro ⟨name, key, h⟩
    refine ⟨name, orFault_eq_ok.mp key, ?_⟩
    split at h
    next outcome eq => exact .inl (by rw [eq, h])
    next eq =>
      obtain ⟨⟨⟩, passed, same⟩ := bind_eq_ok.mp h
      exact .inr ⟨eq, orFault_eq_ok.mp passed, (Except.ok.inj same).symm⟩
  · rintro ⟨name, key, h⟩
    refine ⟨name, orFault_eq_ok.mpr key, ?_⟩
    rcases h with eq | ⟨eq, passed, rfl⟩
    · rw [eq]
    · rw [eq]
      exact bind_eq_ok.mpr ⟨(), orFault_eq_ok.mpr passed, rfl⟩

section

variable {slots : σ} {m : Token String × Tree} {name : String} (named : m.1.value = .ok name)
include named

theorem takeMember_of_slot {outcome : Except Problem σ} (slot : put slots name m.2 = some outcome) :
    takeMember put slots m = outcome := by
  have key : orFault m.1.value = .ok name := orFault_eq_ok.mpr named
  simp only [takeMember, key, slot, bind, Except.bind]

theorem takeMember_of_noSlot (noSlot : put slots name m.2 = none) :
    takeMember put slots m = orFault m.2.pass >>= fun _ => .ok slots := by
  have key : orFault m.1.value = .ok name := orFault_eq_ok.mpr named
  simp only [takeMember, key, noSlot, bind, Except.bind, pure, Except.pure]

end

end

/-! ### Slots -/

/-- Puts a member into the first of several slots if it has its name, and into the others if not. -/
def putFirst {γ σ : Type} (field : String) (read : Tree → Except Problem γ)
    (others : σ → String → Tree → Option (Except Problem σ)) (slots : Option γ × σ) (name : String)
    (t : Tree) : Option (Except Problem (Option γ × σ)) :=
  if name = field then some ((fill name slots.1 (read t)).map (·, slots.2))
  else (others slots.2 name t).map (·.map (slots.1, ·))

section

variable {γ σ : Type} {field : String} {read : Tree → Except Problem γ}
  {others : σ → String → Tree → Option (Except Problem σ)}

theorem putFirst_eq_none {slots : Option γ × σ} {name : String} {t : Tree} :
    putFirst field read others slots name t = none ↔
      name ≠ field ∧ others slots.2 name t = none := by
  rw [putFirst]
  split
  next eq => exact ⟨nofun, fun h => absurd eq h.1⟩
  next ne => rw [Option.map_eq_none_iff]; exact ⟨fun h => ⟨ne, h⟩, fun h => h.2⟩

/-- **What a slot takes**: a member of its name, if it is empty. -/
theorem putFirst_eq_ok {slots slots' : Option γ × σ} {name : String} {t : Tree} :
    putFirst field read others slots name t = some (.ok slots') ↔
      (name = field ∧ slots.1 = none ∧ ∃ a, read t = .ok a ∧ slots' = (some a, slots.2)) ∨
        (name ≠ field ∧ ∃ rest, others slots.2 name t = some (.ok rest) ∧ slots' = (slots.1, rest)) := by
  obtain ⟨slot, slots⟩ := slots
  rw [putFirst]
  split
  next eq =>
    rw [Option.some_inj, map_eq_ok]
    constructor
    · rintro ⟨filled, h, rfl⟩
      cases slot with
      | some _ => cases h
      | none =>
        obtain ⟨a, value, rfl⟩ := map_eq_ok.mp h
        exact .inl ⟨eq, rfl, a, value, rfl⟩
    · rintro (⟨_, rfl, a, value, rfl⟩ | ⟨ne, _⟩)
      · exact ⟨some a, map_eq_ok.mpr ⟨a, value, rfl⟩, rfl⟩
      · exact absurd eq ne
  next ne =>
    rw [Option.map_eq_some_iff]
    constructor
    · rintro ⟨outcome, put, h⟩
      obtain ⟨rest, rfl, rfl⟩ := map_eq_ok.mp h
      exact .inr ⟨ne, rest, put, rfl⟩
    · rintro (⟨eq, _⟩ | ⟨_, rest, put, rfl⟩)
      · exact absurd eq ne
      · exact ⟨.ok rest, put, rfl⟩

/-- What a slot takes it still takes where it can read as much. -/
theorem putFirst_mono {read' : Tree → Except Problem γ}
    {others' : σ → String → Tree → Option (Except Problem σ)} {name : String} {t u : Tree}
    (value : name = field → ∀ a, read t = .ok a → read' u = .ok a)
    (rest : name ≠ field → ∀ slots s, others slots name t = some (.ok s) →
      others' slots name u = some (.ok s)) {slots s : Option γ × σ}
    (ok : putFirst field read others slots name t = some (.ok s)) :
    putFirst field read' others' slots name u = some (.ok s) := by
  rcases putFirst_eq_ok.mp ok with ⟨same, empty, a, first, rfl⟩ | ⟨ne, s', other, rfl⟩
  · exact putFirst_eq_ok.mpr (.inl ⟨same, empty, a, value same a first, rfl⟩)
  · exact putFirst_eq_ok.mpr (.inr ⟨ne, s', rest ne _ s' other, rfl⟩)

/-- Members of other names leave a slot as it is. -/
theorem foldlM_putFirst {members : List (Token String × Tree)}
    (absent : ∀ m ∈ members, m.1.value ≠ .ok field) (slot : Option γ) {slots slots' : σ}
    (taken : members.foldlM (takeMember others) slots = .ok slots') :
    members.foldlM (takeMember (putFirst field read others)) (slot, slots) = .ok (slot, slots') := by
  induction members generalizing slots with
  | nil => cases taken; rfl
  | cons m members ih =>
    obtain ⟨other, absent⟩ := List.forall_mem_cons.mp absent
    obtain ⟨between, first, rest⟩ := foldlM_cons_eq_ok.mp taken
    refine foldlM_cons_eq_ok.mpr ⟨(slot, between), ?_, ih absent rest⟩
    obtain ⟨name, named, put | ⟨noSlot, passed, rfl⟩⟩ := takeMember_eq_ok.mp first
    · have ne : name ≠ field := fun same => other (same ▸ named)
      exact takeMember_eq_ok.mpr ⟨name, named, .inl (putFirst_eq_ok.mpr (.inr ⟨ne, between, put, rfl⟩))⟩
    · have ne : name ≠ field := fun same => other (same ▸ named)
      exact takeMember_eq_ok.mpr ⟨name, named, .inr ⟨putFirst_eq_none.mpr ⟨ne, noSlot⟩, passed, rfl⟩⟩

/-- A member of its name fills an empty slot, and those behind it fill the other slots. -/
theorem foldlM_putFirst_cons {m : Token String × Tree} {members : List (Token String × Tree)}
    (named : m.1.value = .ok field) (absent : ∀ m ∈ members, m.1.value ≠ .ok field) {c : γ}
    (value : read m.2 = .ok c) {slots slots' : σ}
    (taken : members.foldlM (takeMember others) slots = .ok slots') :
    (m :: members).foldlM (takeMember (putFirst field read others)) (none, slots) =
      .ok (some c, slots') := by
  refine foldlM_cons_eq_ok.mpr ⟨(some c, slots), ?_, foldlM_putFirst absent (some c) taken⟩
  exact takeMember_eq_ok.mpr ⟨field, named, .inl (putFirst_eq_ok.mpr (.inl ⟨rfl, rfl, c, value, rfl⟩))⟩

end

/-! Every field has a slot, and a slot does the same whatever its field is. -/

section

variable (mode : Mode) {α β : Type} (field : String) (shape : Shape α) (rest : Fields β)

theorem put_required : (Fields.required field shape rest).put mode =
    putFirst field (shape.read mode) (rest.put mode) := by
  funext slots name t
  rw [Fields.put]
  rfl

theorem put_defaulted (a : α) : (Fields.defaulted field shape a rest).put mode =
    putFirst field (shape.read mode) (rest.put mode) := by
  funext slots name t
  rw [Fields.put]
  rfl

theorem put_optional : (Fields.optional field shape rest).put mode =
    putFirst field (readOptional (shape.read mode)) (rest.put mode) := by
  funext slots name t
  rw [Fields.put]
  rfl

end

/-- A member has no slot among those of a field and others if it has not the name of the field and has
no slot among the others. -/
theorem not_mem_cons_of_putFirst {γ σ : Type} {field : String} {read : Tree → Except Problem γ}
    {others : σ → String → Tree → Option (Except Problem σ)} {names : List String} {name : String}
    {t : Tree} {slots : Option γ × σ} (h : others slots.2 name t = none ↔ name ∉ names) :
    putFirst field read others slots name t = none ↔ name ∉ field :: names := by
  rw [putFirst_eq_none, h, List.mem_cons, not_or]

/-- **A member has no slot if and only if no field has its name**, whatever the slots hold. -/
theorem Fields.put_eq_none (mode : Mode) : {β : Type} → (fields : Fields β) → (slots : fields.Slots) →
    (name : String) → (t : Tree) → (fields.put mode slots name t = none ↔ name ∉ fields.names)
  | _, .done, _, _, _ => ⟨fun _ => List.not_mem_nil, fun _ => rfl⟩
  | _, .required field shape rest, slots, name, t => by
    rw [put_required]
    exact not_mem_cons_of_putFirst (rest.put_eq_none mode _ name t)
  | _, .defaulted field shape a rest, slots, name, t => by
    rw [put_defaulted]
    exact not_mem_cons_of_putFirst (rest.put_eq_none mode _ name t)
  | _, .optional field shape rest, slots, name, t => by
    rw [put_optional]
    exact not_mem_cons_of_putFirst (rest.put_eq_none mode _ name t)

/-- Whether two members that are put one after the other can be put the other way round. -/
def Commutes {σ : Type} (put : σ → String → Tree → Option (Except Problem σ)) : Prop :=
  ∀ ⦃slots first both : σ⦄ ⦃a b : String⦄ ⦃t u : Tree⦄, put slots a t = some (.ok first) →
    put first b u = some (.ok both) →
      ∃ second, put slots b u = some (.ok second) ∧ put second a t = some (.ok both)

theorem putFirst_commutes {γ σ : Type} {field : String} {read : Tree → Except Problem γ}
    {others : σ → String → Tree → Option (Except Problem σ)} (h : Commutes others) :
    Commutes (putFirst field read others) := by
  intro slots first both a b t u ha hb
  rcases putFirst_eq_ok.mp ha with ⟨isA, empty, v, readA, rfl⟩ | ⟨notA, restA, putA, rfl⟩
  · rcases putFirst_eq_ok.mp hb with ⟨isB, full, _⟩ | ⟨notB, restB, putB, rfl⟩
    · cases full
    · exact ⟨(slots.1, restB), putFirst_eq_ok.mpr (.inr ⟨notB, restB, putB, rfl⟩),
        putFirst_eq_ok.mpr (.inl ⟨isA, empty, v, readA, rfl⟩)⟩
  · rcases putFirst_eq_ok.mp hb with ⟨isB, empty, v, readB, rfl⟩ | ⟨notB, restB, putB, rfl⟩
    · exact ⟨(some v, slots.2), putFirst_eq_ok.mpr (.inl ⟨isB, empty, v, readB, rfl⟩),
        putFirst_eq_ok.mpr (.inr ⟨notA, restA, putA, rfl⟩)⟩
    · obtain ⟨second, putB', putA'⟩ := h putA putB
      exact ⟨(slots.1, second), putFirst_eq_ok.mpr (.inr ⟨notB, second, putB', rfl⟩),
        putFirst_eq_ok.mpr (.inr ⟨notA, restB, putA', rfl⟩)⟩

theorem Fields.put_commutes (mode : Mode) :
    {β : Type} → (fields : Fields β) → Commutes (fields.put mode)
  | _, .done => fun _ _ _ _ _ _ _ h => nomatch h
  | _, .required field shape rest => by
    rw [put_required]
    exact putFirst_commutes (rest.put_commutes mode)
  | _, .defaulted field shape a rest => by
    rw [put_defaulted]
    exact putFirst_commutes (rest.put_commutes mode)
  | _, .optional field shape rest => by
    rw [put_optional]
    exact putFirst_commutes (rest.put_commutes mode)

/-! ### The order of members -/

/-- A fold whose steps can be taken the other way round does not depend on the order of the list, as far
as it succeeds. -/
theorem foldlM_perm {ε σ α : Type} {f : σ → α → Except ε σ}
    (commutes : ∀ ⦃s s' s'' a b⦄, f s a = .ok s' → f s' b = .ok s'' →
      ∃ t, f s b = .ok t ∧ f t a = .ok s'') {as bs : List α} (perm : as.Perm bs) {s s' : σ}
    (h : as.foldlM f s = .ok s') : bs.foldlM f s = .ok s' := by
  induction perm generalizing s with
  | nil => exact h
  | cons a _ ih =>
    obtain ⟨t, first, rest⟩ := foldlM_cons_eq_ok.mp h
    exact foldlM_cons_eq_ok.mpr ⟨t, first, ih rest⟩
  | swap a b as =>
    obtain ⟨t, first, rest⟩ := foldlM_cons_eq_ok.mp h
    obtain ⟨u, second, rest⟩ := foldlM_cons_eq_ok.mp rest
    obtain ⟨v, first', second'⟩ := commutes first second
    exact foldlM_cons_eq_ok.mpr ⟨v, first', foldlM_cons_eq_ok.mpr ⟨u, second', rest⟩⟩
  | trans _ _ ih ih' => exact ih' (ih h)

/-- **Members that are taken are taken in any order.** -/
theorem foldlM_takeMember_perm (mode : Mode) {β : Type} (fields : Fields β)
    {members members' : List (Token String × Tree)} (perm : members.Perm members')
    {slots slots' : fields.Slots}
    (h : members.foldlM (takeMember (fields.put mode)) slots = .ok slots') :
    members'.foldlM (takeMember (fields.put mode)) slots = .ok slots' := by
  refine foldlM_perm ?_ perm h
  intro s s' s'' a b ha hb
  obtain ⟨nameA, keyA, takenA⟩ := takeMember_eq_ok.mp ha
  obtain ⟨nameB, keyB, takenB⟩ := takeMember_eq_ok.mp hb
  -- a member without a slot has none before and after another one
  have noSlot {name : String} {t : Tree} {s : fields.Slots} (s' : fields.Slots)
      (none : fields.put mode s name t = none) : fields.put mode s' name t = Option.none :=
    (fields.put_eq_none mode s' name t).mpr ((fields.put_eq_none mode s name t).mp none)
  rcases takenA with putA | ⟨noneA, passA, rfl⟩
  · rcases takenB with putB | ⟨noneB, passB, rfl⟩
    · obtain ⟨t, putB', putA'⟩ := fields.put_commutes mode putA putB
      exact ⟨t, takeMember_eq_ok.mpr ⟨nameB, keyB, .inl putB'⟩,
        takeMember_eq_ok.mpr ⟨nameA, keyA, .inl putA'⟩⟩
    · exact ⟨s, takeMember_eq_ok.mpr ⟨nameB, keyB, .inr ⟨noSlot s noneB, passB, rfl⟩⟩,
        takeMember_eq_ok.mpr ⟨nameA, keyA, .inl putA⟩⟩
  · exact ⟨s'', hb, takeMember_eq_ok.mpr ⟨nameA, keyA, .inr ⟨noSlot s'' noneA, passA, rfl⟩⟩⟩

/-! ### Items -/

/-- Reads the first of several fields from an item, if there is one, and the others from the items
behind it. -/
def itemsFirst {γ β : Type} (read : Tree → Except Problem γ) (lack : Except Problem γ)
    (others : List Tree → Except Problem β) (items : List Tree) : Except Problem (γ × β) := do
  let a ← match items with
    | [] => lack
    | t :: _ => read t
  return (a, ← others items.tail)

theorem itemsFirst_nil_eq_ok {γ β : Type} {read : Tree → Except Problem γ} {lack : Except Problem γ}
    {others : List Tree → Except Problem β} {c : γ × β} :
    itemsFirst read lack others [] = .ok c ↔ lack = .ok c.1 ∧ others [] = .ok c.2 := by
  rw [itemsFirst, bind_eq_ok]
  constructor
  · rintro ⟨a, first, h⟩
    obtain ⟨b, rest, h⟩ := bind_eq_ok.mp h
    cases h
    exact ⟨first, rest⟩
  · rintro ⟨first, rest⟩
    exact ⟨c.1, first, bind_eq_ok.mpr ⟨c.2, rest, rfl⟩⟩

theorem itemsFirst_cons_eq_ok {γ β : Type} {read : Tree → Except Problem γ} {lack : Except Problem γ}
    {others : List Tree → Except Problem β} {t : Tree} {ts : List Tree} {c : γ × β} :
    itemsFirst read lack others (t :: ts) = .ok c ↔ read t = .ok c.1 ∧ others ts = .ok c.2 := by
  rw [itemsFirst, bind_eq_ok]
  constructor
  · rintro ⟨a, first, h⟩
    obtain ⟨b, rest, h⟩ := bind_eq_ok.mp h
    cases h
    exact ⟨first, rest⟩
  · rintro ⟨first, rest⟩
    exact ⟨c.1, first, bind_eq_ok.mpr ⟨c.2, rest, rfl⟩⟩

section

variable (mode : Mode) {α β : Type} (field : String) (shape : Shape α) (rest : Fields β)
  (wanted : String) (index : Nat) (items : List Tree) (ending : Ending)

theorem ofItems_required :
    (Fields.required field shape rest).ofItems mode wanted index items ending =
      itemsFirst (shape.read mode) (lacking wanted index ending none)
        (rest.ofItems mode wanted (index + 1) · ending) items := by
  cases items <;> rfl

theorem ofItems_defaulted (a : α) :
    (Fields.defaulted field shape a rest).ofItems mode wanted index items ending =
      itemsFirst (shape.read mode) (lacking wanted index ending (some a))
        (rest.ofItems mode wanted (index + 1) · ending) items := by
  cases items <;> rfl

theorem ofItems_optional :
    (Fields.optional field shape rest).ofItems mode wanted index items ending =
      itemsFirst (readOptional (shape.read mode)) (lacking wanted index ending (some none))
        (rest.ofItems mode wanted (index + 1) · ending) items := by
  cases items <;> rfl

end

/-! ### Records -/

section

variable {mode : Mode} {α β : Type} {name : String} {fields : Fields β} {make : β → α} {split : α → β}
  {make_split : ∀ a, make (split a) = a}

variable (mode name fields make split make_split) in
theorem read_object (members : List (Token String × Tree)) (ending : Ending) :
    (Shape.record name fields make split make_split).read mode (.object members ending) = do
      let slots ← readMembers (fields.put mode) fields.empty members ending
      let b ← fields.collect slots
      return make b := rfl

variable (mode name fields make split make_split) in
theorem read_array (items : List Tree) (ending : Ending) :
    (Shape.record name fields make split make_split).read mode (.array items ending) = do
      let b ← fields.ofItems mode ("struct " ++ name ++ " with " ++ elements fields.count) 0 items
        ending
      return make b := rfl

/-- **A record is read from an object** by taking its members one after the other. -/
theorem read_object_eq_ok {members : List (Token String × Tree)} {a : α} :
    (Shape.record name fields make split make_split).read mode (.object members .closed) = .ok a ↔
      ∃ slots b, members.foldlM (takeMember (fields.put mode)) fields.empty = .ok slots ∧
        fields.collect slots = .ok b ∧ make b = a := by
  rw [read_object, readMembers_closed]
  constructor
  · intro h
    obtain ⟨slots, taken, h⟩ := bind_eq_ok.mp h
    obtain ⟨b, collected, made⟩ := bind_eq_ok.mp h
    exact ⟨slots, b, taken, collected, Except.ok.inj made⟩
  · rintro ⟨slots, b, taken, collected, rfl⟩
    exact bind_eq_ok.mpr ⟨slots, taken, bind_eq_ok.mpr ⟨b, collected, rfl⟩⟩

/-- A record is read from an array by reading its fields off the items. -/
theorem read_array_eq_ok {items : List Tree} {ending : Ending} {a : α} :
    (Shape.record name fields make split make_split).read mode (.array items ending) = .ok a ↔
      ∃ b, fields.ofItems mode ("struct " ++ name ++ " with " ++ elements fields.count) 0 items ending =
        .ok b ∧ make b = a := by
  rw [read_array]
  constructor
  · intro h
    obtain ⟨b, h, made⟩ := bind_eq_ok.mp h
    exact ⟨b, h, Except.ok.inj made⟩
  · rintro ⟨b, h, rfl⟩
    exact bind_eq_ok.mpr ⟨b, h, rfl⟩

end

end StateReplica.Json
