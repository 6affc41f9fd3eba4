import StateReplica.Proofs.Json.Reading

/-!
How the values of tagged types are read. What is settled first is the text as it stands, item by item
and member by member (`settleItems_eq_ok`, `settleMembers_eq_ok`); what is gathered of an object that
holds a tag is all the members but that one (`Tagged.gather_eq_ok`). So a value is read from an object by
reading its kind from the tag and its fields from the rest (`Tagged.read_object_eq_ok`), wherever the tag
stands.
-/

namespace StateReplica.Json

/-! ### Settling -/

theorem settleItems_eq_ok {room : Nat} {items : List Tree} :
    settleItems room items = .ok () ↔ ∀ t ∈ items, t.settle room = .ok () := by
  induction items with
  | nil => exact ⟨fun _ => nofun, fun _ => rfl⟩
  | cons t items ih =>
    rw [settleItems, bind_eq_ok, List.forall_mem_cons, ← ih]
    exact ⟨fun ⟨_, first, others⟩ => ⟨first, others⟩, fun ⟨first, others⟩ => ⟨(), first, others⟩⟩

/-- A member that can be read as it stands. -/
def Settles (room : Nat) (m : Token String × Tree) : Prop :=
  (∃ name, m.1.value = .ok name) ∧ m.2.settle room = .ok ()

theorem settleMembers_eq_ok {room : Nat} {members : List (Token String × Tree)} :
    settleMembers room members = .ok () ↔ ∀ m ∈ members, Settles room m := by
  induction members with
  | nil => exact ⟨fun _ => nofun, fun _ => rfl⟩
  | cons m members ih =>
    rw [settleMembers, bind_eq_ok, List.forall_mem_cons, ← ih]
    constructor
    · rintro ⟨name, key, h⟩
      obtain ⟨_, value, others⟩ := bind_eq_ok.mp h
      exact ⟨⟨⟨name, key⟩, value⟩, others⟩
    · rintro ⟨⟨⟨name, key⟩, value⟩, others⟩
      exact ⟨name, key, bind_eq_ok.mpr ⟨(), value, others⟩⟩

/-- An array is settled where there is room for it, item by item. -/
theorem settle_array_eq_ok {room : Nat} {items : List Tree} :
    (Tree.array items .closed).settle room = .ok () ↔
      ∃ inner, room = inner + 1 ∧ ∀ t ∈ items, t.settle inner = .ok () := by
  cases room with
  | zero => rw [Tree.settle]; exact ⟨nofun, fun ⟨_, h, _⟩ => nomatch h⟩
  | succ inner =>
    simp only [Nat.succ_inj, exists_eq_left', Tree.settle, ← settleItems_eq_ok]
    cases settleItems inner items <;> exact Iff.rfl

/-- An object is settled where there is room for it, member by member. -/
theorem settle_object_eq_ok {room : Nat} {members : List (Token String × Tree)} :
    (Tree.object members .closed).settle room = .ok () ↔
      ∃ inner, room = inner + 1 ∧ ∀ m ∈ members, Settles inner m := by
  cases room with
  | zero => rw [Tree.settle]; exact ⟨nofun, fun ⟨_, h, _⟩ => nomatch h⟩
  | succ inner =>
    simp only [Nat.succ_inj, exists_eq_left', Tree.settle, ← settleMembers_eq_ok]
    cases settleMembers inner members <;> exact Iff.rfl

namespace Tagged

variable {α : Type} {tagged : Tagged α} {room : Nat} {members others : List (Token String × Tree)}

/-! ### Gathering -/

variable (tagged room) in
/-- A member beside the tag, which is kept as it stands. -/
def Beside (m : Token String × Tree) : Prop :=
  (∃ name, m.1.value = .ok name ∧ name ≠ tagged.field) ∧ m.2.settle room = .ok ()

variable (tagged) in
/-- A member that holds a tag. -/
def Holds (tag : tagged.Tag) (m : Token String × Tree) : Prop :=
  m.1.value = .ok tagged.field ∧ tagged.readTag m.2 = .ok tag

theorem gather_cons {found : Option tagged.Tag} {m : Token String × Tree} {name : String}
    (named : m.1.value = .ok name) :
    tagged.gather room found (m :: members) =
      if name = tagged.field then
        match found with
        | some _ => throw (.duplicateField tagged.field)
        | none => do
          let tag ← tagged.readTag m.2
          tagged.gather room (some tag) members
      else do
        orFault (m.2.settle room)
        let (found, others) ← tagged.gather room found members
        return (found, m :: others) := by
  show (orFault m.1.value >>= _) = _
  rw [orFault_eq_ok.mpr named]
  rfl

theorem gather_of_holds {tag : tagged.Tag} {m : Token String × Tree} (h : tagged.Holds tag m) :
    tagged.gather room none (m :: members) = tagged.gather room (some tag) members := by
  rw [gather_cons h.1, if_pos rfl, h.2]
  rfl

theorem gather_of_beside {m : Token String × Tree} (h : tagged.Beside room m)
    (found : Option tagged.Tag) :
    tagged.gather room found (m :: members) = do
      let (found, others) ← tagged.gather room found members
      return (found, m :: others) := by
  obtain ⟨⟨name, named, other⟩, settled⟩ := h
  rw [gather_cons named, if_neg other, settled]
  rfl

/-- What is gathered of an object begins with its first member or with the tag in it. -/
theorem gather_cons_eq_ok {found found' : Option tagged.Tag} {m : Token String × Tree} :
    tagged.gather room found (m :: members) = .ok (found', others) ↔
      (∃ tag, tagged.Holds tag m ∧ found = none ∧
        tagged.gather room (some tag) members = .ok (found', others)) ∨
      (tagged.Beside room m ∧ ∃ others', others = m :: others' ∧
        tagged.gather room found members = .ok (found', others')) := by
  constructor
  · intro h
    obtain ⟨name, key, -⟩ := bind_eq_ok.mp h
    have named := orFault_eq_ok.mp key
    rw [gather_cons named] at h
    split at h
    next isTag =>
      cases found with
      | some _ => cases h
      | none =>
        obtain ⟨tag, read, h⟩ := bind_eq_ok.mp h
        exact .inl ⟨tag, ⟨isTag ▸ named, read⟩, rfl, h⟩
    next other =>
      obtain ⟨_, settled, h⟩ := bind_eq_ok.mp h
      obtain ⟨⟨found, others'⟩, gathered, h⟩ := bind_eq_ok.mp h
      cases h
      exact .inr ⟨⟨⟨name, named, other⟩, orFault_eq_ok.mp settled⟩, others', rfl, gathered⟩
  · rintro (⟨tag, holds, rfl, gathered⟩ | ⟨beside, others', rfl, gathered⟩)
    · rw [gather_of_holds holds, gathered]
    · rw [gather_of_beside beside, gathered]
      rfl

/-- Behind the tag there is no other one, and nothing is left out. -/
theorem gather_some_eq_ok {tag : tagged.Tag} {found : Option tagged.Tag} :
    tagged.gather room (some tag) members = .ok (found, others) ↔
      found = some tag ∧ others = members ∧ ∀ m ∈ members, tagged.Beside room m := by
  induction members generalizing others with
  | nil =>
    constructor
    · intro h
      cases h
      exact ⟨rfl, rfl, nofun⟩
    · rintro ⟨rfl, rfl, -⟩
      rfl
  | cons m members ih =>
    rw [gather_cons_eq_ok, List.forall_mem_cons]
    constructor
    · rintro (⟨_, _, found, _⟩ | ⟨beside, others', rfl, gathered⟩)
      · cases found
      · obtain ⟨rfl, rfl, rest⟩ := ih.mp gathered
        exact ⟨rfl, rfl, beside, rest⟩
    · rintro ⟨rfl, rfl, beside, rest⟩
      exact .inr ⟨beside, members, rfl, ih.mpr ⟨rfl, rfl, rest⟩⟩

/-- **What is gathered of an object with a tag** is everything else, in order. -/
theorem gather_eq_ok {tag : tagged.Tag} :
    tagged.gather room none members = .ok (some tag, others) ↔
      ∃ before m after, members = before ++ m :: after ∧ others = before ++ after ∧
        tagged.Holds tag m ∧ ∀ n ∈ before ++ after, tagged.Beside room n := by
  induction members generalizing others with
  | nil =>
    constructor
    · intro h
      cases h
    · rintro ⟨before, m, after, eq, -⟩
      cases before <;> cases eq
  | cons m members ih =>
    rw [gather_cons_eq_ok]
    constructor
    · rintro (⟨tag', holds, -, gathered⟩ | ⟨beside, others', rfl, gathered⟩)
      · obtain ⟨same, rfl, rest⟩ := gather_some_eq_ok.mp gathered
        cases same
        exact ⟨[], m, others, rfl, rfl, holds, rest⟩
      · obtain ⟨before, n, after, rfl, rfl, holds, rest⟩ := ih.mp gathered
        exact ⟨m :: before, n, after, rfl, rfl, holds, List.forall_mem_cons.mpr ⟨beside, rest⟩⟩
    · rintro ⟨before, n, after, eq, rfl, holds, rest⟩
      cases before with
      | nil =>
        cases eq
        exact .inl ⟨tag, holds, rfl, gather_some_eq_ok.mpr ⟨rfl, rfl, rest⟩⟩
      | cons first before =>
        cases eq
        obtain ⟨beside, rest⟩ := List.forall_mem_cons.mp rest
        exact .inr ⟨beside, before ++ after, rfl, ih.mpr ⟨before, n, after, rfl, rfl, holds, rest⟩⟩

/-- The tag may stand anywhere. -/
theorem gather_perm {members' : List (Token String × Tree)} {tag : tagged.Tag}
    (perm : members.Perm members')
    (ok : tagged.gather room none members = .ok (some tag, others)) :
    ∃ others', others.Perm others' ∧ tagged.gather room none members' = .ok (some tag, others') := by
  obtain ⟨before, m, after, rfl, rfl, holds, beside⟩ := gather_eq_ok.mp ok
  have mem : m ∈ members' := perm.mem_iff.mp (List.mem_append_right _ List.mem_cons_self)
  obtain ⟨before', after', rfl⟩ := List.append_of_mem mem
  have others : (before ++ after).Perm (before' ++ after') :=
    ((List.perm_middle.symm.trans perm).trans List.perm_middle).cons_inv
  refine ⟨before' ++ after', others, gather_eq_ok.mpr ⟨before', m, after', rfl, rfl, holds, ?_⟩⟩
  exact fun n mem => beside n (others.mem_iff.mpr mem)

/-! ### Values -/

/-- **A value is read from an object** by reading its kind from the tag and its fields from the other
members. -/
theorem read_object_eq_ok {a : α} :
    tagged.read (room + 1) (.object members .closed) = .ok a ↔
      ∃ tag others slots content, tagged.gather room none members = .ok (some tag, others) ∧
        others.foldlM (takeMember ((tagged.fields tag).put .settled)) (tagged.fields tag).empty =
          .ok slots ∧
        (tagged.fields tag).collect slots = .ok content ∧ tagged.make tag content = a := by
  rw [read, bind_eq_ok]
  constructor
  · rintro ⟨⟨found, others⟩, gathered, h⟩
    obtain ⟨_, -, h⟩ := bind_eq_ok.mp h
    cases found with
    | none => cases h
    | some tag =>
      simp only [readMembers_closed] at h
      obtain ⟨slots, taken, h⟩ := bind_eq_ok.mp h
      obtain ⟨content, collected, made⟩ := bind_eq_ok.mp h
      exact ⟨tag, others, slots, content, gathered, taken, collected, Except.ok.inj made⟩
  · rintro ⟨tag, others, slots, content, gathered, taken, collected, rfl⟩
    refine ⟨(some tag, others), gathered, bind_eq_ok.mpr ⟨(), rfl, ?_⟩⟩
    simp only [readMembers_closed]
    exact bind_eq_ok.mpr ⟨slots, taken, bind_eq_ok.mpr ⟨content, collected, rfl⟩⟩

/-- A value is read from an array by reading its kind from the first item and its fields from the
others. -/
theorem read_array_eq_ok {items : List Tree} {a : α} :
    tagged.read (room + 1) (.array items .closed) = .ok a ↔
      ∃ t rest tag content, items = t :: rest ∧ tagged.readTag t = .ok tag ∧
        (∀ item ∈ rest, item.settle room = .ok ()) ∧
        (tagged.fields tag).ofItems .settled
          (tagged.label tag ++ " with " ++ elements (tagged.fields tag).count) 0 rest .closed =
            .ok content ∧
        tagged.make tag content = a := by
  cases items with
  | nil =>
    constructor
    · intro h
      cases h
    · rintro ⟨t, rest, tag, content, eq, -⟩
      cases eq
  | cons t items =>
    rw [read, bind_eq_ok]
    constructor
    · rintro ⟨tag, readTag, h⟩
      obtain ⟨_, settled, h⟩ := bind_eq_ok.mp h
      obtain ⟨_, -, h⟩ := bind_eq_ok.mp h
      obtain ⟨content, read, made⟩ := bind_eq_ok.mp h
      exact ⟨t, items, tag, content, rfl, readTag, settleItems_eq_ok.mp (orFault_eq_ok.mp settled),
        read, Except.ok.inj made⟩
    · rintro ⟨t, rest, tag, content, eq, readTag, settled, read, rfl⟩
      cases eq
      exact ⟨tag, readTag, bind_eq_ok.mpr ⟨(), orFault_eq_ok.mpr (settleItems_eq_ok.mpr settled),
        bind_eq_ok.mpr ⟨(), rfl, bind_eq_ok.mpr ⟨content, read, rfl⟩⟩⟩⟩

end Tagged

end StateReplica.Json
