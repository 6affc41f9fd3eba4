import StateReplica.Proofs.Json.CutText
import StateReplica.Proofs.Json.Tagged

/-!
Reading what is left of a value. A reader walks a tree from left to right, and in what is left of a tree
that can be read it meets nothing but the cut: everything before the cut is as it was, and a check that
looks at the whole of a record, as the one for missing fields, comes after the check of the ending. The
only thing that may go well is a word, which is cut to a smaller word (`Shape.read_cut`). So a record
that is cut is always recognised as cut, also where it is settled first (`Tagged.read_cut`), and with it
the text it is written in (`Format.parse_cut`).
-/

namespace StateReplica.Json

/-! ### Outcomes -/

/-- Whether nothing but one error can come of something. -/
def OkBut {ε α : Type} (e : ε) (x : Except ε α) : Prop := ∀ e', x = .error e' → e' = e

section

variable {ε α β : Type} {e : ε} {x : Except ε α}

theorem OkBut.ok (a : α) : OkBut e (.ok a) := nofun

theorem OkBut.of_eq_ok {a : α} (h : x = .ok a) : OkBut e x := h ▸ .ok a

theorem OkBut.of_eq_error (h : x = .error e) : OkBut e x := by
  rintro e' eq
  cases h.symm.trans eq
  rfl

theorem OkBut.bind {f : α → Except ε β} (h : OkBut e x) (h' : ∀ a, OkBut e (f a)) :
    OkBut e (x >>= f) := by
  cases x with
  | error e' => exact .of_eq_error (congrArg Except.error (h e' rfl))
  | ok a => exact h' a

theorem OkBut.bind_eq_error {f : α → Except ε β} (h : OkBut e x) (h' : ∀ a, f a = .error e) :
    x >>= f = .error e := by
  cases x with
  | error e' => exact congrArg Except.error (h e' rfl)
  | ok a => exact h' a

theorem OkBut.map {f : α → β} (h : OkBut e x) : OkBut e (x.map f) := by
  cases x with
  | error e' => exact .of_eq_error (congrArg Except.error (h e' rfl))
  | ok a => exact .ok (f a)

end

theorem OkBut.orFault {α : Type} {f : Fault} {x : Except Fault α} (h : OkBut f x) :
    OkBut (.fault f) (Json.orFault x) := by
  cases x with
  | error f' => exact .of_eq_error (congrArg (Except.error ∘ Problem.fault) (h f' rfl))
  | ok a => exact .ok a

/-! ### Lists -/

section

variable {R : Tree → Tree → Prop}

/-- Items that are cut are read one by one up to the cut. -/
theorem mapM_cut {α : Type} {read : Tree → Except Problem α} {us ts : List Tree} {e : Problem}
    (within : ∀ t full a, R t full → read full = .ok a → OkBut e (read t)) (cut : CutItems R us ts)
    {as : List α} (h : ts.mapM read = .ok as) : OkBut e (us.mapM read) := by
  induction cut generalizing as with
  | before => exact .ok []
  | within left ts =>
    rw [List.mapM_cons] at h ⊢
    obtain ⟨a, first, -⟩ := bind_eq_ok.mp h
    exact (within _ _ a left first).bind fun a => .ok [a]
  | behind t _ ih =>
    rw [List.mapM_cons] at h ⊢
    obtain ⟨a, first, rest⟩ := bind_eq_ok.mp h
    obtain ⟨as, others, -⟩ := bind_eq_ok.mp rest
    exact (OkBut.of_eq_ok first).bind fun a => (ih others).bind fun as => .ok (a :: as)

/-- Members that are cut are taken one by one up to the cut. -/
theorem foldlM_cut {σ : Type} {take : σ → Token String × Tree → Except Problem σ} {e : Problem}
    (name : ∀ s, take s (Token.faulty .cut, .broken .cut) = .error e)
    (within : ∀ s key t full s', R t full → take s (key, full) = .ok s' → OkBut e (take s (key, t)))
    {us ms : List (Token String × Tree)} (cut : CutMembers R us ms) {s s' : σ}
    (h : ms.foldlM take s = .ok s') : OkBut e (us.foldlM take s) := by
  induction cut generalizing s with
  | before => exact .ok s
  | name =>
    rw [List.foldlM_cons]
    exact (OkBut.of_eq_error (name s)).bind .ok
  | within key left ms =>
    rw [List.foldlM_cons]
    obtain ⟨s'', first, -⟩ := foldlM_cons_eq_ok.mp h
    exact (within s key _ _ s'' left first).bind .ok
  | behind m _ ih =>
    obtain ⟨s'', first, rest⟩ := foldlM_cons_eq_ok.mp h
    rw [List.foldlM_cons, first]
    exact ih rest

end

/-! ### Passing and settling -/

mutual

theorem pass_cut : (full : Tree) → {t : Tree} → t.Cut full → full.pass = .ok () →
    OkBut .cut t.pass
  | _, _, .broken _, _ => .of_eq_error rfl
  | _, _, .flag _, _ => .of_eq_error rfl
  | _, _, .string _, _ => .of_eq_error rfl
  | _, _, .number _ _, _ => .ok ()
  | .array ts _, _, .array cut, ok => by
    rw [Tree.pass] at ok ⊢
    obtain ⟨_, items, -⟩ := bind_eq_ok.mp ok
    exact (passItems_cut ts cut items).bind fun _ => .of_eq_error rfl
  | .object ms _, _, .object cut, ok => by
    rw [Tree.pass] at ok ⊢
    obtain ⟨_, members, -⟩ := bind_eq_ok.mp ok
    exact (passMembers_cut ms cut members).bind fun _ => .of_eq_error rfl

theorem passItems_cut : (ts : List Tree) → {us : List Tree} → CutItems Tree.Cut us ts →
    passItems ts = .ok () → OkBut .cut (passItems us)
  | _, _, .before _, _ => .ok ()
  | t :: ts, _, .within left _, ok => by
    rw [passItems] at ok ⊢
    obtain ⟨_, first, -⟩ := bind_eq_ok.mp ok
    exact (pass_cut t left first).bind .ok
  | t :: ts, _, .behind _ cut, ok => by
    rw [passItems] at ok ⊢
    obtain ⟨_, first, rest⟩ := bind_eq_ok.mp ok
    exact (OkBut.of_eq_ok first).bind fun _ => passItems_cut ts cut rest

theorem passMembers_cut : (ms : List (Token String × Tree)) → {us : List (Token String × Tree)} →
    CutMembers Tree.Cut us ms → passMembers ms = .ok () → OkBut .cut (passMembers us)
  | _, _, .before _, _ => .ok ()
  | _, _, .name _ _, _ => .of_eq_error rfl
  | (key, t) :: ms, _, .within _ left _, ok => by
    rw [passMembers] at ok ⊢
    obtain ⟨_, name, rest⟩ := bind_eq_ok.mp ok
    obtain ⟨_, first, -⟩ := bind_eq_ok.mp rest
    exact (OkBut.of_eq_ok name).bind fun _ => (pass_cut t left first).bind .ok
  | (key, t) :: ms, _, .behind _ cut, ok => by
    rw [passMembers] at ok ⊢
    obtain ⟨_, name, rest⟩ := bind_eq_ok.mp ok
    obtain ⟨_, first, others⟩ := bind_eq_ok.mp rest
    exact (OkBut.of_eq_ok name).bind fun _ => (OkBut.of_eq_ok first).bind fun _ =>
      passMembers_cut ms cut others

end

mutual

theorem settle_cut : (room : Nat) → (full : Tree) → {t : Tree} → t.Cut full →
    full.settle room = .ok () → OkBut .cut (t.settle room)
  | _, _, _, .broken _, _ => .of_eq_error (by rw [Tree.settle])
  | _, _, _, .flag _, _ => .of_eq_error (by rw [Tree.settle]; rfl)
  | _, _, _, .string _, _ => .of_eq_error (by rw [Tree.settle]; rfl)
  | _, _, _, .number _ _, _ => .of_eq_ok (a := ()) (by rw [Tree.settle]; rfl)
  | 0, .array _ _, _, .array _, ok => by rw [Tree.settle] at ok; cases ok
  | room + 1, .array ts _, _, .array cut, ok => by
    rw [Tree.settle] at ok ⊢
    obtain ⟨_, items, -⟩ := bind_eq_ok.mp ok
    exact (settleItems_cut room ts cut items).bind fun _ => .of_eq_error rfl
  | 0, .object _ _, _, .object _, ok => by rw [Tree.settle] at ok; cases ok
  | room + 1, .object ms _, _, .object cut, ok => by
    rw [Tree.settle] at ok ⊢
    obtain ⟨_, members, -⟩ := bind_eq_ok.mp ok
    exact (settleMembers_cut room ms cut members).bind fun _ => .of_eq_error rfl

theorem settleItems_cut : (room : Nat) → (ts : List Tree) → {us : List Tree} →
    CutItems Tree.Cut us ts → settleItems room ts = .ok () → OkBut .cut (settleItems room us)
  | _, _, _, .before _, _ => .ok ()
  | room, t :: ts, _, .within left _, ok => by
    rw [settleItems] at ok ⊢
    obtain ⟨_, first, -⟩ := bind_eq_ok.mp ok
    exact (settle_cut room t left first).bind .ok
  | room, t :: ts, _, .behind _ cut, ok => by
    rw [settleItems] at ok ⊢
    obtain ⟨_, first, rest⟩ := bind_eq_ok.mp ok
    exact (OkBut.of_eq_ok first).bind fun _ => settleItems_cut room ts cut rest

theorem settleMembers_cut : (room : Nat) → (ms : List (Token String × Tree)) →
    {us : List (Token String × Tree)} → CutMembers Tree.Cut us ms → settleMembers room ms = .ok () →
    OkBut .cut (settleMembers room us)
  | _, _, _, .before _, _ => .ok ()
  | _, _, _, .name _ _, _ => .of_eq_error rfl
  | room, (key, t) :: ms, _, .within _ left _, ok => by
    rw [settleMembers] at ok ⊢
    obtain ⟨_, name, rest⟩ := bind_eq_ok.mp ok
    obtain ⟨_, first, -⟩ := bind_eq_ok.mp rest
    exact (OkBut.of_eq_ok name).bind fun _ => (settle_cut room t left first).bind .ok
  | room, (key, t) :: ms, _, .behind _ cut, ok => by
    rw [settleMembers] at ok ⊢
    obtain ⟨_, name, rest⟩ := bind_eq_ok.mp ok
    obtain ⟨_, first, others⟩ := bind_eq_ok.mp rest
    exact (OkBut.of_eq_ok name).bind fun _ => (OkBut.of_eq_ok first).bind fun _ =>
      settleMembers_cut room ms cut others

end

/-! ### Values -/

/-- What can come of reading what is left of a tree: the fault of a cut text, or a value if it is a
number. -/
def CutRead {α : Type} (full : Tree) (x : Except Problem α) : Prop :=
  x = .error (.fault .cut) ∨ (∃ token, full = .number token) ∧ ∃ a, x = .ok a

theorem CutRead.okBut {α : Type} {full : Tree} {x : Except Problem α} (h : CutRead full x) :
    OkBut (.fault .cut) x := by
  rcases h with eq | ⟨-, a, eq⟩
  · exact .of_eq_error eq
  · exact .of_eq_ok eq

section

variable {t full : Tree}

/-- A word that is cut is a word. -/
theorem Word.read_cut {α : Type} (word : Word α) (cut : t.Cut full) {a : α}
    (ok : word.read full = .ok a) : CutRead full (word.read t) := by
  cases cut with
  | broken => exact .inl rfl
  | @number i j nonneg le =>
    rw [Word.read_integer] at ok
    split at ok
    next inRange =>
      have inRange' : 0 ≤ j ∧ j.toNat < word.size := ⟨nonneg, by omega⟩
      exact .inr ⟨⟨_, rfl⟩, _, (Word.read_integer word j).trans (if_pos inRange')⟩
    next => cases ok
  | _ => exact absurd ok mismatch_ne_ok

theorem readFlag_cut (cut : t.Cut full) {b : Bool} (ok : readFlag full = .ok b) :
    CutRead full (readFlag t) := by
  cases cut with
  | broken | flag => exact .inl rfl
  | _ => exact absurd ok mismatch_ne_ok

theorem readString_cut (cut : t.Cut full) {s : String} (ok : readString full = .ok s) :
    CutRead full (readString t) := by
  cases cut with
  | broken | string => exact .inl rfl
  | _ => exact absurd ok mismatch_ne_ok

/-- Behind the name of a choice stands its value, and nothing else. -/
theorem Choice.readDirect_named {α : Type} {choice : Choice α} {key : Token String} {name : String}
    {a : α} (named : key.value = .ok name) (found : choice.ofName name = .ok a) (value : Tree)
    (members : List (Token String × Tree)) (ending : Ending) :
    choice.readDirect (.object ((key, value) :: members) ending) = (do
      readUnit .direct value
      match members, ending with
      | [], .closed => return a
      | [], .broken .cut => throw (.fault .cut)
      | _, _ => throw (.fault .malformed)) := by
  rw [readDirect, named]
  show (choice.ofName name >>= _) = _
  rw [found]
  rfl

theorem Choice.readDirect_cut {α : Type} (choice : Choice α) (cut : t.Cut full) {a : α}
    (ok : choice.readDirect full = .ok a) : CutRead full (choice.readDirect t) := by
  cases cut with
  | broken | string => exact .inl rfl
  | object cut =>
    refine .inl ?_
    cases cut with
    | before | name => rfl
    | within key left ms =>
      obtain ⟨⟨name, named, found⟩, rfl, -⟩ := readDirect_object_eq_ok ok
      cases left
      rw [readDirect_named named found]
      rfl
    | behind m cut =>
      obtain ⟨⟨name, named, found⟩, unit, rfl, -⟩ := readDirect_object_eq_ok ok
      cases cut
      rw [readDirect_named named found, unit]
      rfl
  | _ => cases ok

theorem readProperties_cut (cut : t.Cut full) {ps : Properties} (ok : readProperties full = .ok ps) :
    CutRead full (readProperties t) := by
  cases cut with
  | broken => exact .inl rfl
  | object cut =>
    obtain ⟨_, taken, -⟩ := bind_eq_ok.mp ok
    refine .inl ((foldlM_cut (fun _ => rfl) ?_ cut taken).bind_eq_error fun _ => rfl)
    rintro ps key t full ps' left ok
    obtain ⟨name, named, rest⟩ := bind_eq_ok.mp ok
    obtain ⟨text, value, -⟩ := bind_eq_ok.mp rest
    exact (OkBut.of_eq_ok named).bind fun _ => (readString_cut left value).okBut.bind fun _ => .ok _
  | _ => exact absurd ok mismatch_ne_ok

theorem readList_cut {α : Type} {read : Tree → Except Problem α} (cut : t.Cut full)
    (item : ∀ t full a, t.Cut full → read full = .ok a → OkBut (.fault .cut) (read t)) {as : List α}
    (ok : readList read full = .ok as) : CutRead full (readList read t) := by
  cases cut with
  | broken => exact .inl rfl
  | array cut =>
    obtain ⟨_, items, -⟩ := bind_eq_ok.mp ok
    exact .inl ((mapM_cut item cut items).bind_eq_error fun _ => rfl)
  | _ => exact absurd ok mismatch_ne_ok

/-- Nothing is left of a null that is cut, so what is left of a value is not absent. -/
theorem readOptional_cut {α : Type} {read : Tree → Except Problem α} (cut : t.Cut full)
    (broken : read (.broken .cut) = .error (.fault .cut))
    (value : ∀ a, read full = .ok a → CutRead full (read t)) {a : Option α}
    (ok : readOptional read full = .ok a) : CutRead full (readOptional read t) := by
  by_cases absent : full = .literal (.ok .null)
  · subst absent
    cases cut
    have shown : Tree.broken .cut ≠ .literal (.ok .null) := fun h => by cases h
    exact .inl (by rw [readOptional_of_ne_null shown, broken]; rfl)
  · have shown : t ≠ .literal (.ok .null) := by
      rintro rfl
      cases cut
    rw [readOptional_of_ne_null absent] at ok
    obtain ⟨b, ok, -⟩ := map_eq_ok.mp ok
    rw [readOptional_of_ne_null shown]
    rcases value b ok with eq | ⟨number, c, eq⟩
    · exact .inl (by rw [eq]; rfl)
    · exact .inr ⟨number, some c, by rw [eq]; rfl⟩

end

/-! ### Fields -/

section

variable {t full : Tree} {γ σ : Type} {read : Tree → Except Problem γ}

theorem putFirst_cut {field : String} {others : σ → String → Tree → Option (Except Problem σ)}
    (value : ∀ a, read full = .ok a → OkBut (.fault .cut) (read t))
    (rest : ∀ slots name s, others slots name full = some (.ok s) →
      ∃ x, others slots name t = some x ∧ OkBut (.fault .cut) x)
    {slots s : Option γ × σ} {name : String}
    (ok : putFirst field read others slots name full = some (.ok s)) :
    ∃ x, putFirst field read others slots name t = some x ∧ OkBut (.fault .cut) x := by
  rw [putFirst]
  rcases putFirst_eq_ok.mp ok with ⟨same, empty, a, first, rfl⟩ | ⟨ne, s', other, rfl⟩
  · rw [if_pos same, empty]
    exact ⟨_, rfl, (value a first).map.map⟩
  · obtain ⟨x, taken, okBut⟩ := rest _ _ _ other
    rw [if_neg ne, taken]
    exact ⟨_, rfl, okBut.map⟩

/-- A member is taken or passed over whether it is cut or not. -/
theorem takeMember_cut {put : σ → String → Tree → Option (Except Problem σ)} {slots s : σ}
    {key : Token String} (cut : t.Cut full)
    (noSlot : ∀ name, put slots name full = none → put slots name t = none)
    (value : ∀ name s, put slots name full = some (.ok s) →
      ∃ x, put slots name t = some x ∧ OkBut (.fault .cut) x)
    (ok : takeMember put slots (key, full) = .ok s) :
    OkBut (.fault .cut) (takeMember put slots (key, t)) := by
  obtain ⟨name, named, taken⟩ := takeMember_eq_ok.mp ok
  rcases taken with put | ⟨none, passed, -⟩
  · obtain ⟨x, put, okBut⟩ := value name s put
    rw [takeMember_of_slot (m := (key, t)) named put]
    exact okBut
  · rw [takeMember_of_noSlot (m := (key, t)) named (noSlot name none)]
    exact (pass_cut full cut passed).orFault.bind fun _ => .ok slots

theorem itemsFirst_cut {β : Type} {lack lack' : Except Problem γ}
    {others others' : List Tree → Except Problem β} {us ts : List Tree}
    (cut : CutItems Tree.Cut us ts) (lacks : lack' = .error (.fault .cut))
    (value : ∀ t full a, t.Cut full → read full = .ok a → OkBut (.fault .cut) (read t))
    (rest : ∀ us ts b, CutItems Tree.Cut us ts → others ts = .ok b → others' us = .error (.fault .cut))
    {c : γ × β} (ok : itemsFirst read lack others ts = .ok c) :
    itemsFirst read lack' others' us = .error (.fault .cut) := by
  cases cut with
  | before => exact congrArg (· >>= _) lacks
  | within left ts =>
    obtain ⟨first, behind⟩ := itemsFirst_cons_eq_ok.mp ok
    refine (value _ _ _ left first).bind_eq_error fun a => ?_
    exact congrArg (· >>= _) (rest [] ts _ (.before ts) behind)
  | behind t cut =>
    obtain ⟨first, behind⟩ := itemsFirst_cons_eq_ok.mp ok
    refine (OkBut.of_eq_ok first).bind_eq_error fun a => ?_
    exact congrArg (· >>= _) (rest _ _ _ cut behind)

end

/-- A text that ends before a value is cut. -/
theorem Shape.read_broken {α : Type} (shape : Shape α) :
    shape.read .direct (.broken .cut) = .error (.fault .cut) := by
  cases shape <;> rfl

mutual

/-- **What is left of a value that can be read is recognised as cut**, unless it is a number. -/
theorem Shape.read_cut : {α : Type} → (shape : Shape α) → {t full : Tree} → t.Cut full → {a : α} →
    shape.read .direct full = .ok a → CutRead full (shape.read .direct t)
  | _, .word word, _, _, cut, _, ok => word.read_cut cut ok
  | _, .flag, _, _, cut, _, ok => readFlag_cut cut ok
  | _, .string, _, _, cut, _, ok => readString_cut cut ok
  | _, .choice choice, _, _, cut, _, ok => choice.readDirect_cut cut ok
  | _, .list item, _, _, cut, _, ok =>
    readList_cut cut (fun _ _ _ left ok => (item.read_cut left ok).okBut) ok
  | _, .properties, _, _, cut, _, ok => readProperties_cut cut ok
  | _, .record name fields make split make_split, t, full, cut, a, ok => by
    cases cut with
    | broken => exact .inl (Shape.read_broken _)
    | object cut =>
      obtain ⟨slots, _, taken, -⟩ := read_object_eq_ok.mp ok
      have noSlot (s : fields.Slots) (name : String) (t u : Tree)
          (h : fields.put .direct s name t = none) : fields.put .direct s name u = none :=
        (fields.put_eq_none .direct s name u).mpr ((fields.put_eq_none .direct s name t).mp h)
      have okBut := foldlM_cut (fun _ => rfl) (fun s _ t full _ left ok =>
        takeMember_cut left (fun name => noSlot s name full t) (fields.put_cut left s) ok) cut taken
      have members := okBut.bind_eq_error (f := fun slots => do
        orFault (Ending.broken .cut).check
        return slots) fun _ => rfl
      rw [← readMembers_eq] at members
      exact .inl (by rw [read_object, members]; rfl)
    | array cut =>
      obtain ⟨b, ok, -⟩ := read_array_eq_ok.mp ok
      have items := fields.ofItems_cut _ 0 _ _ b cut ok
      exact .inl (by rw [read_array, items]; rfl)
    | _ => exact absurd ok mismatch_ne_ok

/-- So is a member with it. -/
theorem Fields.put_cut : {β : Type} → (fields : Fields β) → {t full : Tree} → t.Cut full →
    (slots : fields.Slots) → (name : String) → (s : fields.Slots) →
    fields.put .direct slots name full = some (.ok s) →
    ∃ x, fields.put .direct slots name t = some x ∧ OkBut (.fault .cut) x
  | _, .done, _, _, _, _, _, _, ok => nomatch ok
  | _, .required _ shape rest, _, _, cut, _, _, _, ok => by
    rw [put_required] at ok ⊢
    exact putFirst_cut (fun _ ok => (shape.read_cut cut ok).okBut) (rest.put_cut cut) ok
  | _, .defaulted _ shape _ rest, _, _, cut, _, _, _, ok => by
    rw [put_defaulted] at ok ⊢
    exact putFirst_cut (fun _ ok => (shape.read_cut cut ok).okBut) (rest.put_cut cut) ok
  | _, .optional _ shape rest, _, _, cut, _, _, _, ok => by
    rw [put_optional] at ok ⊢
    refine putFirst_cut (fun _ ok => ?_) (rest.put_cut cut) ok
    exact (readOptional_cut cut shape.read_broken (fun _ => shape.read_cut cut) ok).okBut

/-- So are the items of a record with them. -/
theorem Fields.ofItems_cut : {β : Type} → (fields : Fields β) → (wanted : String) → (index : Nat) →
    (us ts : List Tree) → (b : β) → CutItems Tree.Cut us ts →
    fields.ofItems .direct wanted index ts .closed = .ok b →
    fields.ofItems .direct wanted index us (.broken .cut) = .error (.fault .cut)
  | _, .done, _, _, us, ts, _, cut, ok => by
    cases cut with
    | before => rfl
    | within | behind => cases ok
  | _, .required _ shape rest, wanted, index, us, ts, _, cut, ok => by
    rw [ofItems_required] at ok ⊢
    exact itemsFirst_cut cut rfl (fun _ _ _ left ok => (shape.read_cut left ok).okBut)
      (rest.ofItems_cut wanted (index + 1)) ok
  | _, .defaulted _ shape _ rest, wanted, index, us, ts, _, cut, ok => by
    rw [ofItems_defaulted] at ok ⊢
    exact itemsFirst_cut cut rfl (fun _ _ _ left ok => (shape.read_cut left ok).okBut)
      (rest.ofItems_cut wanted (index + 1)) ok
  | _, .optional _ shape rest, wanted, index, us, ts, _, cut, ok => by
    rw [ofItems_optional] at ok ⊢
    refine itemsFirst_cut cut rfl (fun _ _ _ left ok => ?_)
      (rest.ofItems_cut wanted (index + 1)) ok
    exact (readOptional_cut left shape.read_broken (fun _ => shape.read_cut left) ok).okBut

end

/-! ### Tagged types -/

namespace Tagged

variable {α : Type} {tagged : Tagged α} {room : Nat}

theorem readTag_cut {t full : Tree} (cut : t.Cut full) {tag : tagged.Tag}
    (ok : tagged.readTag full = .ok tag) : tagged.readTag t = .error (.fault .cut) := by
  cases cut with
  | broken | string => rfl
  | _ => exact absurd ok mismatch_ne_ok

theorem gather_cut {us ms others : List (Token String × Tree)} (cut : CutMembers Tree.Cut us ms)
    {found found' : Option tagged.Tag} (ok : tagged.gather room found ms = .ok (found', others)) :
    OkBut (.fault .cut) (tagged.gather room found us) := by
  induction cut generalizing found others with
  | before => exact .ok (found, [])
  | name => exact .of_eq_error rfl
  | @within key t _ left ms =>
    rcases gather_cons_eq_ok.mp ok with ⟨tag, holds, rfl, -⟩ | ⟨⟨⟨name, named, other⟩, settled⟩, -⟩
    · rw [gather_cons (m := (key, t)) holds.1, if_pos rfl]
      exact .of_eq_error (congrArg (· >>= _) (readTag_cut left holds.2))
    · rw [gather_cons (m := (key, t)) named, if_neg other]
      exact (settle_cut room _ left settled).orFault.bind fun _ => .ok (found, [(key, t)])
  | behind m cut ih =>
    rcases gather_cons_eq_ok.mp ok with ⟨tag, holds, rfl, rest⟩ | ⟨beside, _, rfl, rest⟩
    · rw [gather_of_holds holds]
      exact ih rest
    · rw [gather_of_beside beside]
      exact (ih rest).bind fun _ => .ok _

/-- **What is left of a value of a tagged type is recognised as cut.** -/
theorem read_cut {t full : Tree} (cut : t.Cut full) {a : α} (ok : tagged.read (room + 1) full = .ok a) :
    tagged.read (room + 1) t = .error (.fault .cut) := by
  cases cut with
  | broken => rfl
  | object cut =>
    obtain ⟨tag, others, _, _, gathered, -⟩ := read_object_eq_ok.mp ok
    exact (gather_cut cut gathered).bind_eq_error fun _ => rfl
  | array cut =>
    obtain ⟨tagTree, rest, tag, _, rfl, readTag, settled, -⟩ := read_array_eq_ok.mp ok
    cases cut with
    | before => rfl
    | within left => exact congrArg (· >>= _) (readTag_cut left readTag)
    | behind _ cut =>
      refine (OkBut.of_eq_ok readTag).bind_eq_error fun _ => ?_
      exact (settleItems_cut room rest cut (settleItems_eq_ok.mpr settled)).orFault.bind_eq_error
        fun _ => rfl
  | _ => exact absurd ok mismatch_ne_ok

end Tagged

/-! ### Texts -/

/-- **A text that is cut within a written value is recognised as cut**, if what is left of its tree is. -/
theorem Format.parse_cut {α : Type} {format : Format α} {a : α} (plain : (format.write a).Plain)
    (cut : ∀ t, t.Cut (format.write a).tree → format.read nestingRoom t = .error (.fault .cut))
    {layout : Layout} {kept lost : String}
    (text : kept ++ lost = String.ofList ((format.write a).render layout 0)) (more : lost ≠ "") :
    format.parse kept = .error (.fault .cut) := by
  obtain ⟨x, spelled, tree⟩ := exists_spelling_of_render plain.spellable layout 0
  have split : Blanks.none.1 ++ x.text = kept.toList ++ lost.toList := by
    rw [← String.toList_append, text, String.toList_ofList, spelled]
    rfl
  have scanned := scanValue_cut ⟨_, plain, tree.symm⟩ .none (2 * kept.toList.length + 2) _ _ split
    (by simpa using more) (by omega)
  exact parse_refused (cut (scan kept.toList).1 (tree ▸ scanned.tree))

end StateReplica.Json
