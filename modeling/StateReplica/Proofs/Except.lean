import Mathlib.Data.List.Forall2

/-!
When computations that may fail give a result: each of their parts does.
-/

namespace StateReplica

variable {ε α β : Type}

theorem bind_eq_ok {x : Except ε α} {f : α → Except ε β} {b : β} :
    x >>= f = .ok b ↔ ∃ a, x = .ok a ∧ f a = .ok b := by
  cases x with
  | error e => exact ⟨nofun, nofun⟩
  | ok a => exact ⟨fun h => ⟨a, rfl, h⟩, fun ⟨_, h, h'⟩ => by cases h; exact h'⟩

theorem bind_eq_error {x : Except ε α} {f : α → Except ε β} {e : ε} :
    x >>= f = .error e ↔ x = .error e ∨ ∃ a, x = .ok a ∧ f a = .error e := by
  cases x with
  | error e' =>
    exact ⟨fun h => .inl (by cases h; rfl), fun h => h.elim (fun h => by cases h; rfl) nofun⟩
  | ok a =>
    exact ⟨fun h => .inr ⟨a, rfl, h⟩, fun h => h.elim nofun fun ⟨_, h, h'⟩ => by cases h; exact h'⟩

theorem map_eq_ok {x : Except ε α} {f : α → β} {b : β} :
    x.map f = .ok b ↔ ∃ a, x = .ok a ∧ f a = b := by
  cases x with
  | error e => exact ⟨nofun, nofun⟩
  | ok a => exact ⟨fun h => ⟨a, rfl, Except.ok.inj h⟩, fun ⟨_, h, h'⟩ => by cases h; rw [← h']; rfl⟩

theorem foldlM_cons_eq_ok {f : α → β → Except ε α} {a a' : α} {b : β} {bs : List β} :
    (b :: bs).foldlM f a = .ok a' ↔ ∃ a₁, f a b = .ok a₁ ∧ bs.foldlM f a₁ = .ok a' := by
  rw [List.foldlM_cons, bind_eq_ok]

theorem foldlM_mono {f g : α → β → Except ε α} {bs : List β} {a a' : α}
    (step : ∀ a b a', f a b = .ok a' → g a b = .ok a') (ok : bs.foldlM f a = .ok a') :
    bs.foldlM g a = .ok a' := by
  induction bs generalizing a with
  | nil => exact ok
  | cons b bs ih =>
    obtain ⟨a₁, first, rest⟩ := foldlM_cons_eq_ok.mp ok
    exact foldlM_cons_eq_ok.mpr ⟨a₁, step a b a₁ first, ih rest⟩

theorem forall_mem_of_foldlM_eq_ok {f : α → β → Except ε α} {bs : List β} {a a' : α}
    (ok : bs.foldlM f a = .ok a') : ∀ b ∈ bs, ∃ a₁ a₂, f a₁ b = .ok a₂ := by
  induction bs generalizing a with
  | nil => exact nofun
  | cons b bs ih =>
    obtain ⟨a₁, first, rest⟩ := foldlM_cons_eq_ok.mp ok
    exact List.forall_mem_cons.mpr ⟨⟨a, a₁, first⟩, ih rest⟩

theorem mapM_eq_ok {f : α → Except ε β} {as : List α} {bs : List β} :
    as.mapM f = .ok bs ↔ List.Forall₂ (fun a b => f a = .ok b) as bs := by
  induction as generalizing bs with
  | nil =>
    rw [List.mapM_nil, List.forall₂_nil_left_iff]
    exact ⟨fun h => (Except.ok.inj h).symm, fun h => congrArg Except.ok h.symm⟩
  | cons a as ih =>
    rw [List.mapM_cons, List.forall₂_cons_left_iff]
    constructor
    · intro ok
      obtain ⟨b, first, ok⟩ := bind_eq_ok.mp ok
      obtain ⟨bs, rest, ok⟩ := bind_eq_ok.mp ok
      exact ⟨b, bs, first, ih.mp rest, (Except.ok.inj ok).symm⟩
    · rintro ⟨b, bs, first, rest, rfl⟩
      exact bind_eq_ok.mpr ⟨b, first, bind_eq_ok.mpr ⟨bs, ih.mpr rest, rfl⟩⟩

theorem forall_mem_of_mapM_eq_ok {f : α → Except ε β} {as : List α} {bs : List β}
    (ok : as.mapM f = .ok bs) : ∀ a ∈ as, ∃ b, f a = .ok b := by
  induction mapM_eq_ok.mp ok with
  | nil => exact nofun
  | cons first rest ih => exact List.forall_mem_cons.mpr ⟨⟨_, first⟩, ih (mapM_eq_ok.mpr rest)⟩

/-- What is refused under some condition gives a result only where the condition does not hold. -/
theorem guard_eq_ok {refused : Prop} [Decidable refused] {e : ε} {f : PUnit → Except ε α}
    {x : Except ε α} {a : α} :
    (if refused then throw e >>= f else x) = .ok a ↔ ¬refused ∧ x = .ok a := by
  split
  next h => exact ⟨nofun, fun given => absurd h given.1⟩
  next h => exact ⟨fun given => ⟨h, given⟩, fun given => given.2⟩

end StateReplica
