import StateReplica.Files.Host
import StateReplica.Proofs.Except

/-!
Walks on the tree of a host. What a step can come to is said once (`step_eq_ok`). Where one host has
everything that another one has, with directories as directories, every walk that goes well in the other
goes well in it and comes to the same position (`Extends.walk`).

Nothing is said of walks that fail: what is missing may be there later.
-/

namespace StateReplica.Host

variable {host host' host'' : Host}

/-- What a step from a directory can come to. -/
inductive Stepped (host : Host) (p : Position) : PathStep → Position → Prop
  | here : Stepped host p .here p
  | up : Stepped host p .up ⟨p.place.tail, p.lost - 1⟩
  | name {name : String} (found : p.lost = 0) (there : (host.entry? (name :: p.place)).isSome = true) :
      Stepped host p (.name name) ⟨name :: p.place, 0⟩

/-- **A step goes well** just where there is a directory to take it from. -/
theorem step_eq_ok {p q : Position} {s : PathStep} :
    host.step p s = .ok q ↔ host.at? p = some .directory ∧ Stepped host p s q := by
  unfold step
  constructor
  · intro h
    split at h
    · cases h
    · cases h
    next isDirectory =>
      refine ⟨isDirectory, ?_⟩
      cases s with
      | here =>
        cases h
        exact .here
      | up =>
        cases h
        exact .up
      | name name =>
        simp only at h
        split at h
        next found =>
          cases h
          exact .name found.1 found.2
        · cases h
  · rintro ⟨isDirectory, stepped⟩
    rw [isDirectory]
    cases stepped with
    | here => rfl
    | up => rfl
    | name found there => simp only [found, there, and_self, if_true]

/-- A walk over one step more. -/
theorem walk_concat (path : Path) (steps : List PathStep) (s : PathStep) :
    host.walk path (steps ++ [s]) = host.walk path steps >>= (host.step · s) := by
  unfold walk
  rw [List.foldlM_append]
  simp only [List.foldlM_cons, List.foldlM_nil, bind_pure]

/-! ### Hosts with more in them -/

/-- One host has everything that another one has, and directories as directories. -/
structure Extends (host host' : Host) : Prop where
  current : host'.current = host.current
  directory {place : Place} :
    host.entry? place = some .directory → host'.entry? place = some .directory
  there {place : Place} : (host.entry? place).isSome = true → (host'.entry? place).isSome = true

namespace Extends

theorem at? (h : Extends host host') {p : Position} (isDirectory : host.at? p = some .directory) :
    host'.at? p = some .directory := by
  unfold Host.at? at isDirectory ⊢
  by_cases found : p.lost = 0
  · rw [if_pos found] at isDirectory ⊢
    exact h.directory isDirectory
  · rw [if_neg found]

theorem step (h : Extends host host') {p q : Position} {s : PathStep} (taken : host.step p s = .ok q) :
    host'.step p s = .ok q := by
  obtain ⟨isDirectory, stepped⟩ := step_eq_ok.mp taken
  refine step_eq_ok.mpr ⟨h.at? isDirectory, ?_⟩
  cases stepped with
  | here => exact .here
  | up => exact .up
  | name found there => exact .name found (h.there there)

/-- **A walk that goes well goes well where there is more.** -/
theorem walk (h : Extends host host') {path : Path} {steps : List PathStep} {q : Position}
    (taken : host.walk path steps = .ok q) : host'.walk path steps = .ok q := by
  have start : host'.start path = host.start path := by
    unfold Host.start
    rw [h.current]
  unfold Host.walk at taken ⊢
  rw [start]
  generalize host.start path = p at taken ⊢
  induction steps generalizing p with
  | nil => exact taken
  | cons s steps ih =>
    obtain ⟨p', first, rest⟩ := foldlM_cons_eq_ok.mp taken
    exact foldlM_cons_eq_ok.mpr ⟨p', h.step first, ih p' rest⟩

end Extends

/-! ### Steps that stay -/

/-- Steps that stay where they are can be left out. -/
theorem foldlM_filter_here {steps : List PathStep} {p q : Position}
    (taken : steps.foldlM host.step p = .ok q) :
    (steps.filter (· ≠ .here)).foldlM host.step p = .ok q := by
  induction steps generalizing p with
  | nil => exact taken
  | cons s steps ih =>
    obtain ⟨p', first, rest⟩ := foldlM_cons_eq_ok.mp taken
    by_cases stays : s = .here
    · subst stays
      obtain ⟨-, ⟨⟩⟩ := step_eq_ok.mp first
      simpa using ih rest
    · rw [List.filter_cons_of_pos (by simpa using stays)]
      exact foldlM_cons_eq_ok.mpr ⟨p', first, ih rest⟩

/-- **A path is walked by its components.** -/
theorem walk_components {path : Path} {q : Position} (taken : host.walk path path.steps = .ok q) :
    host.walk path path.components = .ok q := by
  unfold walk at taken ⊢
  unfold Path.components
  split
  next steps _ given =>
    rw [given] at taken
    obtain ⟨p, first, rest⟩ := foldlM_cons_eq_ok.mp taken
    exact foldlM_cons_eq_ok.mpr ⟨p, first, foldlM_filter_here rest⟩
  next => exact foldlM_filter_here taken

end StateReplica.Host
