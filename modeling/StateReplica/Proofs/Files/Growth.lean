import StateReplica.Proofs.Files.Walk

/-!
What making directories and writing files change on a host. Both put one entry below a directory that is
there (`makeDirectory_eq_ok`, `writeBytes_eq_ok`). Making a directory together with those above it adds
directories along its path and touches nothing else, whether it goes well or fails half way
(`makeDirectories_grown`). What was written is where its path leads, and is read again (`writeText_eq_ok`).
-/

namespace StateReplica.Host

variable {host host' host'' : Host} {path : Path} {parent place : Place} {name : String}

/-! ### Entries -/

theorem any_isDirectory {entry : Option Entry} :
    entry.any (·.isDirectory) = true ↔ entry = some .directory := by
  cases entry with
  | none => exact ⟨nofun, nofun⟩
  | some entry =>
    cases entry with
    | directory => exact ⟨fun _ => rfl, fun _ => rfl⟩
    | file content => exact ⟨nofun, nofun⟩

/-- Puts an entry at a place. -/
def put (host : Host) (place : Place) (entry : Entry) : Host :=
  { host with entries := host.entries.insert place entry }

theorem entryAt_put (entry : Entry) :
    Host.entry? (host.put (name :: parent) entry) place =
      if place = name :: parent then some entry else host.entry? place := by
  cases place with
  | nil => rfl
  | cons first rest =>
    show (host.entries.insert (name :: parent) entry)[first :: rest]? =
      if first :: rest = name :: parent then some entry else host.entries[first :: rest]?
    simp only [Std.ExtTreeMap.getElem?_insert, Std.LawfulEqOrd.compare_eq_iff_eq,
      eq_comm (a := name :: parent)]

/-- Putting an entry where no directory is takes nothing away. -/
theorem extends_put {entry : Entry} (free : host.entry? (name :: parent) ≠ some .directory) :
    host.Extends (host.put (name :: parent) entry) where
  current := rfl
  directory {place} isDirectory := by
    have other : place ≠ name :: parent := by
      rintro rfl
      exact free isDirectory
    rw [entryAt_put, if_neg other]
    exact isDirectory
  there {place} there := by
    rw [entryAt_put]
    split
    · rfl
    · exact there

/-- A path ends in a name, and the steps before it lead to a directory. -/
structure EndsIn (host : Host) (path : Path) (parent : Place) (name : String) : Prop where
  last : path.steps.getLast? = some (.name name)
  above : host.walk path path.steps.dropLast = .ok ⟨parent, 0⟩
  directory : host.entry? parent = some .directory

namespace EndsIn

theorem steps_eq (h : host.EndsIn path parent name) :
    path.steps = path.steps.dropLast ++ [.name name] := by
  obtain ⟨above, eq⟩ := List.getLast?_eq_some_iff.mp h.last
  rw [eq, List.dropLast_concat]

/-- **Where a path ends in a name, it leads to what has that name.** -/
theorem walk_put (h : host.EndsIn path parent name) {entry : Entry}
    (free : host.entry? (name :: parent) ≠ some .directory) :
    (host.put (name :: parent) entry).walk path path.steps = .ok ⟨name :: parent, 0⟩ := by
  have more : host.Extends (host.put (name :: parent) entry) := extends_put free
  rw [h.steps_eq, walk_concat, more.walk h.above]
  refine step_eq_ok.mpr ⟨more.at? (p := ⟨parent, 0⟩) h.directory, .name rfl ?_⟩
  rw [entryAt_put, if_pos rfl]
  rfl

end EndsIn

/-- What a path is split into, where its last step is a name. -/
theorem split_eq_ok_name {p : Position} (split : host.split path = .ok (p, .name name))
    (found : p.lost = 0) : host.EndsIn path p.place name := by
  unfold Host.split at split
  cases last : path.steps.getLast? with
  | none =>
    simp only [last] at split
    split at split <;> cases split
  | some s =>
    simp only [last] at split
    obtain ⟨p', walked, rest⟩ := bind_eq_ok.mp split
    obtain ⟨q, stayed, same⟩ := bind_eq_ok.mp rest
    cases same
    obtain ⟨isDirectory, -⟩ := step_eq_ok.mp stayed
    obtain ⟨place, lost⟩ := p
    obtain rfl : lost = 0 := found
    exact ⟨last, walked, isDirectory⟩

/-- **Making a directory** puts one where nothing was. -/
theorem makeDirectory_eq_ok (made : host.makeDirectory path = .ok host') :
    ∃ parent name, host.EndsIn path parent name ∧ host.entry? (name :: parent) = none ∧
      host' = host.put (name :: parent) .directory := by
  unfold makeDirectory at made
  obtain ⟨⟨p, last⟩, split, rest⟩ := bind_eq_ok.mp made
  cases last with
  | here | up => cases rest
  | name name =>
    obtain ⟨found, rest⟩ := guard_eq_ok.mp rest
    obtain ⟨free, rest⟩ := guard_eq_ok.mp rest
    cases rest
    exact ⟨p.place, name, split_eq_ok_name split (Decidable.not_not.mp found), by simpa using free, rfl⟩

/-- **Writing** puts a file where no directory is. -/
theorem writeBytes_eq_ok {text : String} {content : ByteArray}
    (written : host.writeBytes text content = .ok host') :
    ∃ parent name, host.EndsIn (.ofText text) parent name ∧ (Path.ofText text).trailing = false ∧
      host.entry? (name :: parent) ≠ some .directory ∧
      host' = host.put (name :: parent) (.file content) := by
  unfold writeBytes at written
  obtain ⟨⟨p, last⟩, split, rest⟩ := bind_eq_ok.mp written
  cases last with
  | here | up => cases rest
  | name name =>
    obtain ⟨plain, rest⟩ := guard_eq_ok.mp rest
    obtain ⟨found, rest⟩ := guard_eq_ok.mp rest
    obtain ⟨free, rest⟩ := guard_eq_ok.mp rest
    cases rest
    exact ⟨p.place, name, split_eq_ok_name split (Decidable.not_not.mp found), by simpa using plain,
      mt any_isDirectory.mpr free, rfl⟩

/-! ### Making directories -/

/-- A place is on the way of a path. -/
def OnWay (host : Host) (path : Path) (place : Place) : Prop :=
  ∃ steps, steps <+: path.components ∧ host.walk path steps = .ok ⟨place, 0⟩

theorem OnWay.mono (h : host.OnWay path place) (more : host.Extends host') :
    host'.OnWay path place := by
  obtain ⟨steps, first, walked⟩ := h
  exact ⟨steps, first, more.walk walked⟩

/-- From one host to another nothing was changed but that directories were added on the way of a path
where nothing was. -/
structure Grown (path : Path) (host host' : Host) : Prop where
  settings : host'.current = host.current ∧ host'.home = host.home ∧ host'.configHome = host.configHome
  kept {place : Place} {entry : Entry} :
    host.entry? place = some entry → host'.entry? place = some entry
  added {place : Place} {entry : Entry} : host.entry? place = none →
    host'.entry? place = some entry → entry = .directory ∧ host'.OnWay path place

namespace Grown

theorem refl (path : Path) (host : Host) : Grown path host host where
  settings := ⟨rfl, rfl, rfl⟩
  kept h := h
  added none some := nomatch none.symm.trans some

theorem more (h : Grown path host host') : host.Extends host' where
  current := h.settings.1
  directory := h.kept
  there {place} there := by
    obtain ⟨entry, found⟩ := Option.isSome_iff_exists.mp there
    rw [h.kept found]
    rfl

theorem trans (h : Grown path host host') (h' : Grown path host' host'') :
    Grown path host host'' where
  settings := by
    obtain ⟨current, home, configHome⟩ := h'.settings
    rw [current, home, configHome]
    exact h.settings
  kept found := h'.kept (h.kept found)
  added {place entry} none some := by
    cases between : host'.entry? place with
    | none => exact h'.added between some
    | some entry' =>
      obtain ⟨rfl, onWay⟩ := h.added none between
      have same : entry = .directory := Option.some.inj (some.symm.trans (h'.kept between))
      exact ⟨same, onWay.mono h'.more⟩

/-- A directory was there before, or it is on the way. -/
theorem directory (h : Grown path host host') (after : host'.entry? place = some .directory) :
    host.entry? place = some .directory ∨ host.entry? place = none ∧ host'.OnWay path place := by
  cases before : host.entry? place with
  | none => exact .inr ⟨rfl, (h.added before after).2⟩
  | some entry => exact .inl ((h.kept before).symm.trans after)

/-- Making the directory of one part of a path. -/
theorem of_makeDirectory {part : Path} (made : host.makeDirectory part = .ok host')
    (onWay : ∀ {q}, host'.walk part part.steps = .ok q →
      ∃ steps, steps <+: path.components ∧ host'.walk path steps = .ok q) :
    Grown path host host' := by
  obtain ⟨parent, name, ends, free, rfl⟩ := makeDirectory_eq_ok made
  have free' : host.entry? (name :: parent) ≠ some .directory := by simp [free]
  refine ⟨⟨rfl, rfl, rfl⟩, fun {place entry} found => ?_, fun {place entry} none some => ?_⟩
  · have other : place ≠ name :: parent := by
      rintro rfl
      exact nomatch free.symm.trans found
    rw [entryAt_put, if_neg other]
    exact found
  · rw [entryAt_put] at some
    split at some
    next eq =>
      subst eq
      cases some
      exact ⟨rfl, onWay (ends.walk_put free')⟩
    next => exact nomatch none.symm.trans some

/-- Making a directory after those above it grows the host where making each of them does. -/
theorem of_ensureWith {above : Host → Host × Except FileError Unit} {part : Path}
    (grows : ∀ host, Grown path host (above host).1)
    (onWay : ∀ {host : Host} {q}, host.walk part part.steps = .ok q →
      ∃ steps, steps <+: path.components ∧ host.walk path steps = .ok q) (host : Host) :
    Grown path host (host.ensureWith above part).1 := by
  unfold ensureWith
  split
  next made => exact of_makeDirectory made onWay
  next =>
    have first := grows host
    generalize above host = result at first
    obtain ⟨host₁, outcome⟩ := result
    cases outcome with
    | error e => exact first
    | ok =>
      simp only
      split
      next made => exact first.trans (of_makeDirectory made onWay)
      next => exact first
  next => exact refl path host

theorem of_ensureSteps {above : List PathStep} (part : above.reverse <+: path.components)
    (host : Host) : Grown path host (ensureSteps path.absolute above host).1 := by
  induction above generalizing host with
  | nil => exact refl path host
  | cons last above ih =>
    have shorter : above.reverse <+: path.components := by
      rw [List.reverse_cons] at part
      exact (List.prefix_append _ _).trans part
    exact of_ensureWith (ih shorter) (fun walked => ⟨_, part, walked⟩) host

end Grown

/-- **Making a directory together with those above it** adds directories on the way to it, and nothing
else changes, also where it fails. -/
theorem makeDirectories_grown (host : Host) (text : String) :
    Grown (.ofText text) host (host.makeDirectories text).1 := by
  unfold makeDirectories
  simp only
  split
  · exact .refl _ host
  · refine .of_ensureWith (Grown.of_ensureSteps ?_) (fun walked => ?_) host
    · rw [List.tail_reverse, List.reverse_reverse]
      exact List.dropLast_prefix _
    · exact ⟨_, List.prefix_rfl, walk_components walked⟩

/-! ### Files -/

/-- The content of the file at a place, if there is one. -/
def file? (host : Host) (place : Place) : Option ByteArray :=
  match host.entry? place with
  | some (.file content) => some content
  | _ => none

/-- The place that a path leads to. -/
def placeOf? (host : Host) (text : String) : Option Place :=
  match host.locate text with
  | .ok (p, _) => if p.lost = 0 then some p.place else none
  | .error _ => none

/-- No file comes or goes where directories are made. -/
theorem Grown.file?_eq (h : Grown path host host') (place : Place) :
    host'.file? place = host.file? place := by
  unfold file?
  cases before : host.entry? place with
  | some entry => rw [h.kept before]
  | none =>
    cases after : host'.entry? place with
    | none => rfl
    | some entry =>
      obtain ⟨rfl, -⟩ := h.added before after
      rfl

theorem file?_put (content : ByteArray) :
    (host.put (name :: parent) (.file content)).file? place =
      if place = name :: parent then some content else host.file? place := by
  unfold file?
  rw [entryAt_put]
  by_cases here : place = name :: parent
  · rw [if_pos here, if_pos here]
  · rw [if_neg here, if_neg here]

/-- Where a file was written, its path leads to it. -/
theorem locate_put {text : String} (content : ByteArray)
    (ends : host.EndsIn (.ofText text) parent name) (plain : (Path.ofText text).trailing = false)
    (free : host.entry? (name :: parent) ≠ some .directory) :
    (host.put (name :: parent) (.file content)).locate text =
      .ok (⟨name :: parent, 0⟩, .file content) := by
  have found : (host.put (name :: parent) (.file content)).at? ⟨name :: parent, 0⟩ =
      some (.file content) := by
    rw [at?, if_pos rfl, entryAt_put, if_pos rfl]
  have filled : (Path.ofText text).isEmpty = false := by
    unfold Path.isEmpty
    rw [ends.steps_eq]
    simp
  unfold locate
  simp only [filled, Bool.false_eq_true, if_false, ends.walk_put free, bind, Except.bind, found, plain]
  rfl

/-- A text is what its bytes say. -/
theorem fromUTF8?_toUTF8 (text : String) : String.fromUTF8? text.toUTF8 = some text :=
  dif_pos text.isValidUTF8

/-- **A text that was written is read again**, and its path leads to the one file that was touched. -/
theorem writeText_eq_ok {text content : String} (written : host.writeText text content = .ok host') :
    ∃ parent name, host.entry? (name :: parent) ≠ some .directory ∧
      host' = host.put (name :: parent) (.file content.toUTF8) ∧
      host'.locate text = .ok (⟨name :: parent, 0⟩, .file content.toUTF8) ∧
      host'.readText text = .ok content := by
  obtain ⟨parent, name, ends, plain, free, rfl⟩ := writeBytes_eq_ok written
  have located := locate_put content.toUTF8 ends plain free
  refine ⟨parent, name, free, rfl, located, ?_⟩
  unfold readText readBytes
  rw [located]
  simp only [bind, Except.bind, pure, Except.pure, fromUTF8?_toUTF8]

end StateReplica.Host
