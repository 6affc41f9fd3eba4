import StateReplica.Store
import StateReplica.Proofs.Files.Growth
import StateReplica.Proofs.Records.Texts

/-!
What saving a value does to a host. Directories may come on the way to the store, also where saving fails
after that; the file that is named is written last and all at once. So a value that was saved is the one
that is loaded, and no other file is touched (`saved_is_loaded`). A store may lie anywhere, and the name of
a file may lead anywhere: out of the store, to a directory, or through a file.
-/

namespace StateReplica.Store

variable {α : Type} (store : Store) (format : Json.Format α) (host : Host) (file : String)

theorem ensureDir_grown : Host.Grown (.ofText store.baseDir) host (store.ensureDir host).1 := by
  unfold ensureDir
  split
  · exact .refl _ host
  · have grown := host.makeDirectories_grown store.baseDir
    split
    next made =>
      rw [made] at grown
      exact grown
    next made =>
      rw [made] at grown
      exact grown

/-- **Saving fails before the file is touched, or writes it last.** -/
theorem save_cases (a : α) :
    let saved := store.save format host file a
    (∃ e, saved.2 = .error e ∧ Host.Grown (.ofText store.baseDir) host saved.1) ∨
      (saved.2 = .ok () ∧ ∃ mid, Host.Grown (.ofText store.baseDir) host mid ∧
        mid.writeText (store.filePath file) (format.pretty a) = .ok saved.1) := by
  unfold save saveJson
  have grown := store.ensureDir_grown host
  split
  next failed =>
    rw [failed] at grown
    exact .inl ⟨_, rfl, grown⟩
  next mid ensured =>
    rw [ensured] at grown
    simp only
    split
    next written => exact .inr ⟨rfl, mid, grown, written⟩
    next => exact .inl ⟨_, rfl, grown⟩

variable {store format host file}

/-- **What was saved can be read** under the name of the file. -/
theorem readText_saved {a : α} (went : (store.save format host file a).2 = .ok ()) :
    store.holds (store.save format host file a).1 file = true ∧
      Host.readText (store.save format host file a).1 (store.filePath file) = .ok (format.pretty a) := by
  obtain ⟨e, failed, -⟩ | ⟨-, mid, -, written⟩ := store.save_cases format host file a
  · cases failed.symm.trans went
  · obtain ⟨parent, name, -, -, located, read⟩ := Host.writeText_eq_ok written
    refine ⟨?_, read⟩
    unfold holds Host.hasEntry
    rw [located]
    rfl

/-- What can be read under the name of a file is loaded. -/
theorem load_of_readText {text : String} {a : α} (read : host.readText (store.filePath file) = .ok text)
    (parsed : format.parse text = .ok a) : store.load format host file = .ok a := by
  unfold load
  rw [read]
  simp only [parsed]

theorem load?_of_holds (h : store.holds host file = true) :
    store.load? format host file = (store.load format host file).map some :=
  if_pos h

/-- **There is nothing to load just where nothing has the name of the file.** -/
theorem load?_eq_none : store.load? format host file = .ok none ↔ store.holds host file = false := by
  unfold load?
  split
  next there =>
    constructor
    · intro none
      obtain ⟨a, -, some⟩ := map_eq_ok.mp none
      cases some
    · intro absent
      cases there.symm.trans absent
  next absent => exact ⟨fun _ => by simpa using absent, fun _ => rfl⟩

/-- **What is saved is what is loaded, and nothing else is touched.** If saving a record goes well, the
same record is loaded again. Whether it does or not, every file has the content that it had and there are
no other files, except for the file under the given name if saving goes well; and directories come only
where nothing was on the way to the store, and none goes. Loading does not even give back a host: it tells
whether something has the name of the file, and if so, what it is. -/
theorem saved_is_loaded (kind : RecordKind) (store : Store) (host : Host) (file : String)
    (v : kind.Value) :
    let saved := store.save kind.format host file v
    (saved.2 = .ok () →
      store.load kind.format saved.1 file = .ok v ∧
        store.load? kind.format saved.1 file = .ok (some v) ∧ store.holds saved.1 file = true) ∧
    (∀ place, saved.1.file? place = host.file? place ∨
      saved.2 = .ok () ∧ saved.1.placeOf? (store.filePath file) = some place) ∧
    (∀ place, host.entry? place = some .directory → Host.entry? saved.1 place = some .directory) ∧
    (∀ place, Host.entry? saved.1 place = some .directory → host.entry? place = some .directory ∨
      host.entry? place = none ∧ saved.1.OnWay (.ofText store.baseDir) place) ∧
    (∀ (host : Host) (file : String),
      (store.load? kind.format host file = .ok none ↔ store.holds host file = false) ∧
      (store.holds host file = true →
        store.load? kind.format host file = (store.load kind.format host file).map some)) := by
  intro saved
  have loading (host : Host) (file : String) :
      (store.load? kind.format host file = .ok none ↔ store.holds host file = false) ∧
      (store.holds host file = true →
        store.load? kind.format host file = (store.load kind.format host file).map some) :=
    ⟨load?_eq_none, load?_of_holds⟩
  obtain ⟨e, failed, grown⟩ | ⟨went, mid, grown, written⟩ := store.save_cases kind.format host file v
  · refine ⟨fun went => ?_, fun place => .inl (grown.file?_eq place), fun place => grown.kept,
      fun place => grown.directory, loading⟩
    cases failed.symm.trans went
  · obtain ⟨parent, name, free, eq, located, read⟩ := Host.writeText_eq_ok written
    have more : mid.Extends saved.1 := eq ▸ Host.extends_put free
    have loaded : store.load kind.format saved.1 file = .ok v :=
      load_of_readText read (kind.parse_render v .pretty)
    have held : store.holds saved.1 file = true := by
      unfold holds Host.hasEntry
      rw [located]
      rfl
    refine ⟨fun _ => ⟨loaded, ?_, held⟩, fun place => ?_, fun place before => ?_, fun place after => ?_,
      loading⟩
    · rw [load?_of_holds held, loaded]
      rfl
    · by_cases here : place = name :: parent
      · right
        refine ⟨went, ?_⟩
        unfold Host.placeOf?
        rw [located, here]
        rfl
      · left
        rw [← grown.file?_eq place]
        show saved.1.file? place = mid.file? place
        rw [eq, Host.file?_put, if_neg here]
    · exact more.directory (grown.kept before)
    · have between : mid.entry? place = some .directory := by
        have after : Host.entry? saved.1 place = some .directory := after
        rw [eq, Host.entryAt_put] at after
        split at after
        · cases after
        · exact after
      exact (grown.directory between).imp_right fun ⟨new, onWay⟩ => ⟨new, onWay.mono more⟩

/-- A host with one file, in the current directory. -/
def desk : Host where
  entries := .ofList [(["desk"], Entry.directory), (["note", "desk"], Entry.file "1".toUTF8)]
  current := ⟨["desk"], 0⟩
  home := "/home"
  configHome := none

/-- A store that is not there yet: two directories are made for it, and the note stays. -/
theorem saved_is_loaded_aside :
    let store : Store := ⟨"x/../y"⟩
    let saved := store.save RecordKind.identity.format desk "r.json" ⟨"h", 80⟩
    saved.2 = .ok () ∧ store.load RecordKind.identity.format saved.1 "r.json" = .ok ⟨"h", 80⟩ ∧
      saved.1.file? ["note", "desk"] = desk.file? ["note", "desk"] ∧
      desk.entry? ["x", "desk"] = none ∧ saved.1.OnWay (.ofText store.baseDir) ["x", "desk"] := by
  intro store saved
  obtain ⟨loads, files, -, directories, -⟩ :=
    saved_is_loaded .identity store desk "r.json" ⟨"h", 80⟩
  have went : saved.2 = .ok () := by decide +kernel
  have elsewhere : saved.1.placeOf? (store.filePath "r.json") ≠ some ["note", "desk"] := by
    decide +kernel
  have new : desk.entry? ["x", "desk"] = none := rfl
  have made : Host.entry? saved.1 ["x", "desk"] = some .directory :=
    Host.any_isDirectory.mp (by decide +kernel)
  refine ⟨went, (loads went).1, ?_, new, ?_⟩
  · exact (files ["note", "desk"]).resolve_right fun given => elsewhere given.2
  · exact ((directories ["x", "desk"] made).resolve_left fun before => nomatch new.symm.trans before).2

end StateReplica.Store
