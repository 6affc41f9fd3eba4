import Mathlib.Data.List.Induction
import StateReplica.Proofs.Config.Layers

/-!
Merging as a fold. Merging settings is associative, and the default changes nothing on either side; so of
several settings that are merged in turn, each has the last value that differs from its default
(`of_mergeAll`). Loading in layers is this fold over what the stores give: it fails with the first store whose
file is refused, and a store without a file gives the default (`loadLayered_eq_ok`, `loadLayered_eq_error`).

Nothing is said of what makes a text one of settings; for that see `Setting.of_parse`.
-/

namespace StateReplica

open ReplicaConfig (fileName loadLayered mergeAll)

variable {host : Host} {store : Store}

/-! ### Stores -/

namespace Store

/-- What a store gives: the settings of its file, or the default if there is none. -/
inductive Gives (host : Host) (store : Store) : ReplicaConfig → Prop
  | missing : store.holds host fileName = false → Gives host store .default
  | present {text : String} {config : ReplicaConfig} : store.holds host fileName = true →
      host.readText (store.filePath fileName) = .ok text → ReplicaConfig.format.parse text = .ok config →
      Gives host store config

/-- Why the file of a store is refused: it is there, but cannot be read, or what it says are no settings. -/
inductive Refuses (host : Host) (store : Store) : Error → Prop
  | unreadable {e : FileError} : store.holds host fileName = true →
      host.readText (store.filePath fileName) = .error e →
      Refuses host store (.config ("Failed to read " ++ store.filePath fileName ++ ": " ++ e.message))
  | unparsable {text : String} {problem : Json.Problem} : store.holds host fileName = true →
      host.readText (store.filePath fileName) = .ok text → ReplicaConfig.format.parse text = .error problem →
      Refuses host store
        (.config ("Failed to parse " ++ store.filePath fileName ++ ": " ++ problem.message))

theorem Gives.loadFrom {c : ReplicaConfig} (gives : store.Gives host c) :
    ReplicaConfig.loadFrom host store = .ok c := by
  unfold ReplicaConfig.loadFrom
  cases gives with
  | missing absent =>
    rw [load?_eq_none.mpr absent]
    rfl
  | present held read parsed => rw [load?_of_holds held, load_of_readText read parsed]; rfl

theorem Refuses.loadFrom {e : Error} (refuses : store.Refuses host e) :
    ReplicaConfig.loadFrom host store = .error e := by
  unfold ReplicaConfig.loadFrom
  cases refuses with
  | unreadable held failed =>
    rw [load?_of_holds held]
    unfold load
    rw [failed]
    rfl
  | unparsable held read failed =>
    rw [load?_of_holds held]
    unfold load
    rw [read]
    simp only [failed]
    rfl

/-- **A store gives settings, or its file is refused.** -/
theorem gives_or_refuses (host : Host) (store : Store) :
    (∃ c, store.Gives host c) ∨ ∃ e, store.Refuses host e := by
  cases held : store.holds host fileName with
  | false => exact .inl ⟨_, .missing held⟩
  | true =>
    cases read : host.readText (store.filePath fileName) with
    | error e => exact .inr ⟨_, .unreadable held read⟩
    | ok text =>
      cases parsed : ReplicaConfig.format.parse text with
      | error problem => exact .inr ⟨_, .unparsable held read parsed⟩
      | ok c => exact .inl ⟨c, .present held read parsed⟩

end Store

namespace ReplicaConfig

theorem loadFrom_eq_ok {c : ReplicaConfig} : loadFrom host store = .ok c ↔ store.Gives host c := by
  refine ⟨fun ok => ?_, Store.Gives.loadFrom⟩
  obtain ⟨c', gives⟩ | ⟨e, refuses⟩ := store.gives_or_refuses host
  · obtain rfl : c' = c := Except.ok.inj (gives.loadFrom.symm.trans ok)
    exact gives
  · cases refuses.loadFrom.symm.trans ok

theorem loadFrom_eq_error {e : Error} : loadFrom host store = .error e ↔ store.Refuses host e := by
  refine ⟨fun failed => ?_, Store.Refuses.loadFrom⟩
  obtain ⟨c, gives⟩ | ⟨e', refuses⟩ := store.gives_or_refuses host
  · cases gives.loadFrom.symm.trans failed
  · obtain rfl : e' = e := Except.error.inj (refuses.loadFrom.symm.trans failed)
    exact refuses

/-- **Loading in layers merges what the stores give**, the project's over the global ones. -/
theorem loadLayered_eq_ok {global project : Option Store} {c : ReplicaConfig} :
    loadLayered host global project = .ok c ↔
      ∃ configs, List.Forall₂ (Store.Gives host) (global.toList ++ project.toList) configs ∧
        c = mergeAll configs := by
  unfold loadLayered loadStores
  rw [bind_eq_ok]
  simp only [mapM_eq_ok, loadFrom_eq_ok]
  exact exists_congr fun configs =>
    and_congr_right fun _ => ⟨fun ok => (Except.ok.inj ok).symm, fun eq => congrArg Except.ok eq.symm⟩

theorem loadLayer_eq_error {layer : Option Store} {e : Error} :
    loadLayer host layer = .error e ↔ ∃ store ∈ layer, store.Refuses host e := by
  cases layer with
  | none => exact ⟨nofun, fun ⟨_, given, _⟩ => nomatch given⟩
  | some store =>
    refine loadFrom_eq_error.trans ⟨fun refuses => ⟨store, rfl, refuses⟩, ?_⟩
    rintro ⟨_, ⟨⟩, refuses⟩
    exact refuses

/-- **Loading in layers fails with the first store whose file is refused.** -/
theorem loadLayered_eq_error {global project : Option Store} {e : Error} :
    loadLayered host global project = .error e ↔
      (∃ store ∈ global, store.Refuses host e) ∨
        (∀ store ∈ global, ∀ e', ¬store.Refuses host e') ∧ ∃ store ∈ project, store.Refuses host e := by
  rw [loadLayered_eq, bind_eq_error, loadLayer_eq_error]
  refine or_congr_right ⟨?_, ?_⟩
  · rintro ⟨lower, loaded, failed⟩
    refine ⟨fun store given e' refuses => ?_, ?_⟩
    · cases (loadLayer_eq_error.mpr ⟨store, given, refuses⟩).symm.trans loaded
    · obtain failed | ⟨upper, -, merged⟩ := bind_eq_error.mp failed
      · exact loadLayer_eq_error.mp failed
      · cases merged
  · rintro ⟨sound, refused⟩
    cases loaded : loadLayer host global with
    | error e' =>
      obtain ⟨store, given, refuses⟩ := loadLayer_eq_error.mp loaded
      exact absurd refuses (sound store given e')
    | ok lower =>
      exact ⟨lower, rfl, bind_eq_error.mpr (.inl (loadLayer_eq_error.mpr refused))⟩

end ReplicaConfig

/-! ### The fold -/

namespace Setting

instance : (s : Setting) → DecidableEq s.Value
  | .configurationFilter => inferInstanceAs (DecidableEq (Option String))
  | .bundleConsistency => inferInstanceAs (DecidableEq BundleConsistency)
  | .logEvents => inferInstanceAs (DecidableEq Bool)

/-- The last value of a setting that differs from its default; the default if there is none. -/
def lastSet (s : Setting) (configs : List ReplicaConfig) : s.Value :=
  ((configs.map s.of).filter (· ≠ s.fallback)).getLastD s.fallback

variable {s : Setting} {configs : List ReplicaConfig} {c : ReplicaConfig}

theorem lastSet_concat_of_eq (h : s.of c = s.fallback) : s.lastSet (configs ++ [c]) = s.lastSet configs := by
  simp [lastSet, h]

theorem lastSet_concat_of_ne (h : s.of c ≠ s.fallback) : s.lastSet (configs ++ [c]) = s.of c := by
  simp [lastSet, h]

end Setting

namespace ReplicaConfig

/-- **Merging is associative.** -/
theorem merge_assoc (a b c : ReplicaConfig) : (a.merge b).merge c = a.merge (b.merge c) := by
  refine ext_of fun s => ?_
  by_cases upper : s.of c = s.fallback
  · have inner : s.of (b.merge c) = s.of b := of_merge_of_eq upper
    rw [of_merge_of_eq upper]
    by_cases middle : s.of b = s.fallback
    · rw [of_merge_of_eq middle, of_merge_of_eq (inner.trans middle)]
    · rw [of_merge_of_ne middle, of_merge_of_ne (inner ▸ middle), inner]
  · have inner : s.of (b.merge c) = s.of c := of_merge_of_ne upper
    rw [of_merge_of_ne upper, of_merge_of_ne (inner ▸ upper), inner]

theorem default_merge (c : ReplicaConfig) : default.merge c = c := ext_of fun _ => of_default_merge

/-- **Of settings that are merged in turn, the last that was set counts.** -/
theorem of_mergeAll (configs : List ReplicaConfig) (s : Setting) :
    s.of (mergeAll configs) = s.lastSet configs := by
  induction configs using List.reverseRecOn with
  | nil => rfl
  | append_singleton configs c ih =>
    have step : mergeAll (configs ++ [c]) = (mergeAll configs).merge c := List.foldl_concat ..
    rw [step]
    by_cases h : s.of c = s.fallback
    · rw [of_merge_of_eq h, Setting.lastSet_concat_of_eq h, ih]
    · rw [of_merge_of_ne h, Setting.lastSet_concat_of_ne h]

/-- Settings that were saved in a store are what it gives. -/
theorem gives_saved {c : ReplicaConfig} (went : (c.saveTo host store).2 = .ok ()) :
    store.Gives (c.saveTo host store).1 c :=
  have ⟨held, read⟩ := Store.readText_saved went
  .present held read (RecordKind.config.parse_render c .pretty)

/-- **Loading in layers is a fold of merging.** Merging is associative, and the default changes nothing on
either side. Of several settings that are merged in turn into the default, each has the last value that
differs from its default, or the default if there is none. Loading in layers fails just where the file of a
given store is refused, with the error of the global store if its file is, and else of the project's. Where it
does not fail it gives that fold over what the given stores give, the global one first. And settings that were
saved in a store are loaded from it where it is the only layer, whichever layer it is. -/
theorem loading_folds_merging (host : Host) (global project : Option Store) :
    ((∀ a b c : ReplicaConfig, (a.merge b).merge c = a.merge (b.merge c)) ∧
      ∀ c : ReplicaConfig, default.merge c = c ∧ c.merge default = c) ∧
    (∀ (configs : List ReplicaConfig) (s : Setting),
      s.of (configs.foldl merge default) = s.lastSet configs) ∧
    (∀ e, loadLayered host global project = .error e ↔
      (∃ store ∈ global, store.Refuses host e) ∨
        (∀ store ∈ global, ∀ e', ¬store.Refuses host e') ∧ ∃ store ∈ project, store.Refuses host e) ∧
    (∀ c, loadLayered host global project = .ok c ↔
      ∃ configs, List.Forall₂ (Store.Gives host) (global.toList ++ project.toList) configs ∧
        c = configs.foldl merge default) ∧
    ∀ (c : ReplicaConfig) (store : Store), (c.saveTo host store).2 = .ok () →
      loadLayered (c.saveTo host store).1 (some store) none = .ok c ∧
        loadLayered (c.saveTo host store).1 none (some store) = .ok c := by
  refine ⟨⟨merge_assoc, fun c => ⟨default_merge c, merge_default⟩⟩, of_mergeAll,
    fun e => loadLayered_eq_error, fun c => loadLayered_eq_ok, fun c store went => ?_⟩
  have alone : ∃ configs, List.Forall₂ (Store.Gives (c.saveTo host store).1) [store] configs ∧
      c = mergeAll configs :=
    ⟨[c], .cons (gives_saved went) .nil, (default_merge c).symm⟩
  exact ⟨loadLayered_eq_ok.mpr alone, loadLayered_eq_ok.mpr alone⟩

/-- Settings saved in a store that is not there yet are the settings of a project without global ones. -/
theorem loading_folds_merging_desk :
    let c : ReplicaConfig := ⟨some "f", .legacy, true⟩
    let saved := c.saveTo Store.desk ⟨"x/../y"⟩
    saved.2 = .ok () ∧ loadLayered saved.1 none (some ⟨"x/../y"⟩) = .ok c := by
  intro c saved
  have went : saved.2 = .ok () := by decide +kernel
  obtain ⟨-, -, -, -, saves⟩ := loading_folds_merging Store.desk none none
  exact ⟨went, (saves c ⟨"x/../y"⟩ went).2⟩

end ReplicaConfig

end StateReplica
