import StateReplica.Proofs.Config.Settings
import StateReplica.Proofs.Store.Saved

/-!
Settings in layers. Merging takes a setting from the upper settings where it differs from the default there,
and from the lower ones where it does not (`of_merge_of_ne`, `of_merge_of_eq`). So what a project file says
wins over what the global file says, but for a default: a default that is written out is the same as one that
is not (`layered_settings`).
-/

namespace StateReplica

open ReplicaConfig (default fileName loadFrom loadLayered)

variable {host : Host} {store : Store}

/-! ### What files say -/

/-- Whether the settings file of a store is accepted, if there is one. -/
def Store.Accepted (host : Host) (store : Store) : Prop :=
  store.holds host fileName = true → ∃ text config,
    host.readText (store.filePath fileName) = .ok text ∧ ReplicaConfig.format.parse text = .ok config

namespace Setting

/-- The value that the settings file of a store contains for a setting, if there is a file and it contains
any. -/
def inStore? (s : Setting) (host : Host) (store : Store) : Option s.Value :=
  (host.readText (store.filePath fileName)).toOption.bind s.inText?

/-- The value that a layer contains for a setting; none where there is no store. -/
def inLayer? (s : Setting) (host : Host) (layer : Option Store) : Option s.Value :=
  layer.bind (s.inStore? host)

end Setting

/-- What can be read is there. -/
theorem Host.hasEntry_of_readText {path text : String} (read : host.readText path = .ok text) :
    host.hasEntry path = true := by
  unfold readText readBytes at read
  obtain ⟨bytes, read, -⟩ := bind_eq_ok.mp read
  obtain ⟨found, located, -⟩ := bind_eq_ok.mp read
  unfold hasEntry
  rw [located]
  rfl

namespace ReplicaConfig

/-- **What is loaded from a store is what its file says**, with defaults for everything else. -/
theorem loadFrom_of_accepted (accepted : store.Accepted host) :
    ∃ c, loadFrom host store = .ok c ∧ ∀ s : Setting, s.of c = (s.inStore? host store).getD s.fallback := by
  by_cases held : store.holds host fileName = true
  · obtain ⟨text, c, read, parsed⟩ := accepted held
    refine ⟨c, ?_, fun s => ?_⟩
    · unfold loadFrom
      rw [Store.load?_of_holds held, Store.load_of_readText read parsed]
      rfl
    · unfold Setting.inStore?
      rw [read]
      exact Setting.of_parse parsed s
  · refine ⟨default, ?_, fun s => ?_⟩
    · unfold loadFrom
      rw [Store.load?_eq_none.mpr (Bool.eq_false_iff.mpr held)]
      rfl
    · unfold Setting.inStore?
      cases read : host.readText (store.filePath fileName) with
      | ok text => exact absurd (Host.hasEntry_of_readText read) held
      | error e => rfl

/-! ### Merging -/

section

variable {s : Setting} {base upper : ReplicaConfig}

/-- A setting that has its default is taken from below. -/
theorem of_merge_of_eq (h : s.of upper = s.fallback) : s.of (base.merge upper) = s.of base := by
  cases s with
  | configurationFilter =>
    have h : upper.configurationFilter = none := h
    show upper.configurationFilter.or _ = _
    rw [h, Option.none_or]
    rfl
  | bundleConsistency =>
    have h : upper.bundleConsistency = .strict := h
    simp only [Setting.of, merge, h]
  | logEvents =>
    have h : upper.logEvents = false := h
    show (upper.logEvents || base.logEvents) = _
    rw [h, Bool.false_or]
    rfl

/-- A setting that differs from its default counts. -/
theorem of_merge_of_ne (h : s.of upper ≠ s.fallback) : s.of (base.merge upper) = s.of upper := by
  cases s with
  | configurationFilter =>
    show upper.configurationFilter.or _ = upper.configurationFilter
    cases filter : upper.configurationFilter with
    | none => exact absurd filter h
    | some _ => rfl
  | bundleConsistency =>
    cases consistency : upper.bundleConsistency with
    | strict => exact absurd consistency h
    | legacy => simp only [Setting.of, merge, consistency]
  | logEvents =>
    show (upper.logEvents || base.logEvents) = upper.logEvents
    cases logs : upper.logEvents with
    | false => exact absurd logs h
    | true => rfl

/-- Over defaults nothing changes. -/
theorem of_default_merge : s.of (default.merge upper) = s.of upper := by
  by_cases h : s.of upper = s.fallback
  · rw [of_merge_of_eq h]
    exact h.symm
  · exact of_merge_of_ne h

/-- Settings are known by their values. -/
theorem ext_of {c c' : ReplicaConfig} (h : ∀ s : Setting, s.of c = s.of c') : c = c' := by
  obtain ⟨filter, consistency, logs⟩ := c
  obtain ⟨filter', consistency', logs'⟩ := c'
  obtain rfl : filter = filter' := h .configurationFilter
  obtain rfl : consistency = consistency' := h .bundleConsistency
  obtain rfl : logs = logs' := h .logEvents
  rfl

theorem merge_default : base.merge default = base :=
  ext_of fun _ => of_merge_of_eq rfl

end

/-! ### Layers -/

/-- Loads a layer. Where there is no store everything has its default. -/
def loadLayer (host : Host) : Option Store → Except Error ReplicaConfig
  | none => .ok default
  | some store => loadFrom host store

/-- **Layers are loaded one after the other**, and merged in this order. -/
theorem loadLayered_eq (global project : Option Store) : loadLayered host global project = do
    let lower ← loadLayer host global
    let upper ← loadLayer host project
    return (default.merge lower).merge upper := by
  unfold loadLayered loadStores mergeAll
  cases global with
  | none =>
    cases project with
    | none => rfl
    | some project =>
      simp only [Option.toList, List.nil_append, List.mapM_cons, List.mapM_nil, loadLayer]
      cases loadFrom host project <;> rfl
  | some global =>
    cases project with
    | none =>
      simp only [Option.toList, List.append_nil, List.mapM_cons, List.mapM_nil, loadLayer]
      cases loadFrom host global with
      | error e => rfl
      | ok lower => exact congrArg Except.ok merge_default.symm
    | some project =>
      simp only [Option.toList, List.cons_append, List.nil_append, List.mapM_cons, List.mapM_nil,
        loadLayer]
      cases loadFrom host global with
      | error e => rfl
      | ok lower => cases loadFrom host project <;> rfl

theorem loadLayer_of_accepted {layer : Option Store}
    (accepted : ∀ store ∈ layer, store.Accepted host) :
    ∃ c, loadLayer host layer = .ok c ∧
      ∀ s : Setting, s.of c = (s.inLayer? host layer).getD s.fallback := by
  cases layer with
  | none => exact ⟨default, rfl, fun _ => rfl⟩
  | some store => exact loadFrom_of_accepted (accepted store rfl)

/-- **The project's settings win, as far as they are no defaults.** Where the files of both layers are
accepted, the settings can be loaded. A setting for which the project's file contains another value than the
default has this value; every other setting has the value that the global file contains for it, or the
default if it contains none. -/
theorem layered_settings (host : Host) (global project : Option Store)
    (accepted : ∀ store, store ∈ global ∨ store ∈ project → store.Accepted host) :
    ∃ c, loadLayered host global project = .ok c ∧ ∀ s : Setting,
      (∀ v, s.inLayer? host project = some v → v ≠ s.fallback → s.of c = v) ∧
      ((∀ v, s.inLayer? host project = some v → v = s.fallback) →
        s.of c = (s.inLayer? host global).getD s.fallback) := by
  obtain ⟨lower, loadedLower, ofLower⟩ := loadLayer_of_accepted fun store mem => accepted store (.inl mem)
  obtain ⟨upper, loadedUpper, ofUpper⟩ := loadLayer_of_accepted fun store mem => accepted store (.inr mem)
  refine ⟨(default.merge lower).merge upper, ?_, fun s => ⟨fun v contained other => ?_, fun plain => ?_⟩⟩
  · rw [loadLayered_eq, loadedLower, loadedUpper]
    rfl
  · have own : s.of upper = v := by rw [ofUpper, contained, Option.getD_some]
    rw [of_merge_of_ne (own ▸ other), own]
  · have nothing : s.of upper = s.fallback := by
      rw [ofUpper]
      cases contained : s.inLayer? host project with
      | none => rfl
      | some v => exact plain v contained
    rw [of_merge_of_eq nothing, of_default_merge, ofLower]

/-- A host with two settings files, of which the one in `p` writes a default out. -/
def twoLayers : Host where
  entries := .ofList [(["g"], Entry.directory), (["p"], Entry.directory),
    (["replica.json", "g"], Entry.file
      "\x7b\"configurationFilter\":\"g\",\"bundleConsistency\":\"legacy\"\x7d".toUTF8),
    (["replica.json", "p"], Entry.file
      "\x7b\"configurationFilter\":\"p\",\"bundleConsistency\":\"strict\"\x7d".toUTF8)]
  current := ⟨[], 0⟩
  home := "/home"
  configHome := none

theorem twoLayers_accepted :
    Store.Accepted twoLayers ⟨"g"⟩ ∧ Store.Accepted twoLayers ⟨"p"⟩ := by
  refine ⟨fun _ => ⟨"\x7b\"configurationFilter\":\"g\",\"bundleConsistency\":\"legacy\"\x7d",
    ⟨some "g", .legacy, false⟩, ?_, ?_⟩,
    fun _ => ⟨"\x7b\"configurationFilter\":\"p\",\"bundleConsistency\":\"strict\"\x7d",
    ⟨some "p", .strict, false⟩, ?_, ?_⟩⟩
  all_goals decide +kernel

theorem layered_settings_twoLayers :
    (∀ store, store ∈ some (⟨"g"⟩ : Store) ∨ store ∈ some (⟨"p"⟩ : Store) → store.Accepted twoLayers) ∧
    ∃ c, loadLayered twoLayers (some ⟨"g"⟩) (some ⟨"p"⟩) = .ok c ∧
      c.configurationFilter = some "p" ∧ c.bundleConsistency = .legacy := by
  have accepted : ∀ store, store ∈ some (⟨"g"⟩ : Store) ∨ store ∈ some (⟨"p"⟩ : Store) →
      store.Accepted twoLayers := by
    rintro store (mem | mem)
    · exact Option.some.inj mem ▸ twoLayers_accepted.1
    · exact Option.some.inj mem ▸ twoLayers_accepted.2
  have filterWritten :
      (Setting.configurationFilter.inLayer? twoLayers (some ⟨"p"⟩) : Option (Option String)) =
        some (some "p") := by decide +kernel
  have consistencyWritten :
      (Setting.bundleConsistency.inLayer? twoLayers (some ⟨"p"⟩) : Option BundleConsistency) =
        some .strict := by decide +kernel
  obtain ⟨c, loaded, settings⟩ := layered_settings twoLayers (some ⟨"g"⟩) (some ⟨"p"⟩) accepted
  refine ⟨accepted, c, loaded, (settings .configurationFilter).1 (some "p") filterWritten nofun, ?_⟩
  calc c.bundleConsistency
      = ((Setting.bundleConsistency.inLayer? twoLayers (some ⟨"g"⟩)).getD .strict : BundleConsistency) :=
        (settings .bundleConsistency).2 fun v contained =>
          Option.some.inj (contained.symm.trans consistencyWritten)
    _ = .legacy := by decide +kernel

/-- A default that the project's file writes out does not win over what the global file says. -/
theorem explicit_default_overruled :
    (Store.Accepted twoLayers ⟨"g"⟩ ∧ Store.Accepted twoLayers ⟨"p"⟩) ∧
    (Setting.bundleConsistency.inLayer? twoLayers (some ⟨"p"⟩) : Option BundleConsistency) = some .strict ∧
    ∃ c, loadLayered twoLayers (some ⟨"g"⟩) (some ⟨"p"⟩) = .ok c ∧ c.bundleConsistency ≠ .strict :=
  ⟨twoLayers_accepted, by decide +kernel, ⟨some "p", .legacy, false⟩, by decide +kernel, by decide⟩

end ReplicaConfig

end StateReplica
