import StateReplica.Proofs.Session.Rounds

/-!
What the operations of a session come to. A load asks the server for one thing after the other, and
if it gets them all it takes a step; a notice takes a step if the replica is loaded. A step is taken
before anybody is called for it, and a round of calls comes after it. All else is idle: nobody is
called, and the contents stay (`Company.perform_effect`).
-/

namespace StateReplica.Session

open Replica (Step)

variable {ω κ : Type}

/-! ### Asking the server -/

/-- What the server was asked for when everything is fetched, and what comes of it: one thing after
the other up to the first error. -/
inductive Asked (filter : Option String) : Except Error Fetched → List (Entry κ) → Prop
  | noFramework (e : Error) : Asked filter (.error e) [.framework (.error e)]
  | noBundles (framework : FrameworkDescriptor) (e : Error) :
    Asked filter (.error e) [.framework (.ok framework), .bundles (.error e)]
  | noConfigurations (framework : FrameworkDescriptor) (bundles : List BundleRecord) (e : Error) :
    Asked filter (.error e) [.framework (.ok framework), .bundles (.ok bundles),
      .configurations filter (.error e)]
  | all (fetched : Fetched) :
    Asked filter (.ok fetched) [.framework (.ok fetched.framework), .bundles (.ok fetched.bundles),
      .configurations filter (.ok fetched.configurations)]

namespace Company

variable (company : Company ω κ) (s : Scene ω κ)

theorem get_run : company.surroundings.get.run s = (s.replica, s) := rfl

theorem framework_run : company.surroundings.framework.run s =
    ((company.framework.run s.outside).1,
      { s with
        outside := (company.framework.run s.outside).2
        record := s.record ++ [.framework (company.framework.run s.outside).1] }) := rfl

theorem bundles_run : company.surroundings.bundles.run s =
    ((company.bundles.run s.outside).1,
      { s with
        outside := (company.bundles.run s.outside).2
        record := s.record ++ [.bundles (company.bundles.run s.outside).1] }) := rfl

theorem configurations_run (filter : Option String) :
    (company.surroundings.configurations filter).run s =
      (((company.configurations filter).run s.outside).1,
        { s with
          outside := ((company.configurations filter).run s.outside).2
          record := s.record ++
            [.configurations filter ((company.configurations filter).run s.outside).1] }) := rfl

/-- **The server is asked for one thing after the other**, and for nothing more after an error. -/
theorem fetch_run :
    ∃ asked outside,
      Asked s.replica.config.configurationFilter (company.surroundings.fetch.run s).1 asked ∧
      (company.surroundings.fetch.run s).2 = { s with outside, record := s.record ++ asked } := by
  simp only [Surroundings.fetch, ExceptT.run_bind, ExceptT.run_mk, ExceptT.run_liftM, bind_map_left,
    Surroundings.run_bind, framework_run]
  generalize company.framework.run s.outside = answer
  obtain ⟨e | framework, outside⟩ := answer
  · exact ⟨_, outside, .noFramework e, rfl⟩
  simp only [Surroundings.run_bind, bundles_run]
  generalize company.bundles.run outside = answer
  obtain ⟨e | bundles, outside⟩ := answer
  · refine ⟨_, outside, .noBundles framework e, ?_⟩
    simp only [List.append_assoc]
    rfl
  simp only [Surroundings.run_bind, get_run, configurations_run]
  generalize (company.configurations _).run outside = answer
  obtain ⟨e | configurations, outside⟩ := answer
  · refine ⟨_, outside, .noConfigurations framework bundles e, ?_⟩
    simp only [List.append_assoc]
    rfl
  · refine ⟨_, outside, .all ⟨framework, bundles, configurations⟩, ?_⟩
    simp only [List.append_assoc]
    rfl

end Company

/-! ### Changes -/

/-- Whether the server was asked or something was logged that announces nobody. -/
def Entry.isSilent : Entry κ → Bool
  | .framework _ | .bundles _ | .configurations _ _ => true
  | .logged (.notifying _ _) => false
  | .logged _ => true
  | _ => false

theorem Entry.aside_of_silent {entry : Entry κ} (h : entry.isSilent = true) : entry.Aside := by
  cases entry with
  | framework | bundles | configurations => exact ⟨rfl, rfl⟩
  | called | looked | ended | changed => cases h
  | logged given =>
    cases given with
    | notifying => cases h
    | _ => exact ⟨rfl, rfl⟩

theorem Entry.changes_of_silent {entries : List (Entry κ)} (h : ∀ e ∈ entries, e.isSilent = true) :
    Entry.changes entries = [] := by
  refine List.filterMap_eq_nil_iff.mpr fun e he => ?_
  have silent := h e he
  cases e with
  | changed change => cases silent
  | _ => rfl

theorem Passed.of_silent {s : Scene ω κ} {outside : ω} {entries : List (Entry κ)}
    (h : ∀ e ∈ entries, e.isSilent = true) :
    Passed s ⟨s.replica, outside, s.record ++ entries⟩ entries where
  record := rfl
  replica := by
    rw [Entry.changes_of_silent h]
    rfl
  looks hr := by cases h _ hr

theorem Asked.silent {filter : Option String} {outcome : Except Error Fetched}
    {asked : List (Entry κ)} (h : Asked filter outcome asked) :
    ∀ e ∈ asked, e.isSilent = true := by
  intro e he
  cases h <;> simp only [List.mem_cons, List.not_mem_nil, or_false] at he <;>
    rcases he with rfl | rfl | rfl <;> rfl

/-- A step was taken from one scene to another, and nobody has been called for it yet. -/
structure Committed (s : Scene ω κ) (step : Step) (s' : Scene ω κ) (entries : List (Entry κ)) :
    Prop where
  replica : s'.replica = s.replica.step step
  record : s'.record = s.record ++ entries
  silent : ∀ e ∈ entries, e.isSilent = true

namespace Company

variable (company : Company ω κ) (s : Scene ω κ)

theorem warnings_run (ids : List UInt64) :
    (ids.forM fun id => company.surroundings.log (.duplicateBundle id)).run s =
      ((), { s with record := s.record ++ ids.map fun id => .logged (.duplicateBundle id) }) := by
  induction ids generalizing s with
  | nil => simp only [List.map_nil, List.append_nil]; rfl
  | cons id ids ih =>
    refine (ih _).trans ?_
    rw [List.map_cons, List.append_cons]

/-- A load that fails leaves the replica as it was. -/
theorem reload_failed {e : Error} (failed : (company.surroundings.fetch.run s).1 = .error e) :
    ∃ asked outside, Asked s.replica.config.configurationFilter (.error e) asked ∧
      company.surroundings.reload.run s =
        (.error e, ⟨s.replica, outside, s.record ++ asked ++ [.logged (.reloadFailed e)]⟩) := by
  obtain ⟨asked, outside, what, fetched⟩ := company.fetch_run s
  rw [failed] at what
  refine ⟨asked, outside, what, ?_⟩
  rw [Surroundings.reload, Surroundings.run_bind, failed, fetched]
  rfl

/-- A load that succeeds is a step, with a round of calls after it. -/
theorem reload_loaded {fetched : Fetched}
    (loaded : (company.surroundings.fetch.run s).1 = .ok fetched) :
    ∃ s' asked more, Asked s.replica.config.configurationFilter (.ok fetched) asked ∧
      Committed s (.reload (.ok fetched)) s' (asked ++ more) ∧
      company.surroundings.reload.run s = (.ok (), (company.surroundings.notify.run s').2) := by
  obtain ⟨asked, outside, what, eq⟩ := company.fetch_run s
  rw [loaded] at what
  let contents := Contents.ofFetched fetched
  let warned : List (Entry κ) :=
    (Collected.ofList fetched.bundles).repeated.map fun id => .logged (.duplicateBundle id)
  let announced : Entry κ := .logged (.reloaded contents.bundles.records.length
    contents.services.records.length contents.configurations.length (s.replica.generation + 1))
  let after : Scene ω κ :=
    ⟨s.replica.replace contents, outside, s.record ++ (asked ++ (warned ++ [announced]))⟩
  refine ⟨after, asked, warned ++ [announced], what, ⟨rfl, rfl, ?_⟩, ?_⟩
  · intro e he
    rcases List.mem_append.mp he with he | he
    · exact what.silent e he
    rcases List.mem_append.mp he with he | he
    · obtain ⟨id, -, rfl⟩ := List.mem_map.mp he
      rfl
    · rw [List.mem_singleton.mp he]
      rfl
  · have shape : after.record = s.record ++ asked ++ warned ++ [announced] := by
      simp only [after, List.append_assoc]
    have given : after = { after with record := s.record ++ asked ++ warned ++ [announced] } := by
      rw [← shape]
    rw [given, Surroundings.reload, Surroundings.run_bind, loaded, eq]
    simp only [Surroundings.run_bind, warnings_run]
    rfl

/-- A notice that finds nothing loaded is ignored. -/
theorem apply_ignored (event : Event) (unloaded : s.replica.isLoaded = false) :
    (company.surroundings.apply event).run s =
      (false, { s with record := s.record ++ [.logged (.ignored event)] }) := by
  obtain ⟨⟨config, contents, generation, listeners⟩, outside, record⟩ := s
  cases contents with
  | none => rfl
  | some c => cases unloaded

/-- A notice that finds something loaded is a step, with a round of calls after it. -/
theorem apply_loaded (event : Event) (loaded : s.replica.isLoaded = true) :
    ∃ s', Committed s (.notice event) s' [] ∧ (company.surroundings.apply event).run s =
      (true, (company.surroundings.notify.run s').2) := by
  obtain ⟨⟨config, contents, generation, listeners⟩, outside, record⟩ := s
  cases contents with
  | none => cases loaded
  | some c =>
    exact ⟨⟨_, outside, record⟩, ⟨rfl, (List.append_nil _).symm, fun _ he => nomatch he⟩, rfl⟩

end Company

/-! ### Operations -/

/-- What an operation comes to: a change, which is a step that counts and a round of calls after it,
or no change, and then nobody is called. -/
inductive Effect (company : Company ω κ) (s : Scene ω κ) (operation : Operation κ) :
    Answer × Scene ω κ → Prop
  | change {step : Step} {mid : Scene ω κ} {before told : List (Entry κ)}
      (taken : company.step? s operation = some step)
      (counts : (s.replica.outcome step).counts = true)
      (committed : Committed s step mid before)
      (round : Round s.replica.listeners.round mid (company.surroundings.notify.run mid).1
        (company.surroundings.notify.run mid).2 told) :
      Effect company s operation
        (.outcome (s.replica.outcome step), (company.surroundings.notify.run mid).2)
  | idle {answer : Answer} {s' : Scene ω κ} {entries : List (Entry κ)}
      (idle : answer.counts = false)
      (outcome : answer.outcome? = (company.step? s operation).map s.replica.outcome)
      (passed : Passed s s' entries)
      (aside : ∀ e ∈ entries, e.Aside) :
      Effect company s operation (answer, s')

namespace Effect

variable {company : Company ω κ} {s : Scene ω κ} {operation : Operation κ}

theorem of_committed {step : Step} {mid : Scene ω κ} {before : List (Entry κ)}
    (taken : company.step? s operation = some step)
    (counts : (s.replica.outcome step).counts = true) (committed : Committed s step mid before) :
    Effect company s operation
      (.outcome (s.replica.outcome step), (company.surroundings.notify.run mid).2) := by
  obtain ⟨told, round⟩ := company.notify_round mid
  rw [committed.replica, Replica.listeners_step] at round
  exact .change taken counts committed round

/-- What is no step is idle where it is quiet. -/
theorem of_quiet {answer : Answer} {α : Type} {x : StateM (Scene ω κ) α} (hx : Quiet x)
    (noStep : company.step? s operation = none) (plain : answer.outcome? = none) :
    Effect company s operation (answer, (x.run s).2) := by
  obtain ⟨entries, passed, aside⟩ := hx s
  exact .idle (by rw [Answer.counts, plain]; rfl) (by rw [plain, noStep]; rfl) passed aside

end Effect

namespace Company

variable (company : Company ω κ) (s : Scene ω κ)

theorem reload_effect : Effect company s .reload ((company.perform .reload).run s) := by
  rw [perform, Surroundings.run_bind]
  cases fetched : (company.surroundings.fetch.run s).1 with
  | error e =>
    obtain ⟨asked, outside, what, eq⟩ := company.reload_failed s fetched
    have silent : ∀ entry ∈ asked ++ [.logged (.reloadFailed e)], entry.isSilent = true := by
      intro entry he
      rcases List.mem_append.mp he with he | he
      · exact what.silent entry he
      · rw [List.mem_singleton.mp he]
        rfl
    have passed : Passed s
        ⟨s.replica, outside, s.record ++ (asked ++ [.logged (.reloadFailed e)])⟩ _ :=
      .of_silent silent
    rw [eq, List.append_assoc]
    refine .idle rfl ?_ passed fun entry he => Entry.aside_of_silent (silent entry he)
    rw [step?, fetched]
    rfl
  | ok fetch =>
    obtain ⟨mid, asked, more, -, committed, eq⟩ := company.reload_loaded s fetched
    rw [eq]
    exact .of_committed (by rw [step?, fetched]) rfl committed

theorem apply_effect (event : Event) :
    Effect company s (.apply event) ((company.perform (.apply event)).run s) := by
  rw [perform, Surroundings.run_bind]
  cases loaded : s.replica.isLoaded with
  | false =>
    have passed : Passed s { s with record := s.record ++ [.logged (.ignored event)] } _ :=
      Passed.logged s (.ignored event)
    rw [company.apply_ignored s event loaded]
    refine .idle rfl ?_ passed fun e he => ?_
    · show some (Outcome.applied false) = some (.applied s.replica.isLoaded)
      rw [loaded]
    · rw [List.mem_singleton.mp he]
      exact ⟨rfl, rfl⟩
  | true =>
    obtain ⟨mid, committed, eq⟩ := company.apply_loaded s event loaded
    have outcome : s.replica.outcome (.notice event) = .applied true := by
      rw [Replica.outcome, loaded]
    rw [eq, ← outcome]
    exact .of_committed rfl (by rw [outcome]; rfl) committed

/-- **Every operation is a change or idle.** -/
theorem perform_effect (operation : Operation κ) :
    Effect company s operation ((company.perform operation).run s) := by
  cases operation with
  | reload => exact company.reload_effect s
  | apply event => exact company.apply_effect s event
  | ask query => exact .of_quiet (.pure ()) rfl rfl
  | addListener listener => exact .of_quiet (.addListener listener) rfl rfl
  | removeListener id =>
    exact .of_quiet (x := Session.removeListener id) (.removeListener id) rfl rfl

end Company

end StateReplica.Session
