import StateReplica.Proofs.Session.Basic

/-!
Rounds of calls. Whatever a listener does when it is called, it calls nobody else and leaves the
contents alone (`Callback.play_quiet`). So a round goes through its list from top to bottom, and the
registry after it is the one before with the changes that were made on the way
(`Company.callAll_round`).
-/

namespace StateReplica.Session

open Registry (Change)

variable {ω κ : Type}

/-- From one scene to another only such things happened that are no change of the contents. The
registry was changed as the record says, and whoever looked at the replica saw the same contents. -/
structure Passed (s s' : Scene ω κ) (entries : List (Entry κ)) : Prop where
  record : s'.record = s.record ++ entries
  replica : s'.replica =
    { s.replica with listeners := s.replica.listeners.changed (Entry.changes entries) }
  looks {r : Replica κ} : .looked r ∈ entries → r.bare = s.replica.bare

namespace Passed

variable {s t u : Scene ω κ} {before after : List (Entry κ)}

theorem bare (h : Passed s t before) : t.replica.bare = s.replica.bare := by
  rw [h.replica]
  rfl

theorem listeners (h : Passed s t before) :
    t.replica.listeners = s.replica.listeners.changed (Entry.changes before) := by
  rw [h.replica]

theorem refl (s : Scene ω κ) : Passed s s [] where
  record := (List.append_nil _).symm
  replica := rfl
  looks h := nomatch h

theorem trans (h : Passed s t before) (h' : Passed t u after) : Passed s u (before ++ after) where
  record := by rw [h'.record, h.record, List.append_assoc]
  replica := by
    rw [h'.replica, h.listeners, h.replica, Entry.changes_append, Registry.changed_append]
  looks {r} hr := by
    rcases List.mem_append.mp hr with hr | hr
    · exact h.looks hr
    · rw [h'.looks hr, h.bare]

/-- An entry other than a look or a change is all that happens. -/
theorem noted (s : Scene ω κ) (entry : Entry κ) (kept : entry.change? = none)
    (blind : ∀ r, .looked r ≠ entry) : Passed s ((note entry).run s).2 [entry] where
  record := rfl
  replica := by
    rw [Entry.changes, List.filterMap_cons, kept]
    rfl
  looks hr := absurd (List.mem_singleton.mp hr) (blind _)

theorem logged (s : Scene ω κ) (entry : LogEntry) :
    Passed s ((note (.logged entry)).run s).2 [.logged entry] :=
  .noted s _ rfl fun _ eq => nomatch eq

theorem looked (s : Scene ω κ) :
    Passed s ((note (.looked s.replica)).run s).2 [.looked s.replica] where
  record := rfl
  replica := rfl
  looks hr := by
    cases List.mem_singleton.mp hr
    rfl

theorem changedRegistry (s : Scene ω κ) (change : Change κ) :
    Passed s ((changeRegistry change).run s).2 [.changed change] where
  record := rfl
  replica := rfl
  looks hr := nomatch List.mem_singleton.mp hr

end Passed

/-! ### What one listener does -/

/-- Neither the beginning of a call nor its end. -/
def Entry.Aside (entry : Entry κ) : Prop := entry.isCall = false ∧ entry.ending? = none

/-- An action that calls nobody and changes the registry at most. -/
def Quiet {α : Type} (x : StateM (Scene ω κ) α) : Prop :=
  ∀ s, ∃ entries, Passed s (x.run s).2 entries ∧ ∀ e ∈ entries, e.Aside

namespace Quiet

variable {α β : Type}

theorem pure (a : α) : Quiet (Pure.pure a : StateM (Scene ω κ) α) :=
  fun s => ⟨[], .refl s, fun _ he => nomatch he⟩

theorem bind {x : StateM (Scene ω κ) α} {f : α → StateM (Scene ω κ) β} (hx : Quiet x)
    (hf : ∀ a, Quiet (f a)) : Quiet (x >>= f) := by
  intro s
  obtain ⟨before, passed, aside⟩ := hx s
  obtain ⟨after, passed', aside'⟩ := hf (x.run s).1 (x.run s).2
  refine ⟨before ++ after, passed.trans passed', fun e he => ?_⟩
  rcases List.mem_append.mp he with he | he
  · exact aside e he
  · exact aside' e he

/-- What an action does may hang on the scene that it finds. -/
theorem get_bind {f : Scene ω κ → StateM (Scene ω κ) β}
    (hf : ∀ s, ∃ entries, Passed s ((f s).run s).2 entries ∧ ∀ e ∈ entries, e.Aside) :
    Quiet (get >>= f) :=
  hf

/-- Most of what is logged announces nobody. -/
theorem log (entry : LogEntry) (silent : (Entry.logged entry : Entry κ).isCall = false) :
    Quiet (ω := ω) (note (.logged entry : Entry κ)) :=
  fun s => ⟨_, .logged s entry, fun _ he => List.mem_singleton.mp he ▸ ⟨silent, rfl⟩⟩

theorem changeRegistry (change : Change κ) : Quiet (ω := ω) (Session.changeRegistry change) :=
  fun s => ⟨_, .changedRegistry s change, fun _ he => List.mem_singleton.mp he ▸ ⟨rfl, rfl⟩⟩

theorem addListener (listener : Listener κ) : Quiet (ω := ω) (Session.addListener listener) := by
  refine .get_bind fun s => ?_
  refine Quiet.bind (.log _ rfl) (fun _ => ?_) s
  exact (Quiet.changeRegistry _).bind fun _ => .pure _

theorem removeListener (id : ListenerId) : Quiet (ω := ω) (Session.removeListener (κ := κ) id) := by
  refine .get_bind fun s => ?_
  split
  · refine Quiet.bind (.changeRegistry _) (fun _ => ?_) s
    exact Quiet.bind (.log _ rfl) fun _ => .pure _
  · exact Quiet.pure _ s

end Quiet

/-- Whatever a listener does, it calls nobody and changes the registry at most. -/
theorem Callback.play_quiet (callback : Callback ω κ) : Quiet callback.play := by
  induction callback with
  | finish result => exact .pure result
  | look next ih =>
    refine .get_bind fun s => ?_
    obtain ⟨entries, passed, aside⟩ := ih s.replica ((note (.looked s.replica)).run s).2
    refine ⟨_, (Passed.looked s).trans passed, fun e he => ?_⟩
    rcases List.mem_cons.mp he with rfl | he
    · exact ⟨rfl, rfl⟩
    · exact aside e he
  | add listener next ih => exact (Quiet.addListener listener).bind ih
  | remove id next ih => exact (Quiet.removeListener id).bind ih
  | mind change next ih =>
    refine .get_bind fun s => ?_
    obtain ⟨entries, passed, aside⟩ := ih s.outside { s with outside := change s.outside }
    exact ⟨entries, ⟨passed.record, passed.replica, passed.looks⟩, aside⟩

/-! ### Rounds -/

/-- A listener is announced under its number and called. -/
def calls (round : List (ListenerId × Listener κ)) : List (Entry κ) :=
  round.flatMap fun (id, listener) =>
    [.logged (.notifying id listener.name), .called listener.callee]

/-- A round of calls took place from one scene to another: everybody in it was called once, in
order, every call came to an end, and so many failed or panicked. -/
structure Round (round : List (ListenerId × Listener κ)) (s : Scene ω κ) (failed : Nat)
    (s' : Scene ω κ) (told : List (Entry κ)) : Prop where
  passed : Passed s s' told
  calls : told.filter (·.isCall) = calls round
  ended : (Entry.endings told).length = round.length
  failed : failed = (Entry.endings told).countP (· ≠ .done)

namespace Round

variable {s t u : Scene ω κ} {first rest : List (ListenerId × Listener κ)} {n m : Nat}
  {before after : List (Entry κ)}

theorem nil (s : Scene ω κ) : Round [] s 0 s [] := ⟨.refl s, rfl, rfl, rfl⟩

theorem append (h : Round first s n t before) (h' : Round rest t m u after) :
    Round (first ++ rest) s (m + n) u (before ++ after) where
  passed := h.passed.trans h'.passed
  calls := by
    rw [List.filter_append, h.calls, h'.calls]
    exact List.flatMap_append.symm
  ended := by rw [Entry.endings_append, List.length_append, h.ended, h'.ended, List.length_append]
  failed := by rw [Entry.endings_append, List.countP_append, h.failed, h'.failed, Nat.add_comm]

/-- What is done between calls belongs to the round of nobody. -/
theorem aside {entries : List (Entry κ)} (passed : Passed s t entries)
    (aside : ∀ e ∈ entries, e.Aside) : Round [] s 0 t entries := by
  have noEnds : Entry.endings entries = [] :=
    List.filterMap_eq_nil_iff.mpr fun e he => (aside e he).2
  refine ⟨passed, ?_, congrArg List.length noEnds, by rw [noEnds]; rfl⟩
  exact List.filter_eq_nil_iff.mpr fun e he => Bool.eq_false_iff.mp (aside e he).1

end Round

namespace Company

variable (company : Company ω κ)

/-- The round of one listener: it is announced and called, and whatever it does comes after that. -/
theorem call_round (id : ListenerId) (listener : Listener κ) (s : Scene ω κ) :
    let announced := ((company.surroundings.log (.notifying id listener.name)).run s).2
    let called := (company.surroundings.call listener.callee).run announced
    ∃ told, Round [(id, listener)] s (if called.1 = .done then 0 else 1) called.2 told := by
  intro announced called
  let begun := ((note (.called listener.callee)).run announced).2
  obtain ⟨entries, passed, aside⟩ := (company.callback listener.callee).play_quiet begun
  have quiet := Round.aside passed aside
  have noEnds : Entry.endings entries = [] := List.length_eq_zero_iff.mp quiet.ended
  have ends : Entry.endings ([.logged (.notifying id listener.name), .called listener.callee] ++
      (entries ++ [.ended called.1])) = [called.1] := by
    rw [Entry.endings_append, Entry.endings_append, noEnds]
    rfl
  refine ⟨_, ?_, ?_, congrArg List.length ends, ?_⟩
  · have entered : Passed s begun
        [.logged (.notifying id listener.name), .called listener.callee] :=
      (Passed.logged s _).trans (.noted announced _ rfl fun _ eq => nomatch eq)
    exact entered.trans (passed.trans (.noted _ _ rfl fun _ eq => nomatch eq))
  · rw [List.filter_append, List.filter_append, quiet.calls]
    rfl
  · rw [ends]
    cases called.1 <;> rfl

/-- **A round calls everybody in it once and in order**, and counts those that fail or panic,
whatever they do when they are called. -/
theorem callAll_round (round : List (ListenerId × Listener κ)) (s : Scene ω κ) :
    let called := (callAll company.surroundings.call company.surroundings.log round).run s
    ∃ told, Round round s called.1 called.2 told := by
  induction round generalizing s with
  | nil => exact ⟨[], .nil s⟩
  | cons entry rest ih =>
    obtain ⟨id, listener⟩ := entry
    obtain ⟨told, one⟩ := company.call_round id listener s
    simp only [callAll, Surroundings.run_bind]
    generalize (company.surroundings.call listener.callee).run _ = call at one
    obtain ⟨ending, s₁⟩ := call
    -- what is written about a failure stands between the calls
    have written (entry : LogEntry) (silent : (Entry.logged entry : Entry κ).isCall = false) :
        Round [] s₁ 0 ((note (.logged entry)).run s₁).2 [.logged entry] :=
      .aside (.logged s₁ entry) fun _ he => List.mem_singleton.mp he ▸ ⟨silent, rfl⟩
    cases ending with
    | done =>
      obtain ⟨more, others⟩ := ih s₁
      exact ⟨_, one.append others⟩
    | failed error =>
      obtain ⟨more, others⟩ :=
        ih ((note (.logged (.listenerFailed id listener.name error))).run s₁).2
      have both := one.append ((written (.listenerFailed id listener.name error) rfl).append others)
      exact ⟨_, both⟩
    | panicked =>
      obtain ⟨more, others⟩ := ih ((note (.logged (.listenerPanicked id listener.name))).run s₁).2
      exact ⟨_, one.append ((written (.listenerPanicked id listener.name) rfl).append others)⟩

theorem notify_round (s : Scene ω κ) :
    let told := company.surroundings.notify.run s
    ∃ entries, Round s.replica.listeners.round s told.1 told.2 entries :=
  company.callAll_round s.replica.listeners.round s

end Company

end StateReplica.Session
