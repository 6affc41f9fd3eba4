import StateReplica.Proofs.Dealings.Basic

/-!
What does not matter in dealings with replicas: whether they log the notices that they get, in whose name a
server delivers them, and whether a server delivers them at all or somebody applies them.

Dealings are made plain by applying every notice directly (`Conduct.plain`), and a scene is muted by turning
off the log of notices and striking what is in it (`Scene.muted`). To do something and then mute the scene is
the same as to do the plain form of it in the muted scene (`Mutes`). That holds of everything that replicas
do, and so of whole sessions (`session_muted`): two sessions with the same plain form come to the same
(`session_eq_of_plain_eq`).
-/

namespace StateReplica

variable {ω κ α β γ δ : Type}

namespace Replica

/-- The replica with the log of notices turned off. -/
def muted (r : Replica κ) : Replica κ := { r with config := r.config.withLogEvents false }

theorem commit?_muted (r : Replica κ) (event : Event) :
    r.muted.commit? event = (r.commit? event).map muted := by
  unfold commit?
  rw [Option.map_map]
  rfl

end Replica

namespace Dealings

/-! ### Plain dealings -/

/-- The same with every notice applied directly. Whoever had it delivered does not get to know the answer. -/
def Conduct.plain : Conduct ω κ α → Conduct ω κ α
  | .finish result => .finish result
  | .act (.receive r _ event) next => .act (.apply r event) fun _ => (next ()).plain
  | .act deed next => .act deed fun answer => (next answer).plain
  | .mind change next => .mind change fun before => (next before).plain

/-- The same company with every notice applied directly. -/
def Company.plain (company : Company ω κ) : Company ω κ where
  framework r := (company.framework r).plain
  bundles r := (company.bundles r).plain
  configurations r filter := (company.configurations r filter).plain
  callback callee := (company.callback callee).plain

/-- Does deeds in a given way, but applies every notice directly. -/
def plainly (perform : Performance ω κ) : Performance ω κ
  | .receive r _ event => do
    let _ ← perform (.apply r event)
    return ()
  | deed => perform deed

/-- To do the plain form of something is to do it plainly. -/
theorem Conduct.play_plain (perform : Performance ω κ) (conduct : Conduct ω κ α) :
    conduct.plain.play perform = conduct.play (plainly perform) := by
  induction conduct with
  | finish result => rfl
  | act deed next ih =>
    cases deed with
    | receive r server event =>
      simp only [plain, play, plainly, bind_assoc, pure_bind]
      exact bind_congr fun _ => ih ()
    | _ => exact bind_congr ih
  | mind change next ih => exact bind_congr fun s => bind_congr fun _ => ih s.outside

/-! ### Muted scenes -/

/-- Whether an entry of the log says that a notice was received. -/
def isReceipt : LogEntry → Bool
  | .received _ _ => true
  | _ => false

/-- Whether an entry of the record is anything else than the log of a notice. -/
def Entry.counts : Entry κ → Bool
  | .logged _ entry => !isReceipt entry
  | _ => true

/-- The scene with the log of notices turned off and struck off the record. -/
def Scene.muted (s : Scene ω κ) : Scene ω κ where
  replicas r := (s.replicas r).muted
  outside := s.outside
  record := s.record.filter Entry.counts

namespace Scene

theorem muted_setReplica (s : Scene ω κ) (r : Nat) (replica : Replica κ) :
    (s.setReplica r replica).muted = s.muted.setReplica r replica.muted := by
  unfold muted setReplica
  congr 1
  funext q
  exact apply_ite Replica.muted (q = r) replica (s.replicas q)

theorem muted_note (s : Scene ω κ) {entry : Entry κ} (counts : entry.counts = true) :
    (s.note entry).muted = s.muted.note entry := by
  unfold muted note
  rw [List.filter_append, List.filter_cons_of_pos counts, List.filter_nil]

theorem muted_note_received (s : Scene ω κ) (r : Nat) (server : ServerIdentity) (event : Event) :
    (s.note (.logged r (.received server event))).muted = s.muted := by
  unfold muted note
  rw [List.filter_append]
  exact congrArg _ (List.append_nil _)

end Scene

/-! ### Doing the same in a muted scene -/

/-- What `x` does shows in the muted scene as what `y` does there; what comes of it may be seen through
`f`. -/
def Mutes (f : α → β) (x : Play ω κ α) (y : Play ω κ β) : Prop :=
  ∀ s, (x.run s).map (Prod.map f Scene.muted) = y.run s.muted

namespace Mutes

theorem pure (f : α → β) (a : α) : Mutes (ω := ω) (κ := κ) f (Pure.pure a) (Pure.pure (f a)) :=
  fun _ => rfl

theorem bind {f : α → β} {g : γ → δ} {x : Play ω κ α} {y : Play ω κ β} {k : α → Play ω κ γ}
    {k' : β → Play ω κ δ} (h : Mutes f x y) (hk : ∀ a, Mutes g (k a) (k' (f a))) :
    Mutes g (x >>= k) (y >>= k') := by
  intro s
  rw [StateT.run_bind, StateT.run_bind, ← h s]
  cases x.run s with
  | none => rfl
  | some result => exact hk result.1 result.2

/-- What is done first may not show at all. -/
theorem bind_of_pure {g : γ → δ} {x : Play ω κ α} {k : α → Play ω κ γ} {y : Play ω κ δ}
    (h : Mutes (fun _ => ()) x (Pure.pure ())) (hk : ∀ a, Mutes g (k a) y) : Mutes g (x >>= k) y := by
  rw [← pure_bind () fun _ => y]
  exact h.bind hk

theorem ite {f : α → β} {x x' : Play ω κ α} {y y' : Play ω κ β} (c : Prop) [Decidable c]
    (h : Mutes f x y) (h' : Mutes f x' y') :
    Mutes f (if c then x else x') (if c then y else y') := by
  split
  · exact h
  · exact h'

/-- What is done may hang on the scene that is found. -/
theorem get_bind {f : α → β} {k : Scene ω κ → Play ω κ α} {k' : Scene ω κ → Play ω κ β}
    (hk : ∀ s, Mutes f (k s) (k' s.muted)) : Mutes f (get >>= k) (get >>= k') :=
  fun s => hk s s

theorem note {entry : Entry κ} (counts : entry.counts = true) :
    Mutes (ω := ω) id (Dealings.note entry) (Dealings.note entry) :=
  fun s => congrArg (fun s' => some ((), s')) (s.muted_note counts)

theorem log (r : Nat) (entry : LogEntry) (other : isReceipt entry = false) :
    Mutes (ω := ω) (κ := κ) id (Dealings.note (.logged r entry)) (Dealings.note (.logged r entry)) :=
  .note (congrArg Bool.not other)

/-- That a notice was received does not show. -/
theorem receipt (r : Nat) (server : ServerIdentity) (event : Event) :
    Mutes (ω := ω) (κ := κ) (fun _ => ()) (Dealings.note (.logged r (.received server event)))
      (Pure.pure ()) :=
  fun s => congrArg (fun s' => some ((), s')) (s.muted_note_received r server event)

theorem setReplica (r : Nat) (replica : Replica κ) :
    Mutes (ω := ω) id (modify (·.setReplica r replica)) (modify (·.setReplica r replica.muted)) :=
  fun s => congrArg (fun s' => some ((), s')) (s.muted_setReplica r replica)

theorem addListener (r : Nat) (listener : Listener κ) :
    Mutes (ω := ω) id (Dealings.addListener r listener) (Dealings.addListener r listener) := by
  refine .get_bind fun s => (Mutes.log r _ rfl).bind fun _ => ?_
  exact (Mutes.setReplica r { s.replicas r with listeners := (s.replicas r).listeners.add listener }).bind
    fun _ => .pure id _

theorem removeListener (r : Nat) (listener : ListenerId) :
    Mutes (ω := ω) (κ := κ) id (Dealings.removeListener r listener)
      (Dealings.removeListener r listener) := by
  refine .get_bind fun s => .ite _ ?_ (.pure id false)
  have removed := Mutes.setReplica (ω := ω) r
    { s.replicas r with listeners := (s.replicas r).listeners.remove listener }
  exact removed.bind fun _ => (Mutes.log r _ rfl).bind fun _ => .pure id true

end Mutes

/-- What anybody does shows in a muted scene as its plain form does there, if deeds do. -/
theorem Conduct.play_mutes {perform perform' : Performance ω κ}
    (h : ∀ deed, Mutes id (perform deed) (plainly perform' deed)) (conduct : Conduct ω κ α) :
    Mutes id (conduct.play perform) (conduct.plain.play perform') := by
  rw [play_plain]
  induction conduct with
  | finish result => exact .pure id result
  | act deed next ih => exact (h deed).bind ih
  | mind change next ih => exact fun s => ih s.outside { s with outside := change s.outside }

/-! ### What replicas do -/

/-- Surroundings of a replica, and what they are in the muted scene. -/
structure Muffled (around around' : Surroundings (Play ω κ) κ) : Prop where
  get : Mutes Replica.muted around.get around'.get
  set (replica : Replica κ) : Mutes id (around.set replica) (around'.set replica.muted)
  framework : Mutes id around.framework around'.framework
  bundles : Mutes id around.bundles around'.bundles
  configurations (filter : Option String) :
    Mutes id (around.configurations filter) (around'.configurations filter)
  call (callee : κ) : Mutes id (around.call callee) (around'.call callee)
  log (entry : LogEntry) (other : isReceipt entry = false) :
    Mutes id (around.log entry) (around'.log entry)

namespace Muffled

variable {around around' : Surroundings (Play ω κ) κ} (h : Muffled around around')
include h

theorem fetch : Mutes id around.fetch around'.fetch := by
  simp only [Surroundings.fetch, ExceptT.run_bind, ExceptT.run_mk, ExceptT.run_liftM, bind_map_left]
  refine h.framework.bind fun answer => ?_
  cases answer with
  | error e => exact .pure id _
  | ok framework =>
    refine h.bundles.bind fun answer => ?_
    cases answer with
    | error e => exact .pure id _
    | ok bundles =>
      refine h.get.bind fun replica => (h.configurations _).bind fun answer => ?_
      cases answer with
      | error e => exact .pure id _
      | ok configurations => exact .pure id _

/-- The same listeners are called in the same order, and the same comes of it. -/
theorem callAll (round : List (ListenerId × Listener κ)) :
    Mutes id (callAll around.call around.log round) (StateReplica.callAll around'.call around'.log round) := by
  induction round with
  | nil => exact .pure id 0
  | cons first rest ih =>
    obtain ⟨number, listener⟩ := first
    refine (h.log _ rfl).bind fun _ => (h.call listener.callee).bind fun result => ?_
    cases result with
    | done => exact ih
    | failed error => exact (h.log _ rfl).bind fun _ => ih.bind fun _ => .pure id _
    | panicked => exact (h.log _ rfl).bind fun _ => ih.bind fun _ => .pure id _

theorem notify : Mutes id around.notify around'.notify :=
  h.get.bind fun replica => h.callAll replica.listeners.round

theorem warnings (ids : List UInt64) :
    Mutes id (ids.forM fun n => around.log (.duplicateBundle n))
      (ids.forM fun n => around'.log (.duplicateBundle n)) := by
  induction ids with
  | nil => exact .pure id _
  | cons first rest ih => exact (h.log _ rfl).bind fun _ => ih

theorem reload : Mutes id around.reload around'.reload := by
  refine h.fetch.bind fun answer => ?_
  cases answer with
  | error e => exact (h.log _ rfl).bind fun _ => .pure id _
  | ok fetched =>
    refine (h.warnings _).bind fun _ => h.get.bind fun replica => ?_
    refine (h.set (replica.replace (.ofFetched fetched))).bind fun _ => h.get.bind fun changed => ?_
    exact (h.log _ rfl).bind fun _ => h.notify.bind fun _ => .pure id _

theorem apply (event : Event) : Mutes id (around.apply event) (around'.apply event) := by
  refine h.get.bind fun replica => ?_
  rw [Replica.commit?_muted]
  cases replica.commit? event with
  | none => exact (h.log _ rfl).bind fun _ => .pure id _
  | some changed => exact (h.set changed).bind fun _ => h.notify.bind fun _ => .pure id _

end Muffled

namespace Company

variable (company : Company ω κ)

section

variable {perform perform' : Performance ω κ} (h : ∀ deed, Mutes id (perform deed) (plainly perform' deed))
include h

theorem surroundings_muffled (r : Nat) :
    Muffled (company.surroundings perform r) (company.plain.surroundings perform' r) where
  get _ := rfl
  set := .setReplica r
  framework := (company.framework r).play_mutes h
  bundles := (company.bundles r).play_mutes h
  configurations filter := (company.configurations r filter).play_mutes h
  call callee := (Mutes.note rfl).bind fun _ => (company.callback callee).play_mutes h
  log := .log r

/-- **A notice that is delivered is applied**, whoever delivers it; all else that comes of it is in the log. -/
theorem receive_mutes (r : Nat) (server : ServerIdentity) (event : Event) :
    Mutes id ((company.surroundings perform r).receive server event)
      (plainly (company.plain.step perform') (.receive r server event)) := by
  have applied : Mutes id
      (do let _ ← (company.surroundings perform r).apply event; return ())
      (do let _ ← (company.plain.surroundings perform' r).apply event; return ()) :=
    ((company.surroundings_muffled h r).apply event).bind fun _ => .pure id ()
  -- Whether the receipt is logged is settled by the settings, and is all that hangs on them.
  have either (logs : Prop) [Decidable logs] : Mutes id
      (if logs then (do
        (company.surroundings perform r).log (.received server event)
        let _ ← (company.surroundings perform r).apply event
        return ())
      else (do
        let _ ← (company.surroundings perform r).apply event
        return ()))
      (do
        let _ ← (company.plain.surroundings perform' r).apply event
        return ()) := by
    split
    · exact (Mutes.receipt r server event).bind_of_pure fun _ => applied
    · exact applied
  exact fun s => either _ s

theorem step_mutes (deed : Deed κ) :
    Mutes id (company.step perform deed) (plainly (company.plain.step perform') deed) := by
  cases deed with
  | reload r => exact (company.surroundings_muffled h r).reload
  | apply r event => exact (company.surroundings_muffled h r).apply event
  | receive r server event => exact company.receive_mutes h r server event
  | addListener r listener => exact .addListener r listener
  | removeListener r id => exact .removeListener r id
  | ask | isLoaded | generation | countListeners => exact .get_bind fun s => .pure id _

theorem stepNoted_mutes (deed : Deed κ) :
    Mutes id (company.stepNoted perform deed) (plainly (company.plain.stepNoted perform') deed) := by
  have step := company.step_mutes h deed
  cases deed with
  | apply r event => exact step.bind fun _ => .pure id _
  | receive r server event =>
    have applied : company.plain.stepNoted perform' (.apply r event) =
        company.plain.step perform' (.apply r event) := bind_pure _
    have received : company.stepNoted perform (.receive r server event) =
        company.step perform (.receive r server event) := bind_pure _
    simp only [plainly, applied, received]
    exact step
  | reload | ask | isLoaded | generation | countListeners | addListener | removeListener =>
    exact step.bind fun _ => (Mutes.note rfl).bind fun _ => .pure id _

end

/-- **Whatever is done shows in the muted scene as if every notice were applied directly.** -/
theorem perform_mutes (depth : Nat) (deed : Deed κ) :
    Mutes id (company.perform depth deed) (plainly (company.plain.perform depth) deed) := by
  induction depth generalizing deed with
  | zero => cases deed <;> exact fun _ => rfl
  | succ depth ih => exact company.stepNoted_mutes ih deed

/-- **A session shows as its plain form does** where nobody logs any notices. -/
theorem session_muted (depth : Nat) (configs : Nat → ReplicaConfig) (outside : ω)
    (conduct : Conduct ω κ α) :
    (company.session depth configs outside conduct).map (Prod.map id Scene.muted) =
      company.plain.session depth (fun r => (configs r).withLogEvents false) outside conduct.plain :=
  conduct.play_mutes (company.perform_mutes depth) (.fresh configs outside)

end Company

/-- **Neither the log of notices nor the name of a server makes a difference**, nor does it whether a notice
is delivered or applied directly. Let two sessions be the same but for these things: with settings that differ
at most in whether notices are logged, and with conduct, of whoever deals with the replicas as well as of
their servers and listeners, that comes to the same once every notice is applied directly. Then either both
come to an end or neither does. If they do, they have the same result, and the replicas have the same
contents, generations and listeners; the records show the same answers and the same calls in the same order,
and differ only in the log of notices. -/
theorem session_eq_of_plain_eq {company company' : Company ω κ} {configs configs' : Nat → ReplicaConfig}
    {conduct conduct' : Conduct ω κ α} (sameCompany : company.plain = company'.plain)
    (sameConfigs : ∀ r, (configs r).withLogEvents false = (configs' r).withLogEvents false)
    (sameConduct : conduct.plain = conduct'.plain) (depth : Nat) (outside : ω) :
    (company.session depth configs outside conduct).map (Prod.map id Scene.muted) =
      (company'.session depth configs' outside conduct').map (Prod.map id Scene.muted) := by
  rw [Company.session_muted, Company.session_muted, sameCompany, sameConduct, funext sameConfigs]

/-- A notice for the first replica, which some server delivers or which is applied directly. -/
def Conduct.notice (via : Option ServerIdentity) (event : Event) (next : Conduct ω κ α) : Conduct ω κ α :=
  match via with
  | some server => .act (.receive 0 server event) fun _ => next
  | none => .act (.apply 0 event) fun _ => next

/-- A server of an empty framework, and a listener that gives one notice when it is called for the first
time. -/
def echo (via : Option ServerIdentity) : Company Nat Unit where
  framework _ := .finish (.ok .blank)
  bundles _ := .finish (.ok [])
  configurations _ _ := .finish (.ok [])
  callback _ := .mind (· + 1) fun before =>
    if before = 0 then .notice via (.framework ⟨.blank⟩) (.finish .done) else .finish .done

/-- Listens to the first replica, loads it, gives it a notice and asks for its generation. -/
def errand (via : Option ServerIdentity) : Conduct Nat Unit UInt64 :=
  .act (.addListener 0 ⟨"echo", ()⟩) fun _ => .act (.reload 0) fun _ =>
    .notice via (.framework ⟨.blank⟩) (.act (.generation 0) .finish)

theorem Conduct.plain_notice (via : Option ServerIdentity) (event : Event) (next : Conduct ω κ α) :
    (notice via event next).plain = .act (.apply 0 event) fun _ => next.plain := by
  cases via <;> rfl

theorem session_eq_echo :
    (echo (some ⟨"a", 1⟩)).plain = (echo none).plain ∧
    (∀ _ : Nat, (ReplicaConfig.default.withLogEvents true).withLogEvents false =
      ReplicaConfig.default.withLogEvents false) ∧
    (errand (some ⟨"b", 2⟩)).plain = (errand none).plain ∧
    ((echo (some ⟨"a", 1⟩)).session 3 (fun _ => ReplicaConfig.default.withLogEvents true) 0
        (errand (some ⟨"b", 2⟩))).map (Prod.map id Scene.muted) =
      ((echo none).session 3 (fun _ => ReplicaConfig.default) 0 (errand none)).map
        (Prod.map id Scene.muted) ∧
    ((echo none).session 3 (fun _ => ReplicaConfig.default) 0 (errand none)).map
      (fun (a, s) => (a, s.outside)) = some (3, 3) := by
  have company : (echo (some ⟨"a", 1⟩)).plain = (echo none).plain := by
    simp only [Company.plain, echo, Conduct.plain, apply_ite Conduct.plain, Conduct.plain_notice]
  have conduct : (errand (some ⟨"b", 2⟩)).plain = (errand none).plain := by
    simp only [errand, Conduct.plain, Conduct.plain_notice]
  have configs : ∀ _ : Nat, (ReplicaConfig.default.withLogEvents true).withLogEvents false =
      ReplicaConfig.default.withLogEvents false := fun _ => rfl
  refine ⟨company, configs, conduct, session_eq_of_plain_eq company configs conduct 3 0, ?_⟩
  decide +kernel

end Dealings

end StateReplica
