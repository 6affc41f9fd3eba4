import StateReplica.Proofs.Subscribers.Book

/-!
Going by the book. A scene and a book agree on everything but on who is on a list and gone, since a use
takes off a list only whom the book passes over (`Book.Keeps`). Whatever is done keeps them so, and what
it puts on record is lawful: that holds of every use of a list (`Serves.count`, `Serves.dispatch`) and
of all that replicas do when they are told something or load themselves (`Company.tell_serves`,
`Company.reload_serves`).

While something is given out, others may start dispatches of their own and give out all that belongs to
them. So an action is described by what it gives out of the dispatches that had been started before it
(`Serves`): for all but a part of a dispatch that is nothing.
-/

namespace StateReplica.Mailing

open Mailing.Entry (deliveries steps)
open Replica (Step)

variable {ω κ σ α β : Type}

/-- Who passes a test is found among those who pass a wider one. -/
theorem filter_filter_of_imp {p q : α → Bool} (h : ∀ a, p a = true → q a = true) (as : List α) :
    (as.filter q).filter p = as.filter p := by
  rw [List.filter_filter]
  refine List.filter_congr fun a _ => ?_
  rw [Bool.eq_iff_iff, Bool.and_eq_true]
  exact ⟨And.left, fun passes => ⟨passes, h a passes⟩⟩

/-! ### The book of a scene -/

/-- The book of a scene where nothing has happened yet. -/
def Book.of (s : Scene ω κ σ) : Book σ :=
  ⟨fun l => (s.lists l).subscribers, s.holders, s.started⟩

/-- A book and a scene agree on everything but on who is on a list and gone. -/
structure Book.Keeps (b : Book σ) (s : Scene ω κ σ) : Prop where
  holders : b.holders = s.holders
  started : b.started = s.started
  live (l : Nat) : (s.lists l).subscribers.filter s.alive = b.live l

namespace Book.Keeps

variable {b : Book σ} {s : Scene ω κ σ}

theorem of (s : Scene ω κ σ) : (Book.of s).Keeps s := ⟨rfl, rfl, fun _ => rfl⟩

theorem alive (h : b.Keeps s) : b.alive = s.alive := by
  funext x
  rw [Book.alive, h.holders]
  rfl

theorem noted (h : b.Keeps s) (entry : Entry σ) : b.Keeps (s.note entry) :=
  ⟨h.holders, h.started, h.live⟩

/-- **To take those who are gone off a list makes no difference to a book.** -/
theorem pruned (h : b.Keeps s) (l : Nat) :
    b.Keeps (s.setList l ((s.lists l).prune s.alive)) where
  holders := h.holders
  started := h.started
  live k := by
    rw [← h.live k]
    show (Function.update s.lists l _ k).subscribers.filter s.alive = _
    by_cases eq : k = l
    · subst eq
      rw [Function.update_self, SubscriberList.prune, List.filter_filter]
      simp only [Bool.and_self]
    · rw [Function.update_of_ne eq]

variable [DecidableEq σ]

theorem subscribed (h : b.Keeps s) (l : Nat) (x : Party σ) :
    (b.enter (.subscribed l x)).Keeps
      ((s.setList l ((s.lists l).subscribe x)).note (.subscribed l x)) where
  holders := h.holders
  started := h.started
  live k := by
    show (Function.update s.lists l _ k).subscribers.filter s.alive =
      (Function.update b.subscriptions l _ k).filter b.alive
    by_cases eq : k = l
    · subst eq
      have same : (s.lists k).subscribers.filter s.alive = (b.subscriptions k).filter b.alive :=
        h.live k
      rw [Function.update_self, Function.update_self, SubscriberList.subscribe, List.filter_append,
        List.filter_append, same, h.alive]
    · rw [Function.update_of_ne eq, Function.update_of_ne eq]
      exact h.live k

/-- Where nobody who is gone comes back, a book keeps up with how many hold somebody. -/
theorem setHolders (h : b.Keeps s) {x : Party σ} {n : Nat} (lived : 0 < n → s.alive x = true) :
    ({ b with holders := Function.update b.holders x n } : Book σ).Keeps (s.setHolders x n) where
  holders := congrArg (Function.update · x n) h.holders
  started := h.started
  live l := by
    have before (y : Party σ) (there : (s.setHolders x n).alive y = true) : s.alive y = true := by
      by_cases eq : y = x
      · subst eq
        have there : 0 < Function.update s.holders y n y := of_decide_eq_true there
        rw [Function.update_self] at there
        exact lived there
      · have there : 0 < Function.update s.holders x n y := of_decide_eq_true there
        rw [Function.update_of_ne eq] at there
        exact decide_eq_true there
    have same : ({ b with holders := Function.update b.holders x n } : Book σ).alive =
        (s.setHolders x n).alive := by
      funext y
      show decide (0 < Function.update b.holders x n y) = _
      rw [h.holders]
      rfl
    calc (s.lists l).subscribers.filter (s.setHolders x n).alive
      _ = ((s.lists l).subscribers.filter s.alive).filter (s.setHolders x n).alive :=
        (filter_filter_of_imp before _).symm
      _ = ((b.subscriptions l).filter s.alive).filter (s.setHolders x n).alive := by
        rw [h.live l, Book.live, h.alive]
      _ = (b.subscriptions l).filter (s.setHolders x n).alive := filter_filter_of_imp before _
      _ = _ := by rw [Book.live, same]

theorem held (h : b.Keeps s) {x : Party σ} (there : s.alive x = true) :
    (b.enter (.held x)).Keeps ((s.setHolders x (s.holders x + 1)).note (.held x)) := by
  have kept := h.setHolders (n := s.holders x + 1) fun _ => there
  have same : b.holders x = s.holders x := congrFun h.holders x
  rw [Book.enter, same]
  exact ⟨kept.holders, kept.started, kept.live⟩

theorem released (h : b.Keeps s) (x : Party σ) :
    (b.enter (.released x)).Keeps ((s.setHolders x (s.holders x - 1)).note (.released x)) := by
  have kept := h.setHolders (x := x) (n := s.holders x - 1)
    fun left => decide_eq_true (Nat.zero_lt_of_lt (Nat.lt_of_sub_pos left))
  have same : b.holders x = s.holders x := congrFun h.holders x
  rw [Book.enter, same]
  exact ⟨kept.holders, kept.started, kept.live⟩

theorem begun (h : b.Keeps s) (l : Nat) (notice : Notice) :
    (b.enter (.dispatched l notice)).Keeps (s.begin l notice) :=
  ⟨h.holders, congrArg (· + 1) h.started, h.live⟩

end Book.Keeps

/-! ### What happens between scenes -/

/-- Some things happened between two scenes. Of dispatches that had been started before, so much was
given out. -/
structure Goes [DecidableEq σ] (s s' : Scene ω κ σ) (entries : List (Entry σ))
    (given : List (Delivery σ)) : Prop where
  record : s'.record = s.record ++ entries
  kept {b : Book σ} (h : b.Keeps s) : (b.after entries).Keeps s'
  lawful {b : Book σ} (h : b.Keeps s) : b.Lawful entries
  replicas (r : Nat) : s'.replicas r = (s.replicas r).run (steps r entries)
  given : (deliveries entries).filter (·.number < s.started) = given

namespace Goes

variable [DecidableEq σ] {s t u : Scene ω κ σ} {first rest : List (Entry σ)}
  {given more : List (Delivery σ)}

theorem started_le (h : Goes s t first given) : s.started ≤ t.started := by
  rw [← (h.kept (.of s)).started]
  exact (Book.of s).started_after first

theorem refl (s : Scene ω κ σ) : Goes s s [] [] where
  record := (List.append_nil _).symm
  kept h := h
  lawful _ := trivial
  replicas _ := rfl
  given := rfl

/-- One thing after the other. What is given out of dispatches in between is not seen from before. -/
theorem trans (h : Goes s t first given) (h' : Goes t u rest more)
    (early : ∀ delivery ∈ more, delivery.number < s.started) :
    Goes s u (first ++ rest) (given ++ more) where
  record := by rw [h'.record, h.record, List.append_assoc]
  kept {b} hb := by
    rw [b.after_append]
    exact h'.kept (h.kept hb)
  lawful {b} hb := by
    -- what is given out later belongs to a dispatch from before or to one that comes later still
    refine (h.lawful hb).append (h'.lawful (h.kept hb)) fun delivery mem => ?_
    rw [hb.started, (h.kept hb).started]
    rcases Nat.lt_or_ge delivery.number t.started with lt | ge
    · exact .inl (early delivery (h'.given ▸ List.mem_filter.mpr ⟨mem, decide_eq_true lt⟩))
    · exact .inr ge
  replicas r := by rw [h'.replicas, h.replicas, Entry.steps_append, Replica.run_append]
  given := by
    have wider (delivery : Delivery σ) (lt : decide (delivery.number < s.started) = true) :
        decide (delivery.number < t.started) = true :=
      decide_eq_true (Nat.lt_of_lt_of_le (of_decide_eq_true lt) h.started_le)
    have all : more.filter (·.number < s.started) = more :=
      List.filter_eq_self.mpr fun delivery mem => decide_eq_true (early delivery mem)
    rw [Entry.deliveries_append, List.filter_append, h.given, ← filter_filter_of_imp wider, h'.given,
      all]

/-- Nothing happened that a book or a replica would take note of. -/
theorem unnoted (record : t.record = s.record) (replicas : t.replicas = s.replicas)
    (kept : ∀ {b : Book σ}, b.Keeps s → b.Keeps t) : Goes s t [] [] where
  record := by rw [record, List.append_nil]
  kept h := kept h
  lawful _ := trivial
  replicas r := congrFun replicas r
  given := rfl

/-- Something happened that no replica is told. -/
theorem entered {entry : Entry σ} (record : t.record = s.record ++ [entry])
    (replicas : t.replicas = s.replicas) (kept : ∀ {b : Book σ}, b.Keeps s → (b.enter entry).Keeps t)
    (fits : ∀ {b : Book σ}, b.Keeps s → b.Fits [] entry) (noDelivery : entry.delivery? = none)
    (noStep : ∀ r, entry.step? r = none) : Goes s t [entry] [] where
  record := record
  kept h := kept h
  lawful h := ⟨fits h, trivial⟩
  replicas r := by
    rw [replicas, steps, List.filterMap_cons_none (noStep r)]
    rfl
  given := by
    rw [deliveries, List.filterMap_cons_none noDelivery]
    rfl

end Goes

/-- A scene where the replicas have taken the steps that something means to them. -/
def Scene.take [DecidableEq σ] (s : Scene ω κ σ) (entry : Entry σ) : Scene ω κ σ :=
  { s.note entry with replicas := fun r => (s.replicas r).run (steps r [entry]) }

theorem Scene.take_eq [DecidableEq σ] (s : Scene ω κ σ) {entry : Entry σ} {r : Nat} {step : Step}
    (h : ∀ q, entry.step? q = if r = q then some step else none) :
    s.take entry = (s.note entry).setReplica r ((s.replicas r).step step) := by
  have same : (fun q => (s.replicas q).run (steps q [entry])) =
      Function.update s.replicas r ((s.replicas r).step step) := by
    funext q
    by_cases eq : r = q
    · subst eq
      rw [Function.update_self, steps, List.filterMap_cons, h, if_pos rfl]
      rfl
    · rw [Function.update_of_ne (Ne.symm eq), steps, List.filterMap_cons, h, if_neg eq]
      rfl
  rw [Scene.take, same]
  rfl

theorem Goes.told [DecidableEq σ] {s : Scene ω κ σ} {delivery : Delivery σ}
    (early : delivery.number < s.started) :
    Goes s (s.take (.told delivery)) [.told delivery] [delivery] where
  record := rfl
  kept h := ⟨h.holders, h.started, h.live⟩
  lawful h := ⟨Nat.lt_of_lt_of_eq early h.started.symm, trivial⟩
  replicas _ := rfl
  given := List.filter_cons_of_pos (decide_eq_true early)

theorem Goes.reloaded [DecidableEq σ] (s : Scene ω κ σ) (r : Nat) (outcome : Except Error Fetched) :
    Goes s (s.take (.reloaded r outcome)) [.reloaded r outcome] [] where
  record := rfl
  kept h := ⟨h.holders, h.started, h.live⟩
  lawful _ := ⟨trivial, trivial⟩
  replicas _ := rfl
  given := rfl

/-! ### Dispatches -/

/-- What is given out by a dispatch of a notice to a list. -/
def Scene.mailing (s : Scene ω κ σ) (l : Nat) (notice : Notice) : List (Delivery σ) :=
  ((s.lists l).prune s.alive).subscribers.map fun x => ⟨s.started, notice, x⟩

theorem Scene.number_of_mem_mailing {s : Scene ω κ σ} {l : Nat} {notice : Notice}
    {delivery : Delivery σ} (mem : delivery ∈ s.mailing l notice) : delivery.number = s.started := by
  obtain ⟨x, -, rfl⟩ := List.mem_map.mp mem
  rfl

theorem Book.Keeps.mailing {b : Book σ} {s : Scene ω κ σ} (h : b.Keeps s) (l : Nat) (notice : Notice) :
    s.mailing l notice = b.mailing l notice := by
  rw [Scene.mailing, SubscriberList.prune, h.live, Book.mailing, h.started]

/-- **What is given out after the start of a dispatch is what the book says**, if no more is given out of
it than is to be given out. -/
theorem Goes.dispatched [DecidableEq σ] {s t : Scene ω κ σ} {l : Nat} {notice : Notice}
    {rest : List (Entry σ)} (h : Goes (s.begin l notice) t rest (s.mailing l notice)) :
    Goes s t (.dispatched l notice :: rest) [] := by
  have seen (p : Nat → Bool) (within : ∀ n, p n = true → n < s.started + 1) :
      (deliveries rest).filter (p ·.number) = (s.mailing l notice).filter (p ·.number) := by
    rw [← h.given]
    exact (filter_filter_of_imp (fun _ passes => decide_eq_true (within _ passes)) _).symm
  refine ⟨?_, fun hb => ?_, fun {b} hb => ⟨?_, ?_⟩, fun r => h.replicas r, ?_⟩
  · rw [h.record]
    exact (List.append_cons _ _ _).symm
  · exact h.kept (hb.begun l notice)
  · show (deliveries rest).filter (·.number = b.started) = b.mailing l notice
    rw [hb.started, ← hb.mailing,
      seen (· = s.started) fun _ eq => Nat.lt_succ_of_le (Nat.le_of_eq (of_decide_eq_true eq))]
    exact List.filter_eq_self.mpr fun _ mem => decide_eq_true (Scene.number_of_mem_mailing mem)
  · exact h.lawful (hb.begun l notice)
  · show (deliveries rest).filter (·.number < s.started) = []
    rw [seen (· < s.started) fun _ lt => Nat.lt_succ_of_lt (of_decide_eq_true lt)]
    exact List.filter_eq_nil_iff.mpr fun _ mem lt =>
      Nat.ne_of_lt (of_decide_eq_true lt) (Scene.number_of_mem_mailing mem)

/-! ### What is done -/

/-- Whatever the scene, an action goes by the book. Of dispatches that had been started before, so much
is given out. -/
def Serves [DecidableEq σ] (given : List (Delivery σ)) (x : Play ω κ σ α) : Prop :=
  ∀ s, (∀ delivery ∈ given, delivery.number < s.started) →
    ∃ entries, Goes s (x.run s).2 entries given

namespace Serves

variable [DecidableEq σ] {given more : List (Delivery σ)}

theorem pure (a : α) : Serves [] (Pure.pure a : Play ω κ σ α) :=
  fun s _ => ⟨[], .refl s⟩

theorem bind {x : Play ω κ σ α} {f : α → Play ω κ σ β} (hx : Serves given x)
    (hf : ∀ a, Serves more (f a)) : Serves (given ++ more) (x >>= f) := by
  intro s early
  obtain ⟨first, went⟩ := hx s fun _ mem => early _ (List.mem_append_left _ mem)
  have early' : ∀ delivery ∈ more, delivery.number < s.started :=
    fun _ mem => early _ (List.mem_append_right _ mem)
  obtain ⟨rest, went'⟩ := hf (x.run s).1 (x.run s).2
    fun delivery mem => Nat.lt_of_lt_of_le (early' delivery mem) went.started_le
  exact ⟨first ++ rest, went.trans went' early'⟩

/-- What an action does may hang on the scene that it finds. -/
theorem get_bind {f : Scene ω κ σ → Play ω κ σ β}
    (hf : ∀ s, (∀ delivery ∈ given, delivery.number < s.started) →
      ∃ entries, Goes s ((f s).run s).2 entries given) : Serves given (get >>= f) :=
  hf

theorem read (f : Scene ω κ σ → α) : Serves [] (return f (← get) : Play ω κ σ α) :=
  fun s _ => ⟨[], .refl s⟩

theorem forM {as : List α} {f : α → Play ω κ σ Unit} {given : α → List (Delivery σ)}
    (hf : ∀ a, Serves (given a) (f a)) : Serves (as.flatMap given) (as.forM f) := by
  induction as with
  | nil => exact .pure ()
  | cons a as ih => exact (hf a).bind fun _ => ih

theorem subscribe (l : Nat) (x : Party σ) : Serves (ω := ω) (κ := κ) [] (Mailing.subscribe l x) :=
  fun _ _ => ⟨_, .entered rfl rfl (·.subscribed l x) (fun _ => trivial) rfl fun _ => rfl⟩

theorem hold (x : Party σ) : Serves (ω := ω) (κ := κ) [] (Mailing.hold x) := by
  refine .get_bind fun s _ => ?_
  split
  next there =>
    refine ⟨_, .entered rfl rfl (·.held there) (fun {b} h => ?_) rfl fun _ => rfl⟩
    show b.alive x = true
    rw [h.alive, there]
  next gone => exact ⟨[], .refl s⟩

theorem release (x : Party σ) : Serves (ω := ω) (κ := κ) [] (Mailing.release x) :=
  fun _ _ => ⟨_, .entered rfl rfl (·.released x) (fun _ => trivial) rfl fun _ => rfl⟩

/-! ### Lists -/

/-- What a list finds when it is used: those who are alive. The others are taken off it. -/
theorem live_run (l : Nat) (s : Scene ω κ σ) :
    (listSetting l).live.run s =
      (((s.lists l).prune s.alive).subscribers, s.setList l ((s.lists l).prune s.alive)) := by
  simp only [SubscriberList.Setting.live, Surroundings.run_bind]
  split <;> rfl

/-- **A count goes by the book.** -/
theorem count (l : Nat) : Serves (ω := ω) (κ := κ) [] (Mailing.count (σ := σ) l) := by
  intro s _
  simp only [Mailing.count, SubscriberList.Setting.size, Surroundings.run_bind, live_run]
  exact ⟨_, .entered rfl rfl (fun h => (h.pruned l).noted _) (fun h => congrArg List.length (h.live l))
    rfl fun _ => rfl⟩

/-- Those who are held while something is delivered to them are given it one after the other. -/
theorem deliver (l : Nat) (recipients : List (Party σ)) {f : Party σ → Play ω κ σ Unit}
    {given : Party σ → Delivery σ} (hf : ∀ x, Serves [given x] (f x)) :
    Serves (recipients.map given) (do
      (listSetting l).hold recipients
      recipients.forM fun x => do
        f x
        (listSetting l).release x) := by
  have hold : Serves (recipients.flatMap fun _ => [])
      ((listSetting l).hold recipients : Play ω κ σ Unit) :=
    .forM fun x => (Serves.hold x).bind fun _ => .pure ()
  have tell : Serves (recipients.flatMap fun x => [given x]) (recipients.forM fun x => do
      f x
      (listSetting l).release x) :=
    .forM fun x => (hf x).bind fun _ => .release x
  rw [List.flatMap_eq_nil_iff.mpr fun _ _ => rfl] at hold
  rw [List.map_eq_flatMap]
  exact hold.bind fun _ => tell

/-- **A dispatch goes by the book**, whatever those do who are told something. -/
theorem dispatch {company : Company ω κ} {told : σ → Play ω κ σ Unit}
    {called : κ → Play ω κ σ Unit} (l : Nat) (notice : Notice)
    (ht : ∀ delivery, Serves [delivery] (company.tell told called delivery)) :
    Serves [] (company.dispatch l notice told called) := by
  refine .get_bind fun s _ => ?_
  let pruned := (s.begin l notice).setList l ((s.lists l).prune s.alive)
  have went : Goes (s.begin l notice) pruned [] [] := .unnoted rfl rfl (·.pruned l)
  have early : ∀ delivery ∈ s.mailing l notice, delivery.number < s.started + 1 :=
    fun _ mem => Nat.lt_succ_of_le (Nat.le_of_eq (Scene.number_of_mem_mailing mem))
  have delivers : Serves (s.mailing l notice) _ := .deliver l _ fun x => ht _
  obtain ⟨entries, went'⟩ := delivers pruned early
  show ∃ entries, Goes s (((listSetting l).dispatch _).run (s.begin l notice)).2 entries []
  rw [SubscriberList.Setting.dispatch, Surroundings.run_bind, live_run]
  exact ⟨_, (went.trans went' early).dispatched⟩

/-! ### Replicas -/

variable {called : κ → Play ω κ σ Unit}

theorem notify (company : Company ω κ) (r : Nat) (hc : ∀ k, Serves [] (called k)) :
    Serves [] (company.surroundings r called).notify := by
  refine .get_bind fun s early => ?_
  have call (k : κ) : Serves [] ((company.surroundings r called).call k) :=
    (hc k).bind fun _ => .read fun t => company.ending k t.outside
  exact callAll_induction (m := Play ω κ σ) (P := Serves []) call (fun _ => .pure ()) .pure .bind
    (s.replicas r).listeners.round s early

end Serves

namespace Company

variable (company : Company ω κ) (called : κ → Play ω κ σ Unit) (r : Nat) (s : Scene ω κ σ)

theorem get_run : (company.surroundings r called).get.run s = (s.replicas r, s) := rfl

theorem framework_run : (company.surroundings r called).framework.run s =
    ((company.framework.run s.outside).1,
      { s with outside := (company.framework.run s.outside).2 }) := rfl

theorem bundles_run : (company.surroundings r called).bundles.run s =
    ((company.bundles.run s.outside).1,
      { s with outside := (company.bundles.run s.outside).2 }) := rfl

theorem configurations_run (filter : Option String) :
    ((company.surroundings r called).configurations filter).run s =
      (((company.configurations filter).run s.outside).1,
        { s with outside := ((company.configurations filter).run s.outside).2 }) := rfl

/-- What the server answers does not hang on the record. -/
theorem fetch_run : ∃ outcome outside, ∀ record,
    (company.surroundings r called).fetch.run { s with record } =
      (outcome, { s with outside, record }) := by
  simp only [Surroundings.fetch, ExceptT.run_bind, ExceptT.run_mk, ExceptT.run_liftM, bind_map_left,
    Surroundings.run_bind, framework_run]
  generalize company.framework.run s.outside = answer
  obtain ⟨e | framework, outside⟩ := answer
  · exact ⟨.error e, outside, fun _ => rfl⟩
  simp only [Surroundings.run_bind, bundles_run]
  generalize company.bundles.run outside = answer
  obtain ⟨e | bundles, outside⟩ := answer
  · exact ⟨.error e, outside, fun _ => rfl⟩
  simp only [Surroundings.run_bind, get_run, configurations_run]
  generalize (company.configurations _).run outside = answer
  obtain ⟨e | configurations, outside⟩ := answer
  · exact ⟨.error e, outside, fun _ => rfl⟩
  · exact ⟨.ok ⟨framework, bundles, configurations⟩, outside, fun _ => rfl⟩

theorem warnings_run (ids : List UInt64) :
    (ids.forM fun id => (company.surroundings r called).log (.duplicateBundle id)).run s =
      ((), s) := by
  induction ids with
  | nil => rfl
  | cons id ids ih => exact ih

variable {called} [DecidableEq σ] (hc : ∀ k, Serves [] (called k))

include hc

/-- A notice that is applied is a step, with a round of calls after it if it counts. -/
theorem apply_run (event : Event) :
    ∃ rest : Play ω κ σ Bool, Serves [] rest ∧
      ((company.surroundings r called).apply event).run s =
        rest.run (s.setReplica r ((s.replicas r).step (.notice event))) := by
  rw [Surroundings.apply, Surroundings.run_bind, get_run]
  cases outcome : (s.replicas r).commit? event with
  | none =>
    have same : s.setReplica r ((s.replicas r).step (.notice event)) = s := by
      rw [Replica.step, outcome, Option.getD_none, Scene.setReplica, Function.update_eq_self]
    rw [same]
    exact ⟨pure false, .pure false, rfl⟩
  | some changed =>
    rw [Replica.step, outcome]
    exact ⟨_, (Serves.notify company r hc).bind fun _ => .pure true, rfl⟩

/-- So is a notice that is received. -/
theorem receive_run (server : ServerIdentity) (event : Event) :
    ∃ rest : Play ω κ σ Unit, Serves [] rest ∧
      ((company.surroundings r called).receive server event).run s =
        rest.run (s.setReplica r ((s.replicas r).step (.notice event))) := by
  obtain ⟨rest, serves, eq⟩ := company.apply_run r s hc event
  refine ⟨_, serves.bind fun _ => .pure (), ?_⟩
  -- whether it is logged or not, as the log is left out
  rw [Surroundings.receive, Surroundings.run_bind, Surroundings.run_bind, ← eq]
  split <;> rfl

/-- **Whoever is told something takes it as it is told**, before anybody does anything for it. -/
theorem tell_serves {told : σ → Play ω κ σ Unit} (ht : ∀ x, Serves [] (told x))
    (delivery : Delivery σ) : Serves [delivery] (company.tell told called delivery) := by
  obtain ⟨number, notice, recipient⟩ := delivery
  intro s early
  have taken := Goes.told (early _ List.mem_cons_self)
  cases recipient with
  | replica r =>
    let entry : Entry σ := .told ⟨number, notice, .replica r⟩
    have step : s.take entry =
        (s.note entry).setReplica r ((s.replicas r).step (.notice notice.event)) :=
      s.take_eq fun q => by simp only [entry, Entry.step?, Party.replica.injEq]
    obtain ⟨rest, serves, eq⟩ :=
      company.receive_run r (s.note entry) hc notice.server notice.event
    obtain ⟨entries, went⟩ := serves (s.take entry) nofun
    have run : ((company.tell told called ⟨number, notice, .replica r⟩).run s).2 =
        (rest.run (s.take entry)).2 := by
      rw [step]
      exact congrArg Prod.snd eq
    rw [← run] at went
    exact ⟨_, taken.trans went nofun⟩
  | other x =>
    obtain ⟨entries, went⟩ := ht x (s.take (.told ⟨number, notice, .other x⟩)) nofun
    exact ⟨_, taken.trans went nofun⟩

/-- A load is a step, with a round of calls after it if it succeeds. -/
theorem reload_run {outcome : Except Error Fetched} {outside : ω}
    (fetched : (company.surroundings r called).fetch.run s = (outcome, { s with outside })) :
    ∃ rest : Play ω κ σ (Except Error Unit), Serves [] rest ∧
      (company.surroundings r called).reload.run s =
        rest.run (({ s with outside }).setReplica r ((s.replicas r).step (.reload outcome))) := by
  rw [Surroundings.reload, Surroundings.run_bind, fetched]
  cases outcome with
  | error e =>
    refine ⟨pure (.error e), .pure _, ?_⟩
    rw [Replica.step, Scene.setReplica, Function.update_eq_self]
    rfl
  | ok fetch =>
    refine ⟨_, (Serves.notify company r hc).bind fun _ => .pure (.ok ()), ?_⟩
    simp only [Surroundings.run_bind, warnings_run]
    rfl

theorem reload_serves : Serves [] (company.reload r called) := by
  intro s _
  obtain ⟨outcome, outside, fetched⟩ := company.fetch_run called r s
  let entry : Entry σ := .reloaded r outcome
  have step : s.take entry = (s.note entry).setReplica r ((s.replicas r).step (.reload outcome)) :=
    s.take_eq fun _ => rfl
  have taken : Goes s { s.take entry with outside } ([entry] ++ []) ([] ++ []) :=
    (Goes.reloaded s r outcome).trans
      (.unnoted rfl rfl fun h => ⟨h.holders, h.started, h.live⟩) nofun
  obtain ⟨rest, serves, eq⟩ := company.reload_run r (s.note entry) hc (fetched _)
  obtain ⟨entries, went⟩ := serves { s.take entry with outside } nofun
  have run : ((company.reload r called).run s).2 = (rest.run { s.take entry with outside }).2 := by
    have noted : ((company.reload r called).run s).2 =
        ((company.surroundings r called).reload.run
          (s.note (.reloaded r ((company.surroundings r called).fetch.run s).1))).2 := rfl
    have asked : ((company.surroundings r called).fetch.run s).1 = outcome :=
      congrArg Prod.fst (fetched s.record)
    rw [noted, asked, eq, step]
    rfl
  rw [← run] at went
  exact ⟨_, taken.trans went nofun⟩

end Company

end StateReplica.Mailing
