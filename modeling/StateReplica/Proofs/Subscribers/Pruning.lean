import StateReplica.Proofs.Subscribers.Serving

/-!
That lists of subscribers are pruned is not seen (`pruning_unseen`). Whatever somebody does with lists and
subscribers, and whatever those do meanwhile who are told something, all counts and dispatches are what
they would be for lists that keep everybody and pass over those who are gone. A replica takes a step for
every notice that it is told, so that it keeps up with all that is due to it until it is dropped.

What is done comes to an end, so that nothing is said of a list that subscribes to itself. Nor is it shown
here that a list is used by one thread at a time.
-/

namespace StateReplica.Mailing

open Mailing.Entry (deliveries steps)

variable {ω κ σ : Type} [DecidableEq σ]

/-- Whatever somebody does, and whatever those do meanwhile who are told something, goes by the book. -/
theorem Conduct.play_serves (company : Company ω κ) (conduct : Conduct ω κ σ) :
    Serves [] (conduct.play company) := by
  induction conduct with
  | finish => exact .pure ()
  | subscribe l x next ih => exact (Serves.subscribe l x).bind fun _ => ih
  | hold x next ih => exact (Serves.hold x).bind ih
  | release x next ih => exact (Serves.release x).bind fun _ => ih
  | count l next ih => exact (Serves.count l).bind ih
  | dispatch l notice told called next told_serves called_serves ih =>
    have dispatched := Serves.dispatch l notice (company.tell_serves called_serves told_serves)
    exact dispatched.bind fun _ => ih
  | reload r called next called_serves ih =>
    exact (company.reload_serves r called_serves).bind fun _ => ih
  | mind change next ih =>
    refine .get_bind fun s _ => ?_
    obtain ⟨entries, went⟩ := ih s.outside { s with outside := change s.outside } nofun
    have minded : Goes s { s with outside := change s.outside } [] [] :=
      .unnoted rfl rfl fun h => ⟨h.holders, h.started, h.live⟩
    exact ⟨entries, minded.trans went nofun⟩

/-- **Pruning is not seen.** Lists and subscribers may be as they like in the beginning, and a book is kept
that never takes anybody off a list. Then

- a count is the number of subscriptions in the book of those who are alive;
- a dispatch is delivered once for each of them, in the order of subscription;
- nothing else is delivered;
- so everybody is given what is due to them by the book;
- replicas take the steps that are on record, and the notices among them are those due to them;
- what will be found on a list by the next use is what the book says. -/
theorem pruning_unseen (company : Company ω κ) (conduct : Conduct ω κ σ)
    (lists : Nat → SubscriberList (Party σ)) (holders : Party σ → Nat) (replicas : Nat → Replica κ)
    (outside : ω) :
    let start := Scene.fresh lists holders replicas outside
    let final := company.sceneAfter conduct start
    let book := Book.of start
    (∀ first l n rest, final.record = first ++ .counted l n :: rest →
      n = ((book.after first).live l).length) ∧
    (∀ first l notice rest, final.record = first ++ .dispatched l notice :: rest →
      (deliveries final.record).filter (·.number = (book.after first).started) =
        (book.after first).mailing l notice) ∧
    (∀ delivery ∈ deliveries final.record, ∃ first l rest,
      final.record = first ++ .dispatched l delivery.notice :: rest ∧
        delivery ∈ (book.after first).mailing l delivery.notice) ∧
    (∀ x, (noticesTo x (deliveries final.record)).Perm (book.due x final.record)) ∧
    (∀ r, final.replicas r = (replicas r).run (steps r final.record) ∧
      ((steps r final.record).filterMap event?).Perm
        ((book.due (.replica r) final.record).map (·.event))) ∧
    (book.after final.record).holders = final.holders ∧
    ∀ l, ((final.lists l).prune final.alive).subscribers = (book.after final.record).live l := by
  intro start final book
  obtain ⟨entries, went⟩ := conduct.play_serves company start nofun
  have record : final.record = entries := went.record
  have lawful : book.Lawful final.record := record ▸ went.lawful (.of start)
  have kept : (book.after final.record).Keeps final := record ▸ went.kept (.of start)
  have due (x : Party σ) := lawful.due_perm rfl x
  refine ⟨fun first l n rest eq => ?_, fun first l notice rest eq => ?_, fun delivery mem => ?_, due,
    fun r => ⟨?_, ?_⟩, kept.holders, kept.live⟩
  · rw [eq] at lawful
    exact lawful.fits
  · rw [eq] at lawful ⊢
    exact lawful.deliveries_of
  · exact lawful.exists_dispatch mem (Nat.zero_le _)
  · rw [record]
    exact went.replicas r
  · rw [events_steps]
    exact (due _).map _

/-- Somebody who is told of a change drops a replica that has not been told yet. The replica is told all
the same, but not of the next change, and it is not on the list any more. -/
theorem pruning_unseen_dropped :
    let company : Company Unit Unit :=
      ⟨return .ok (.new "1.0" 1), return .ok [], fun _ => return .ok [], fun _ _ => .done⟩
    let change (level : UInt32) : Notice := ⟨⟨"localhost", 9000⟩, .framework ⟨.new "1.0" level⟩⟩
    let conduct : Conduct Unit Unit Bool :=
      .subscribe 0 (.other true) <| .subscribe 0 (.replica 0) <| .subscribe 0 (.other false) <|
        .subscribe 0 (.other false) <| .reload 0 (fun _ => .finish) <|
        .dispatch 0 (change 2)
          (fun x => if x then .release (.replica 0) .finish else .finish) (fun _ => .finish) <|
        .dispatch 0 (change 3) (fun _ => .finish) (fun _ => .finish) .finish
    let start := Scene.fresh (fun _ => .empty) (fun _ => 1) (fun _ => .new default) ()
    let final := company.sceneAfter conduct start
    deliveries final.record =
      [⟨0, change 2, .other true⟩, ⟨0, change 2, .replica 0⟩, ⟨0, change 2, .other false⟩,
        ⟨0, change 2, .other false⟩, ⟨1, change 3, .other true⟩, ⟨1, change 3, .other false⟩,
        ⟨1, change 3, .other false⟩] ∧
    (final.lists 0).subscribers = [.other true, .other false, .other false] ∧
    (final.replicas 0).generation = 2 ∧
    (noticesTo (.replica 0) (deliveries final.record)).Perm
      ((Book.of start).due (.replica 0) final.record) := by
  intro company change conduct start final
  obtain ⟨-, -, -, due, -⟩ :=
    pruning_unseen company conduct (fun _ => .empty) (fun _ => 1) (fun _ => .new default) ()
  exact ⟨by decide +kernel, by decide +kernel, by decide +kernel, due (.replica 0)⟩

end StateReplica.Mailing
