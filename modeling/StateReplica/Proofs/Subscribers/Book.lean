import Mathlib.Data.List.Perm.Basic
import StateReplica.Proofs.Subscribers.Basic

/-!
The book of a mailing. A book keeps all subscriptions that were ever entered and how many hold whom. It
takes nobody off a list: a subscriber who is gone is passed over, and that is all. So what there is to
be seen of its lists is a matter of what happened to the subscribers and of nothing else.

A record is lawful by a book if all that can be seen of lists in it is what the book says
(`Book.Lawful`). From that it is shown once and for all what it means to those who are on the lists:
every dispatch reaches those who were alive when it started and nobody else
(`Book.Lawful.deliveries_of`, `Book.Lawful.exists_dispatch`), and so everybody is given what is due to
them (`Book.Lawful.due_perm`).
-/

namespace StateReplica.Mailing

open Mailing.Entry (deliveries steps)
open Replica (Step)

variable {σ : Type}

/-! ### What is given -/

section

variable [DecidableEq σ]

/-- The notices that somebody is given with some deliveries. -/
def noticesTo (x : Party σ) (given : List (Delivery σ)) : List Notice :=
  (given.filter (·.recipient = x)).map (·.notice)

theorem noticesTo_cons (x : Party σ) (delivery : Delivery σ) (given : List (Delivery σ)) :
    noticesTo x (delivery :: given) =
      (if delivery.recipient = x then [delivery.notice] else []) ++ noticesTo x given := by
  by_cases there : delivery.recipient = x <;> simp [noticesTo, there]

/-- What a step tells a replica. -/
def event? : Step → Option Event
  | .notice event => some event
  | .reload _ => none

/-- What replicas are told is what they are given. -/
theorem events_steps (r : Nat) (entries : List (Entry σ)) :
    (steps r entries).filterMap event? =
      (noticesTo (.replica r) (deliveries entries)).map (·.event) := by
  induction entries with
  | nil => rfl
  | cons entry entries ih =>
    cases entry with
    | told delivery =>
      show _ = (noticesTo (.replica r) (delivery :: deliveries entries)).map (·.event)
      by_cases there : delivery.recipient = .replica r
      · have heard : (Entry.told delivery).step? r = some (.notice delivery.notice.event) :=
          if_pos there
        rw [steps, List.filterMap_cons_some heard, noticesTo_cons, if_pos there]
        exact congrArg (delivery.notice.event :: ·) ih
      · have unheard : (Entry.told delivery).step? r = none := if_neg there
        rw [steps, List.filterMap_cons_none unheard, noticesTo_cons, if_neg there]
        exact ih
    | reloaded q outcome =>
      by_cases there : q = r
      · have loaded : (Entry.reloaded q outcome : Entry σ).step? r = some (.reload outcome) :=
          if_pos there
        rw [steps, List.filterMap_cons_some loaded]
        exact ih
      · have other : (Entry.reloaded q outcome : Entry σ).step? r = none := if_neg there
        rw [steps, List.filterMap_cons_none other]
        exact ih
    | _ => exact ih

end

/-! ### Books -/

/-- Lists that are never pruned, and how many hold whom. -/
structure Book (σ : Type) where
  subscriptions : Nat → List (Party σ)
  holders : Party σ → Nat
  /-- the number of dispatches that were started, which is the number of the next one -/
  started : Nat

namespace Book

variable (b : Book σ)

/-- Somebody is alive as long as they are held. -/
def alive (x : Party σ) : Bool := 0 < b.holders x

/-- The subscriptions of those who are alive. -/
def live (l : Nat) : List (Party σ) := (b.subscriptions l).filter b.alive

/-- What is given out by a dispatch of a notice to a list. -/
def mailing (l : Nat) (notice : Notice) : List (Delivery σ) :=
  (b.live l).map fun x => ⟨b.started, notice, x⟩

variable [DecidableEq σ]

/-- Enters what happened. -/
def enter : Entry σ → Book σ
  | .subscribed l x =>
    { b with subscriptions := Function.update b.subscriptions l (b.subscriptions l ++ [x]) }
  | .held x => { b with holders := Function.update b.holders x (b.holders x + 1) }
  | .released x => { b with holders := Function.update b.holders x (b.holders x - 1) }
  | .dispatched _ _ => { b with started := b.started + 1 }
  | .counted _ _ | .told _ | .reloaded _ _ => b

/-- The book after some things happened. -/
def after (entries : List (Entry σ)) : Book σ := entries.foldl (·.enter ·) b

theorem after_append (first rest : List (Entry σ)) :
    b.after (first ++ rest) = (b.after first).after rest :=
  List.foldl_append

theorem started_enter (entry : Entry σ) : b.started ≤ (b.enter entry).started := by
  cases entry with
  | dispatched => exact Nat.le_succ _
  | _ => exact Nat.le_refl _

theorem started_after (entries : List (Entry σ)) : b.started ≤ (b.after entries).started := by
  induction entries generalizing b with
  | nil => exact Nat.le_refl _
  | cons entry rest ih => exact Nat.le_trans (b.started_enter entry) (ih (b.enter entry))

/-! ### Lawful records -/

/-- What a book says of something that happened, given what happened after it. -/
def Fits (rest : List (Entry σ)) : Entry σ → Prop
  | .counted l n => n = (b.live l).length
  | .dispatched l notice =>
    (deliveries rest).filter (·.number = b.started) = b.mailing l notice
  | .told delivery => delivery.number < b.started
  -- nobody who is gone comes back
  | .held x => b.alive x = true
  | .subscribed _ _ | .released _ | .reloaded _ _ => True

/-- Everything in a record is what the book says when it happens. -/
def Lawful : Book σ → List (Entry σ) → Prop
  | _, [] => True
  | b, entry :: rest => b.Fits rest entry ∧ (b.enter entry).Lawful rest

namespace Lawful

variable {b} {first rest : List (Entry σ)} {entry : Entry σ}

theorem fits (h : b.Lawful (first ++ entry :: rest)) : (b.after first).Fits rest entry := by
  induction first generalizing b with
  | nil => exact h.1
  | cons other first ih => exact ih h.2

/-- Whoever is told something is told it in a dispatch that was started. -/
theorem number_lt (h : b.Lawful (first ++ rest)) {delivery : Delivery σ}
    (mem : delivery ∈ deliveries first) : delivery.number < (b.after first).started := by
  induction first generalizing b with
  | nil => cases mem
  | cons other first ih =>
    cases other with
    | told given =>
      rcases List.mem_cons.mp mem with rfl | mem
      · exact Nat.lt_of_lt_of_le h.1 (b.started_after first)
      · exact ih h.2 mem
    | _ => exact ih h.2 mem

/-- Where nothing is told of the dispatches that one record starts, another record may follow it. -/
theorem append (h : b.Lawful first) (h' : (b.after first).Lawful rest)
    (apart : ∀ delivery ∈ deliveries rest,
      delivery.number < b.started ∨ (b.after first).started ≤ delivery.number) :
    b.Lawful (first ++ rest) := by
  induction first generalizing b with
  | nil => exact h'
  | cons entry first ih =>
    have later : ∀ delivery ∈ deliveries rest, delivery.number < (b.enter entry).started ∨
        ((b.enter entry).after first).started ≤ delivery.number := fun delivery mem =>
      (apart delivery mem).imp_left fun h => Nat.lt_of_lt_of_le h (b.started_enter entry)
    refine ⟨?_, ih h.2 h' later⟩
    cases entry with
    | dispatched l notice =>
      have none : (deliveries rest).filter (·.number = b.started) = [] := by
        refine List.filter_eq_nil_iff.mpr fun delivery mem eq => ?_
        have eq : delivery.number = b.started := of_decide_eq_true eq
        rcases apart delivery mem with lt | ge
        · exact Nat.lt_irrefl _ (eq ▸ lt)
        · have grown : b.started + 1 ≤ delivery.number :=
            Nat.le_trans (Book.started_after (b.enter (.dispatched l notice)) first) ge
          exact Nat.lt_irrefl _ (eq ▸ grown)
      show (deliveries (first ++ rest)).filter _ = _
      rw [Entry.deliveries_append, List.filter_append, none, List.append_nil]
      exact h.1
    | _ => exact h.1

/-! ### What it means to those on the lists -/

/-- **A dispatch reaches the subscriptions of those who are alive when it starts**, one after the other
in the order of subscription. -/
theorem deliveries_of {l : Nat} {notice : Notice}
    (h : b.Lawful (first ++ .dispatched l notice :: rest)) :
    (deliveries (first ++ .dispatched l notice :: rest)).filter
      (·.number = (b.after first).started) = (b.after first).mailing l notice := by
  have none : (deliveries first).filter (·.number = (b.after first).started) = [] :=
    List.filter_eq_nil_iff.mpr fun delivery mem eq =>
      Nat.ne_of_lt (h.number_lt mem) (of_decide_eq_true eq)
  rw [Entry.deliveries_append, List.filter_append, none, List.nil_append]
  exact h.fits

/-- **Nobody is told anything but in a dispatch to a list they are on.** -/
theorem exists_dispatch {record : List (Entry σ)} (h : b.Lawful record) {delivery : Delivery σ}
    (mem : delivery ∈ deliveries record) (new : b.started ≤ delivery.number) :
    ∃ first l rest, record = first ++ .dispatched l delivery.notice :: rest ∧
      delivery ∈ (b.after first).mailing l delivery.notice := by
  induction record generalizing b with
  | nil => cases mem
  | cons entry record ih =>
    have later (mem : delivery ∈ deliveries record) (new : (b.enter entry).started ≤ delivery.number) :
        ∃ first l rest, entry :: record = first ++ .dispatched l delivery.notice :: rest ∧
          delivery ∈ (b.after first).mailing l delivery.notice := by
      obtain ⟨first, l, rest, rfl, there⟩ := ih h.2 mem new
      exact ⟨entry :: first, l, rest, rfl, there⟩
    cases entry with
    | dispatched l notice =>
      rcases Nat.eq_or_lt_of_le new with eq | lt
      · have there : delivery ∈ b.mailing l notice :=
          h.1 ▸ List.mem_filter.mpr ⟨mem, decide_eq_true eq.symm⟩
        obtain ⟨x, -, rfl⟩ := List.mem_map.mp there
        exact ⟨[], l, record, rfl, there⟩
      · exact later mem lt
    | told given =>
      rcases List.mem_cons.mp mem with rfl | mem
      · exact absurd h.1 (Nat.not_lt.mpr new)
      · exact later mem new
    | _ => exact later mem new

end Lawful

/-! ### What is due -/

/-- What is due to somebody when something happens: a notice that is dispatched, once for each of their
subscriptions as long as they are alive. -/
def owed (x : Party σ) : Entry σ → List Notice
  | .dispatched l notice =>
    if b.alive x then List.replicate ((b.subscriptions l).count x) notice else []
  | _ => []

/-- All that is due to somebody. -/
def due (x : Party σ) : Book σ → List (Entry σ) → List Notice
  | _, [] => []
  | b, entry :: rest => b.owed x entry ++ (b.enter entry).due x rest

theorem noticesTo_mailing (x : Party σ) (l : Nat) (notice : Notice) :
    noticesTo x (b.mailing l notice) = b.owed x (.dispatched l notice) := by
  rw [noticesTo, mailing, List.filter_map, List.map_map, owed]
  show ((b.live l).filter fun y => y = x).map (fun _ => notice) = _
  rw [List.filter_eq, List.map_replicate, live]
  split
  next there => rw [List.count_filter there]
  next gone =>
    have none : x ∉ (b.subscriptions l).filter b.alive := fun mem => gone (List.mem_filter.mp mem).2
    rw [List.count_eq_zero.mpr none]
    rfl

/-- What is given with the dispatches up to one is what is given with it and what is given with those
before it. -/
theorem noticesTo_succ (x : Party σ) (n : Nat) (given : List (Delivery σ)) :
    (noticesTo x (given.filter (·.number < n + 1))).Perm
      (noticesTo x (given.filter (·.number = n)) ++ noticesTo x (given.filter (·.number < n))) := by
  have split := List.filter_append_perm (fun delivery : Delivery σ => decide (delivery.number = n))
    (given.filter (·.number < n + 1))
  rw [List.filter_filter, List.filter_filter] at split
  have this (delivery : Delivery σ) :
      (decide (delivery.number = n) && decide (delivery.number < n + 1)) =
        decide (delivery.number = n) := by
    grind
  have before (delivery : Delivery σ) :
      (!decide (delivery.number = n) && decide (delivery.number < n + 1)) =
        decide (delivery.number < n) := by
    grind
  simp only [this, before] at split
  have parts := ((split.symm.filter (·.recipient = x)).map (·.notice))
  rwa [List.filter_append, List.map_append] at parts

/-- Everybody is given what is due to them, besides what they are given with dispatches that were
started before. -/
theorem Lawful.noticesTo_perm {b : Book σ} {record : List (Entry σ)} (h : b.Lawful record)
    (x : Party σ) :
    (noticesTo x (deliveries record)).Perm
      (b.due x record ++ noticesTo x ((deliveries record).filter (·.number < b.started))) := by
  induction record generalizing b with
  | nil => exact .refl _
  | cons entry record ih =>
    cases entry with
    | dispatched l notice =>
      have here : noticesTo x ((deliveries record).filter (·.number = b.started)) =
          b.owed x (.dispatched l notice) := by
        rw [← noticesTo_mailing, ← h.1]
      calc noticesTo x (deliveries record)
        _ |>.Perm _ := ih h.2
        _ |>.Perm _ := (noticesTo_succ x b.started (deliveries record)).append_left _
        _ |>.Perm _ := by
          rw [here, ← List.append_assoc, due]
          exact List.perm_append_comm.append_right _
    | told given =>
      have early : (given :: deliveries record).filter (·.number < b.started) =
          given :: (deliveries record).filter (·.number < b.started) :=
        List.filter_cons_of_pos (decide_eq_true h.1)
      show (noticesTo x (given :: deliveries record)).Perm
        (b.due x record ++ noticesTo x ((given :: deliveries record).filter (·.number < b.started)))
      rw [early, noticesTo_cons x given (deliveries record), noticesTo_cons x given (List.filter _ _)]
      exact ((ih h.2).append_left _).trans (List.perm_append_comm_assoc _ _ _)
    | _ => exact ih h.2

/-- **Everybody is given what is due to them**, if a book was kept from the beginning. As dispatches lie
inside each other, they need not be given it in the order of the dispatches. -/
theorem Lawful.due_perm {b : Book σ} {record : List (Entry σ)} (h : b.Lawful record)
    (new : b.started = 0) (x : Party σ) :
    (noticesTo x (deliveries record)).Perm (b.due x record) := by
  have perm := h.noticesTo_perm x
  have none : (deliveries record).filter (·.number < b.started) = [] :=
    List.filter_eq_nil_iff.mpr fun delivery _ => by simp [new]
  rw [none] at perm
  exact perm.trans (.of_eq (List.append_nil _))

end Book

end StateReplica.Mailing
