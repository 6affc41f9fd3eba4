import StateReplica.Log

/-!
Lists of subscribers. A list does not keep its subscribers alive. Whenever it is used, those that are
gone are taken off it, so what a use finds is the same as if they had never been there.
-/

namespace StateReplica

/-- A list of subscribers in the order of subscription. Somebody who subscribes several times is on
it several times. -/
structure SubscriberList (σ : Type) where
  subscribers : List σ

namespace SubscriberList

variable {σ : Type}

/-- The list without subscribers. -/
def empty : SubscriberList σ := ⟨[]⟩

instance : Inhabited (SubscriberList σ) := ⟨empty⟩

variable (list : SubscriberList σ)

/-- Adds a subscriber. -/
def subscribe (subscriber : σ) : SubscriberList σ := ⟨list.subscribers ++ [subscriber]⟩

/-- Takes the subscribers that are gone off the list. -/
def prune (alive : σ → Bool) : SubscriberList σ := ⟨list.subscribers.filter alive⟩

/-- The number of subscribers that are gone. -/
def goneCount (alive : σ → Bool) : Nat := list.subscribers.countP fun s => !alive s

/-! ### Uses -/

/-- The surroundings of a list, which act in `m`. Subscribers are alive as long as somebody holds them. -/
structure Setting (m : Type → Type) (σ : Type) where
  /-- the list as it is now -/
  get : m (SubscriberList σ)
  set : SubscriberList σ → m Unit
  alive : m (σ → Bool)
  /-- takes hold of subscribers who are alive -/
  hold : List σ → m Unit
  release : σ → m Unit
  log : LogEntry → m Unit

namespace Setting

variable {m : Type → Type} [Monad m] (around : Setting m σ)

/-- The subscribers who are there. The others are taken off the list. -/
def live : m (List σ) := do
  let list ← around.get
  let alive ← around.alive
  around.set (list.prune alive)
  let gone := list.goneCount alive
  if gone ≠ 0 then around.log (.pruned gone)
  return (list.prune alive).subscribers

/-- The number of subscribers who are there. -/
def size : m Nat := return (← around.live).length

/-- Delivers something to those who are there when the delivery starts. Each of them is held until it is
done. -/
def dispatch (deliver : σ → m Unit) : m Unit := do
  let recipients ← around.live
  around.hold recipients
  recipients.forM fun x => do
    deliver x
    around.release x

end Setting

end SubscriberList

end StateReplica
