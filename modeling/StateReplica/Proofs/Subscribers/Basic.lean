import Mathlib.Logic.Function.Basic
import StateReplica.Proofs.Replica.Operations
import StateReplica.Subscribers

/-!
Mailings. Somebody uses some lists of subscribers: enters subscribers, takes hold of them and releases
them, counts them, and dispatches notices. Some of the subscribers are replicas, with listeners of
their own. Whoever is told something may do all of this in turn before the next one is told, so that
dispatches lie inside each other: a subscriber that is a list itself passes on what it is told.

Everything that counts goes into a record. What a list and a replica do is what
`SubscriberList.Setting` and `Surroundings` say; mailings only take the place of their surroundings,
where nothing is logged.
-/

namespace StateReplica.Mailing

open Replica (Step)

variable {ω κ σ : Type}

/-! ### Who is told what -/

/-- Somebody who can subscribe: a replica or somebody else. -/
inductive Party (σ : Type)
  | replica (r : Nat)
  | other (x : σ)
  deriving DecidableEq

/-- What is dispatched: something that happened at a server. -/
structure Notice where
  server : ServerIdentity
  event : Event
  deriving DecidableEq

/-- A notice that somebody is given. The number says of which dispatch it is part. -/
structure Delivery (σ : Type) where
  number : Nat
  notice : Notice
  recipient : Party σ
  deriving DecidableEq

/-! ### What somebody does -/

/-- What somebody does up to the end, along with what is done meanwhile by those who are told something
for it. -/
inductive Conduct (ω κ σ : Type)
  | finish
  | subscribe (l : Nat) (x : Party σ) (next : Conduct ω κ σ)
  /-- takes hold of somebody, which fails if they are gone -/
  | hold (x : Party σ) (next : Bool → Conduct ω κ σ)
  | release (x : Party σ) (next : Conduct ω κ σ)
  | count (l : Nat) (next : Nat → Conduct ω κ σ)
  /-- dispatches a notice, of which others than replicas are told, and for which listeners of replicas
  are called -/
  | dispatch (l : Nat) (notice : Notice) (told : σ → Conduct ω κ σ) (called : κ → Conduct ω κ σ)
    (next : Conduct ω κ σ)
  | reload (r : Nat) (called : κ → Conduct ω κ σ) (next : Conduct ω κ σ)
  /-- changes something outside, and goes on with what was there before -/
  | mind (change : ω → ω) (next : ω → Conduct ω κ σ)

/-- What the server of the replicas answers, and what comes of calling listeners. -/
structure Company (ω κ : Type) where
  framework : StateM ω (Except Error FrameworkDescriptor)
  bundles : StateM ω (Except Error (List BundleRecord))
  configurations : Option String → StateM ω (Except Error (List ConfigurationRecord))
  ending : κ → ω → CallResult

/-! ### Scenes -/

/-- Something that happened. -/
inductive Entry (σ : Type)
  | subscribed (l : Nat) (x : Party σ)
  | held (x : Party σ)
  | released (x : Party σ)
  | counted (l n : Nat)
  /-- a dispatch was started -/
  | dispatched (l : Nat) (notice : Notice)
  | told (delivery : Delivery σ)
  /-- a replica was loaded, or could not be -/
  | reloaded (r : Nat) (outcome : Except Error Fetched)

namespace Entry

def delivery? : Entry σ → Option (Delivery σ)
  | .told delivery => some delivery
  | _ => none

/-- The deliveries among all that happened, in their order. -/
def deliveries (entries : List (Entry σ)) : List (Delivery σ) := entries.filterMap delivery?

theorem deliveries_append (before after : List (Entry σ)) :
    deliveries (before ++ after) = deliveries before ++ deliveries after :=
  List.filterMap_append

variable [DecidableEq σ]

/-- What an entry means to a replica. -/
def step? (r : Nat) : Entry σ → Option Step
  | .told delivery =>
    if delivery.recipient = .replica r then some (.notice delivery.notice.event) else none
  | .reloaded q outcome => if q = r then some (.reload outcome) else none
  | _ => none

/-- The steps of a replica among all that happened. -/
def steps (r : Nat) (entries : List (Entry σ)) : List Step := entries.filterMap (step? r)

theorem steps_append (r : Nat) (before after : List (Entry σ)) :
    steps r (before ++ after) = steps r before ++ steps r after :=
  List.filterMap_append

end Entry

/-- The lists, those who may be on them, what there is besides, and the record. -/
structure Scene (ω κ σ : Type) where
  lists : Nat → SubscriberList (Party σ)
  /-- how many hold somebody -/
  holders : Party σ → Nat
  replicas : Nat → Replica κ
  outside : ω
  /-- the number of dispatches that were started -/
  started : Nat
  record : List (Entry σ)

namespace Scene

/-- Lists and subscribers as they may be, with nothing on record. -/
def fresh (lists : Nat → SubscriberList (Party σ)) (holders : Party σ → Nat)
    (replicas : Nat → Replica κ) (outside : ω) : Scene ω κ σ :=
  ⟨lists, holders, replicas, outside, 0, []⟩

variable (s : Scene ω κ σ)

/-- Somebody is alive as long as they are held. -/
def alive (x : Party σ) : Bool := 0 < s.holders x

def note (entry : Entry σ) : Scene ω κ σ := { s with record := s.record ++ [entry] }

def setList (l : Nat) (list : SubscriberList (Party σ)) : Scene ω κ σ :=
  { s with lists := Function.update s.lists l list }

def setReplica (r : Nat) (replica : Replica κ) : Scene ω κ σ :=
  { s with replicas := Function.update s.replicas r replica }

def setHolders [DecidableEq σ] (x : Party σ) (n : Nat) : Scene ω κ σ :=
  { s with holders := Function.update s.holders x n }

/-- Starts a dispatch. -/
def begin (l : Nat) (notice : Notice) : Scene ω κ σ :=
  { s.note (.dispatched l notice) with started := s.started + 1 }

end Scene

/-! ### What is done -/

/-- What acts on a scene. -/
abbrev Play (ω κ σ : Type) := StateM (Scene ω κ σ)

/-- Lets the server answer. -/
def consult {α : Type} (ask : StateM ω α) : Play ω κ σ α := do
  let s ← get
  let (answer, outside) := ask.run s.outside
  set { s with outside }
  return answer

def note (entry : Entry σ) : Play ω κ σ Unit := modify (·.note entry)

def subscribe (l : Nat) (x : Party σ) : Play ω κ σ Unit :=
  modify fun s => (s.setList l ((s.lists l).subscribe x)).note (.subscribed l x)

section

variable [DecidableEq σ]

def hold (x : Party σ) : Play ω κ σ Bool := do
  let s ← get
  if s.alive x then
    set ((s.setHolders x (s.holders x + 1)).note (.held x))
    return true
  else return false

def release (x : Party σ) : Play ω κ σ Unit :=
  modify fun s => (s.setHolders x (s.holders x - 1)).note (.released x)

/-- The scene as the surroundings of a list. -/
def listSetting (l : Nat) : SubscriberList.Setting (Play ω κ σ) (Party σ) where
  get := return (← get).lists l
  set list := modify (·.setList l list)
  alive := return (← get).alive
  hold recipients := recipients.forM fun x => do let _ ← hold x
  release := release
  log _ := return ()

def count (l : Nat) : Play ω κ σ Nat := do
  let n ← (listSetting l).size
  note (.counted l n)
  return n

end

namespace Company

variable (company : Company ω κ)

/-- The company as the surroundings of a replica, where listeners do something when they are called. -/
def surroundings (r : Nat) (called : κ → Play ω κ σ Unit) : Surroundings (Play ω κ σ) κ where
  get := return (← get).replicas r
  set replica := modify (·.setReplica r replica)
  framework := consult company.framework
  bundles := consult company.bundles
  configurations filter := consult (company.configurations filter)
  call k := do
    called k
    return company.ending k (← get).outside
  log _ := return ()

/-- Loads a replica. What the server answers is noted beforehand. -/
def reload (r : Nat) (called : κ → Play ω κ σ Unit) : Play ω κ σ Unit := do
  let outcome := ((company.surroundings r called).fetch.run (← get)).1
  note (.reloaded r outcome)
  let _ ← (company.surroundings r called).reload

/-- Gives somebody a notice. -/
def tell (told : σ → Play ω κ σ Unit) (called : κ → Play ω κ σ Unit) (delivery : Delivery σ) :
    Play ω κ σ Unit := do
  note (.told delivery)
  match delivery.recipient with
  | .replica r =>
    (company.surroundings r called).receive delivery.notice.server delivery.notice.event
  | .other x => told x

/-- Dispatches a notice to a list. -/
def dispatch [DecidableEq σ] (l : Nat) (notice : Notice) (told : σ → Play ω κ σ Unit)
    (called : κ → Play ω κ σ Unit) : Play ω κ σ Unit := do
  let number := (← get).started
  modify (·.begin l notice)
  (listSetting l).dispatch fun x => company.tell told called ⟨number, notice, x⟩

end Company

variable [DecidableEq σ]

/-- Does what somebody does. -/
def Conduct.play (company : Company ω κ) : Conduct ω κ σ → Play ω κ σ Unit
  | .finish => return ()
  | .subscribe l x next => do
    Mailing.subscribe l x
    next.play company
  | .hold x next => do
    let held ← Mailing.hold x
    (next held).play company
  | .release x next => do
    Mailing.release x
    next.play company
  | .count l next => do
    let n ← Mailing.count l
    (next n).play company
  | .dispatch l notice told called next => do
    company.dispatch l notice (fun x => (told x).play company) (fun k => (called k).play company)
    next.play company
  | .reload r called next => do
    company.reload r fun k => (called k).play company
    next.play company
  | .mind change next => do
    let s ← get
    set { s with outside := change s.outside }
    (next s.outside).play company

/-- The scene after somebody has done what they do. -/
def Company.sceneAfter (company : Company ω κ) (conduct : Conduct ω κ σ) (s : Scene ω κ σ) :
    Scene ω κ σ :=
  ((conduct.play company).run s).2

end StateReplica.Mailing
