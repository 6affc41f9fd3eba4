import StateReplica.Proofs.Listeners.Enrolment
import StateReplica.Proofs.Replica.Outcomes

/-!
Sessions. Somebody uses a replica, one operation after the other, in the company of a server that
answers as it likes and of listeners that do as they like when they are called: they look at the
replica, add and remove listeners, mind matters of their own, and what they do next may hang on all
they have seen. What they cannot do is load the replica or apply notices.

Everything that happens goes into a record. The operations are those of replicas; the company only
takes the place of their surroundings.
-/

namespace StateReplica.Session

open Registry (Change)

variable {ω κ : Type}

/-! ### The company -/

/-- What a listener does when it is called. -/
inductive Callback (ω κ : Type)
  | finish (result : CallResult)
  | look (next : Replica κ → Callback ω κ)
  | add (listener : Listener κ) (next : ListenerId → Callback ω κ)
  | remove (id : ListenerId) (next : Bool → Callback ω κ)
  /-- changes something outside the replica, and goes on with what was there before -/
  | mind (change : ω → ω) (next : ω → Callback ω κ)

/-- A server and what listeners do, who share what there is outside the replica. -/
structure Company (ω κ : Type) where
  framework : StateM ω (Except Error FrameworkDescriptor)
  bundles : StateM ω (Except Error (List BundleRecord))
  configurations : Option String → StateM ω (Except Error (List ConfigurationRecord))
  callback : κ → Callback ω κ

/-! ### The record -/

/-- Something that happened. -/
inductive Entry (κ : Type)
  /-- the server was asked and answered -/
  | framework (answer : Except Error FrameworkDescriptor)
  | bundles (answer : Except Error (List BundleRecord))
  | configurations (filter : Option String) (answer : Except Error (List ConfigurationRecord))
  /-- a listener was called -/
  | called (callee : κ)
  /-- a listener that was called looked at the replica -/
  | looked (replica : Replica κ)
  /-- a listener that was called came to its end -/
  | ended (result : CallResult)
  | changed (change : Change κ)
  | logged (entry : LogEntry)

namespace Entry

/-- Whether a listener is announced or called. -/
def isCall : Entry κ → Bool
  | .called _ | .logged (.notifying _ _) => true
  | _ => false

/-- What came of calling a listener. -/
def ending? : Entry κ → Option CallResult
  | .ended result => some result
  | _ => none

def change? : Entry κ → Option (Change κ)
  | .changed given => some given
  | _ => none

/-- The changes of the registry among all that happened. -/
def changes (entries : List (Entry κ)) : List (Change κ) := entries.filterMap change?

theorem changes_append (before after : List (Entry κ)) :
    changes (before ++ after) = changes before ++ changes after :=
  List.filterMap_append

/-- What came of the calls among all that happened. -/
def endings (entries : List (Entry κ)) : List CallResult := entries.filterMap ending?

theorem endings_append (before after : List (Entry κ)) :
    endings (before ++ after) = endings before ++ endings after :=
  List.filterMap_append

end Entry

/-- The replica, what there is besides it, and the record. -/
structure Scene (ω κ : Type) where
  replica : Replica κ
  outside : ω
  record : List (Entry κ)

/-- A new replica, with nothing on record. -/
def Scene.fresh (config : ReplicaConfig) (outside : ω) : Scene ω κ := ⟨.new config, outside, []⟩

/-! ### What is done -/

def note (entry : Entry κ) : StateM (Scene ω κ) Unit :=
  modify fun s => { s with record := s.record ++ [entry] }

/-- Lets somebody outside answer. -/
def consult {α : Type} (ask : StateM ω α) (entry : α → Entry κ) : StateM (Scene ω κ) α := do
  let s ← get
  let (answer, outside) := ask.run s.outside
  set { s with outside }
  note (entry answer)
  return answer

def changeRegistry (change : Change κ) : StateM (Scene ω κ) Unit := do
  modify fun s =>
    { s with replica := { s.replica with listeners := s.replica.listeners.change change } }
  note (.changed change)

def addListener (listener : Listener κ) : StateM (Scene ω κ) ListenerId := do
  let id := (← get).replica.listeners.next
  note (.logged (.registered listener.name id))
  changeRegistry (.add listener)
  return id

def removeListener (id : ListenerId) : StateM (Scene ω κ) Bool := do
  if (← get).replica.listeners.holds id then
    changeRegistry (.remove id)
    note (.logged (.unregistered id))
    return true
  else return false

def Callback.play : Callback ω κ → StateM (Scene ω κ) CallResult
  | .finish result => return result
  | .look next => do
    let s ← get
    note (.looked s.replica)
    (next s.replica).play
  | .add listener next => do
    let id ← addListener listener
    (next id).play
  | .remove id next => do
    let removed ← removeListener id
    (next removed).play
  | .mind change next => do
    let s ← get
    set { s with outside := change s.outside }
    (next s.outside).play

/-- The company as the surroundings of the replica. -/
def Company.surroundings (company : Company ω κ) : Surroundings (StateM (Scene ω κ)) κ where
  get := return (← get).replica
  set replica := modify fun s => { s with replica }
  framework := consult company.framework .framework
  bundles := consult company.bundles .bundles
  configurations filter := consult (company.configurations filter) (.configurations filter)
  call k := do
    note (.called k)
    let result ← (company.callback k).play
    note (.ended result)
    return result
  log entry := note (.logged entry)

/-- What is done with a replica. -/
inductive Operation (κ : Type)
  | reload
  | apply (event : Event)
  | ask (query : Query)
  | addListener (listener : Listener κ)
  | removeListener (id : ListenerId)

/-- What an operation gives back. -/
inductive Answer
  | outcome (outcome : Outcome)
  | reply (reply : Except Error Reply)
  | added (id : ListenerId)
  | removed (removed : Bool)

/-- What a load or a notice gave back. -/
def Answer.outcome? : Answer → Option Outcome
  | .outcome given => some given
  | _ => none

/-- Whether the operation was a change of the contents. -/
def Answer.counts (answer : Answer) : Bool := answer.outcome?.any (·.counts)

namespace Company

variable (company : Company ω κ)

def perform : Operation κ → StateM (Scene ω κ) Answer
  | .reload => return .outcome (.reloaded (← company.surroundings.reload))
  | .apply event => return .outcome (.applied (← company.surroundings.apply event))
  | .ask query => return .reply ((← get).replica.ask query)
  | .addListener listener => return .added (← addListener listener)
  | .removeListener id => return .removed (← removeListener id)

/-- The answers to some operations, and the scene after them. -/
def session (config : ReplicaConfig) (outside : ω) (operations : List (Operation κ)) :
    List Answer × Scene ω κ :=
  (operations.mapM company.perform).run (.fresh config outside)

/-- The scene after some operations on a new replica. -/
def sceneAfter (config : ReplicaConfig) (outside : ω) (operations : List (Operation κ)) :
    Scene ω κ :=
  (company.session config outside operations).2

/-- The step that an operation is, if it is one: what the server has to answer decides what a load
comes to. -/
def step? (s : Scene ω κ) : Operation κ → Option Replica.Step
  | .reload => some (.reload (company.surroundings.fetch.run s).1)
  | .apply event => some (.notice event)
  | _ => none

end Company

end StateReplica.Session
