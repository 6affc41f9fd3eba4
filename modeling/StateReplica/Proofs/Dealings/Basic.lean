import StateReplica.Replica.Operations

/-!
Dealings with replicas. Somebody does one deed after the other with some replicas and goes on as the answers
come. The servers of the replicas do the same while they are asked, and so do listeners while they are
called: whatever can be done with a replica can be done from there too, so that deeds lie inside each other.

Everything that happens goes into a record. What is done with a replica is what `Surroundings` says; dealings
only take the place of the surroundings.
-/

namespace StateReplica.Dealings

variable {ω κ α : Type}

/-! ### Deeds -/

/-- Something that can be done with a replica, of which there are several. What its settings are is not
asked: whether notices are logged is nobody's business. -/
inductive Deed (κ : Type)
  | reload (r : Nat)
  /-- applies a notice directly -/
  | apply (r : Nat) (event : Event)
  /-- delivers a notice in the name of a server -/
  | receive (r : Nat) (server : ServerIdentity) (event : Event)
  | ask (r : Nat) (query : Query)
  | isLoaded (r : Nat)
  | generation (r : Nat)
  | countListeners (r : Nat)
  | addListener (r : Nat) (listener : Listener κ)
  | removeListener (r : Nat) (id : ListenerId)

namespace Deed

/-- What a deed is answered with. -/
abbrev Answer : Deed κ → Type
  | .reload _ => Except Error Unit
  | .apply _ _ => Bool
  | .receive _ _ _ => Unit
  | .ask _ _ => Except Error Reply
  | .isLoaded _ => Bool
  | .generation _ => UInt64
  | .countListeners _ => Nat
  | .addListener _ _ => ListenerId
  | .removeListener _ _ => Bool

/-- Whether a replica is given a notice, in one way or the other. -/
def isNotice : Deed κ → Bool
  | .apply _ _ | .receive _ _ _ => true
  | _ => false

end Deed

/-- What somebody does up to the end. -/
inductive Conduct (ω κ α : Type)
  | finish (result : α)
  | act (deed : Deed κ) (next : deed.Answer → Conduct ω κ α)
  /-- changes something outside the replicas, and goes on with what was there before -/
  | mind (change : ω → ω) (next : ω → Conduct ω κ α)

/-- What the servers of the replicas and the listeners do. -/
structure Company (ω κ : Type) where
  framework : Nat → Conduct ω κ (Except Error FrameworkDescriptor)
  bundles : Nat → Conduct ω κ (Except Error (List BundleRecord))
  configurations : Nat → Option String → Conduct ω κ (Except Error (List ConfigurationRecord))
  callback : κ → Conduct ω κ CallResult

/-! ### Scenes -/

/-- Something that happened. -/
inductive Entry (κ : Type)
  /-- a replica called a listener -/
  | called (r : Nat) (callee : κ)
  | answered (deed : Deed κ) (answer : deed.Answer)
  | logged (r : Nat) (entry : LogEntry)

/-- The replicas, what there is besides them, and the record. -/
structure Scene (ω κ : Type) where
  replicas : Nat → Replica κ
  outside : ω
  record : List (Entry κ)

namespace Scene

/-- New replicas, with nothing on record. -/
def fresh (configs : Nat → ReplicaConfig) (outside : ω) : Scene ω κ :=
  ⟨fun r => .new (configs r), outside, []⟩

/-- Changes a replica. -/
def setReplica (s : Scene ω κ) (r : Nat) (replica : Replica κ) : Scene ω κ :=
  { s with replicas := fun q => if q = r then replica else s.replicas q }

/-- Puts something on record. -/
def note (s : Scene ω κ) (entry : Entry κ) : Scene ω κ := { s with record := s.record ++ [entry] }

end Scene

/-! ### What is done -/

/-- What acts on a scene. It does not come to an end if deeds lie too deep inside each other. -/
abbrev Play (ω κ : Type) := StateT (Scene ω κ) Option

/-- A way to do every deed. -/
abbrev Performance (ω κ : Type) := (deed : Deed κ) → Play ω κ deed.Answer

def note (entry : Entry κ) : Play ω κ Unit := modify (·.note entry)

section

variable (perform : Performance ω κ)

/-- Does what somebody does, given a way to do the deeds. -/
def Conduct.play : Conduct ω κ α → Play ω κ α
  | .finish result => return result
  | .act deed next => do
    let answer ← perform deed
    (next answer).play
  | .mind change next => do
    let s ← get
    set { s with outside := change s.outside }
    (next s.outside).play

namespace Company

variable (company : Company ω κ)

/-- The surroundings of a replica. -/
def surroundings (r : Nat) : Surroundings (Play ω κ) κ where
  get := return (← get).replicas r
  set replica := modify (·.setReplica r replica)
  framework := (company.framework r).play perform
  bundles := (company.bundles r).play perform
  configurations filter := (company.configurations r filter).play perform
  call callee := do
    note (.called r callee)
    (company.callback callee).play perform
  log entry := note (.logged r entry)

end Company

end

def addListener (r : Nat) (listener : Listener κ) : Play ω κ ListenerId := do
  let replica := (← get).replicas r
  note (.logged r (.registered listener.name replica.listeners.next))
  modify (·.setReplica r { replica with listeners := replica.listeners.add listener })
  return replica.listeners.next

def removeListener (r : Nat) (id : ListenerId) : Play ω κ Bool := do
  let replica := (← get).replicas r
  if replica.listeners.holds id then
    modify (·.setReplica r { replica with listeners := replica.listeners.remove id })
    note (.logged r (.unregistered id))
    return true
  else return false

namespace Company

variable (company : Company ω κ)

/-- Does a deed, given a way to do those inside it. -/
def step (perform : Performance ω κ) : Performance ω κ
  | .reload r => (company.surroundings perform r).reload
  | .apply r event => (company.surroundings perform r).apply event
  | .receive r server event => (company.surroundings perform r).receive server event
  | .ask r query => return ((← get).replicas r).ask query
  | .isLoaded r => return ((← get).replicas r).isLoaded
  | .generation r => return ((← get).replicas r).generation
  | .countListeners r => return ((← get).replicas r).listeners.count
  | .addListener r listener => addListener r listener
  | .removeListener r id => removeListener r id

/-- Does a deed and puts the answer on record. Notices are left out there: one that a server delivers has no
answer. -/
def stepNoted (perform : Performance ω κ) : Performance ω κ := fun deed => do
  let answer ← company.step perform deed
  if deed.isNotice then return answer
  note (.answered deed answer)
  return answer

/-- Does a deed, where deeds may lie inside each other up to a depth. -/
def perform : Nat → Performance ω κ
  | 0 => fun _ _ => none
  | depth + 1 => company.stepNoted (perform depth)

/-- What somebody comes to who deals with new replicas, and the scene after it. -/
def session (depth : Nat) (configs : Nat → ReplicaConfig) (outside : ω) (conduct : Conduct ω κ α) :
    Option (α × Scene ω κ) :=
  (conduct.play (company.perform depth)).run (.fresh configs outside)

end Company

end StateReplica.Dealings
