import StateReplica.Replica.Operations
import StateReplica.Scenario.World

/-!
How steps are performed. Steps lie inside each other: a callback performs steps, and so does a server
while it is asked for its bundles. Everything here is defined over a way to perform those inner steps,
and `perform` closes the circle with a bound for how deep they lie.
-/

namespace StateReplica.Scenario

/-- What acts on the world. -/
abbrev Play := StateM World

/-! ### The trace -/

/-- Notes what somebody did who was called back. -/
def noteCall (entry : CallEntry) : Play Unit :=
  modify fun w => { w with trace := { w.trace with calls := w.trace.calls.concat entry } }

/-- Notes what the server was asked for. -/
def noteFetch (entry : FetchEntry) : Play Unit :=
  modify fun w => { w with trace := { w.trace with fetches := w.trace.fetches.concat entry } }

/-- Writes an entry into the log. -/
def log (entry : LogEntry) : Play Unit :=
  modify fun w => { w with trace := { w.trace with logs := w.trace.logs.concat entry } }

/-! ### Callbacks -/

section Inner

variable (act : Step → Play Answer)

/-- Performs the actions of somebody who was called so often before. -/
def performActions (actor : Actor) : Play Unit :=
  if actor.calls < actor.script.times then
    actor.script.actions.forM fun action => do
      noteCall (.action actor.script.name (← act action))
  else return ()

/-- Calls a listener. -/
def callListener (k : Nat) : Play CallResult := do
  match (← get).listeners[k]? with
  | none => return .done
  | some actor =>
    modify fun w => { w with listeners := w.listeners.set k { actor with calls := actor.calls + 1 } }
    noteCall (.listener actor.script.name)
    performActions act actor
    return actor.script.ending

/-- Gives a recorder a notice. -/
def callRecorder (k : Nat) (event : Event) : Play Unit := do
  match (← get).recorders[k]? with
  | none => return ()
  | some actor =>
    modify fun w => { w with recorders := w.recorders.set k { actor with calls := actor.calls + 1 } }
    noteCall (.recorder actor.script.name event (← get).server.identity)
    performActions act actor

/-! ### The server -/

/-- Asks the server for a part; what it holds is only looked at after some steps. -/
def fetchPart {α : Type} (part : Part) (entry : FetchEntry) (during : List Step) (held : Server → α) :
    Play (Except Error α) := do
  noteFetch entry
  match (← get).server.failure part with
  | some e => return .error e
  | none =>
    during.forM fun step => do noteFetch (.during (← act step))
    return .ok (held (← get).server)

/-- The surroundings of a replica, where some steps are performed while the bundles are fetched. -/
def surroundings (r : Nat) (during : List Step) : Surroundings Play Nat where
  get := return (← get).replica r
  set replica := modify (·.setReplica r replica)
  framework := fetchPart act .framework .framework [] (·.framework)
  bundles := fetchPart act .bundles .bundles during (·.bundles)
  configurations filter :=
    fetchPart act .configurations (.configurations filter) [] (·.configurations)
  call := callListener act
  log := log

/-! ### Notices -/

/-- Delivers a notice of the server to somebody. -/
def deliver (event : Event) : Recipient → Play Unit
  | .replica r => do (surroundings act r []).receive (← get).server.identity event
  | .recorder k => callRecorder act k event
  | .list l => do let _ ← act (.send l event)

/-- The surroundings of a list of subscribers. -/
def listSetting (ref : ListRef) : SubscriberList.Setting Play Recipient where
  get := return (← get).subscriberList ref
  set list := modify (·.setSubscriberList list ref)
  alive := return (← get).alive
  hold recipients := modify fun w => { w with pinned := recipients ++ w.pinned }
  release x := modify (·.unpin x)
  log := log

/-- Delivers a notice to those who are there of a list. -/
def dispatch (ref : ListRef) (event : Event) : Play Unit :=
  (listSetting ref).dispatch (deliver act event)

/-! ### Steps -/

/-- Does something with a replica that is held, and keeps it alive until the end. -/
def onReplica (r : Nat) (body : Play Answer) : Play Answer := do
  if (← get).holds (.replica r) then
    modify (·.pin (.replica r))
    let answer ← body
    modify (·.unpin (.replica r))
    return answer
  else return .noReplica

/-- Does something with a registry of listeners. -/
def onRegistry (ref : RegistryRef) (body : Registry Nat → Play Answer) : Play Answer :=
  match ref with
  | .alone => do body ((← get).registryOf .alone)
  | .replica r => onReplica r do body ((← get).registryOf (.replica r))

/-- Adds a listener to a registry as it is. -/
def addListener (ref : RegistryRef) (registry : Registry Nat) (listener : Nat) : Play Answer := do
  let w ← get
  let name := (w.listeners[listener]?).elim anonymousName (·.script.name)
  log (.registered name registry.next)
  modify (·.setRegistry (registry.add ⟨name, listener⟩) ref)
  modify fun w => { w with handles := w.handles.concat ⟨listener, registry.next⟩ }
  return .added w.handles.length registry.next

/-- Removes the listener with a number from a registry as it is. -/
def removeListener (ref : RegistryRef) (registry : Registry Nat) (id : ListenerId) :
    Play Answer := do
  if registry.holds id then
    modify (·.setRegistry (registry.remove id) ref)
    log (.unregistered id)
    return .flag true
  else return .flag false

/-- Makes a subscriber. -/
def addSubscriber (x : Recipient) : Play Answer := do
  let w ← get
  set { w with subscribers := w.subscribers.concat ⟨x, true⟩ }
  return .number w.subscribers.length

/-- The size of a list of subscribers, and whether it is empty: two questions that both use it. -/
def measureList (ref : ListRef) : Play Answer := do
  let count ← (listSetting ref).size
  let _ ← (listSetting ref).size
  return .size count

/-- Performs a step, given a way to perform the steps inside it. -/
def step : Step → Play Answer
  | .setServer framework bundles configurations => do
    modify fun w => { w with server := { w.server with
      framework := framework.getD w.server.framework
      bundles := bundles.getD w.server.bundles
      configurations := configurations.getD w.server.configurations } }
    return .nothing
  | .fail part error => do
    modify fun w => { w with server := w.server.setFailure part error }
    return .nothing
  | .emit event => do
    dispatch act .followers event
    return .nothing
  | .countFollowers => return .number (← (listSetting .followers).size)
  | .addListener ref script => onRegistry ref fun registry => do
    let w ← get
    set { w with listeners := w.listeners.concat ⟨script, 0⟩ }
    addListener ref registry w.listeners.length
  | .addAgain ref handle => onRegistry ref fun registry => do
    match (← get).handles[handle]? with
    | some handle => addListener ref registry handle.listener
    | none => return .nothing
  | .removeListener ref handle => onRegistry ref fun registry => do
    match (← get).handles[handle]? with
    | some handle => removeListener ref registry handle.id
    | none => return .flag false
  | .notify => return .number (← callAll (callListener act) log (← get).registry.round)
  | .measureRegistry => return .size (← get).registry.count
  | .newList => do
    let w ← get
    set { w with lists := w.lists.concat .empty }
    return .number w.lists.length
  | .newRecorder script => do
    let w ← get
    set { w with recorders := w.recorders.concat ⟨script, 0⟩ }
    addSubscriber (.recorder w.recorders.length)
  | .newForwarder list => addSubscriber (.list list)
  | .dropSubscriber s => do
    let w ← get
    set { w with subscribers := w.subscribers.modify s fun owned => { owned with held := false } }
    return .flag ((w.subscribers[s]?).any (·.held))
  | .subscribe list s => do
    let w ← get
    match w.subscribers[s]? with
    | some ⟨x, true⟩ =>
      let ref := ListRef.numbered list
      set (w.setSubscriberList ((w.subscriberList ref).subscribe x) ref)
      return .flag true
    | _ => return .flag false
  | .measureList list => measureList (.numbered list)
  | .send list event => do
    dispatch act (.numbered list) event
    return .nothing
  | .newReplica config => do
    let w ← get
    let r := w.replicas.length
    let followers := w.server.followers.subscribe (.replica r)
    set { w with
      replicas := w.replicas.concat ⟨.new config, true⟩
      server := { w.server with followers } }
    log (.created config.bundleConsistency)
    return .number r
  | .dropReplica r => do
    let w ← get
    set { w with replicas := w.replicas.modify r fun owned => { owned with held := false } }
    return .flag (w.holds (.replica r))
  | .reload r during waiting => onReplica r do
    let shown := (← get).server.showsBundles
    let outcome ← (surroundings act r during).reload
    match shown, waiting with
    | true, some event => dispatch act .followers event
    | _, _ => pure ()
    return .ofExcept (fun () => .nothing) outcome
  | .reloadInBackground r count => onReplica r do
    (List.range count).forM fun _ => log .scheduled
    return .outcomes (← (List.range count).mapM fun _ => (surroundings act r []).reload)
  | .apply r event => onReplica r do
    return .flag (← (surroundings act r []).apply event)
  | .countListeners r => onReplica r do return .number ((← get).replica r).listeners.count
  | .isLoaded r => onReplica r do return .flag ((← get).replica r).isLoaded
  | .generation r => onReplica r do return .number ((← get).replica r).generation.toNat
  | .config r => onReplica r do return .config ((← get).replica r).config
  | .ask r query => onReplica r do return .ofExcept .reply (((← get).replica r).ask query)
  | .remember r => onReplica r do
    let contents := ((← get).replica r).contents
    modify fun w => { w with remembered := contents }
    return if contents.isSome then .flag true else .failed .notLoaded
  | .isRemembered r => onReplica r do
    let w ← get
    match (w.replica r).contents with
    | some contents => return .flag (w.remembered = some contents)
    | none => return .failed .notLoaded

end Inner

/-- Performs a step, where steps may lie inside each other up to a depth. -/
def perform : Nat → Step → Play Answer
  | 0, _ => return .nothing
  | depth + 1, s => step (perform depth) s

/-! ### Scenarios -/

/-- What is seen of a step: its answer, what happened, and the replicas after it that are still
held. -/
structure Report where
  answer : Answer
  trace : Trace
  replicas : List (Option (Replica Nat))

/-- Performs a step with a trace of its own. -/
def playStep (depth : Nat) (w : World) (s : Step) : Report × World :=
  let (answer, w) := (perform depth s).run { w with trace := ∅ }
  ({ answer
     trace := w.trace
     replicas := w.replicas.map fun owned => if owned.held then some owned.value else none }, w)

/-- Performs steps in turn. -/
def playFrom (depth : Nat) (w : World) : List Step → List Report
  | [] => []
  | s :: steps =>
    let (report, w) := playStep depth w s
    report :: playFrom depth w steps

/-- Plays a scenario on a server. -/
def play (server : Server) (steps : List Step) : List Report :=
  playFrom (depthBound steps) (.new server) steps

end StateReplica.Scenario
