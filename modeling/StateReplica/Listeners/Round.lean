import StateReplica.Log

/-!
Rounds of calls. A round is for the listeners that are registered when it starts: whoever is added
during the round waits for the next one, and whoever is removed is still called. A listener that
fails or panics does not keep the others from being called.
-/

namespace StateReplica

variable {κ : Type} {m : Type → Type} [Monad m]

/-- Calls the listeners of a round in order, and counts those that failed or panicked. -/
def callAll (call : κ → m CallResult) (log : LogEntry → m Unit) :
    List (ListenerId × Listener κ) → m Nat
  | [] => return 0
  | (id, listener) :: rest => do
    log (.notifying id listener.name)
    match ← call listener.callee with
    | .done => callAll call log rest
    | .failed error =>
      log (.listenerFailed id listener.name error)
      return (← callAll call log rest) + 1
    | .panicked =>
      log (.listenerPanicked id listener.name)
      return (← callAll call log rest) + 1

end StateReplica
