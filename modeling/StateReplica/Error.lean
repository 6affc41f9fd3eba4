import StateReplica.Json.Problem

/-!
What can go wrong when a replica is used, and the words for it.
-/

namespace StateReplica

/-- What went wrong. -/
inductive Error
  /-- the server could not be reached -/
  | connect (text : String)
  /-- the connection is closed -/
  | notConnected (text : String)
  /-- the server itself reports an error -/
  | remote (server text : String)
  /-- nothing has been loaded yet -/
  | notLoaded
  /-- a listener failed -/
  | listener (name text : String)
  /-- the settings or the files they are kept in -/
  | config (text : String)
  | io (text : String)
  | json (text : String)
  deriving DecidableEq, Repr

namespace Error

/-- An error in words. -/
def message : Error → String
  | .connect text => "Connection error: " ++ text
  | .notConnected text => "Not connected: " ++ text
  | .remote server text => "Remote server error: " ++ server ++ " - " ++ text
  | .notLoaded => "The server state has not been loaded"
  | .listener name text => "Listener failed: " ++ name ++ " - " ++ text
  | .config text => "Configuration error: " ++ text
  | .io text => "IO error: " ++ text
  | .json text => "JSON error: " ++ text

/-- Whether it makes sense to try again: only where the server could not be reached. -/
def isRetryable : Error → Bool
  | .connect _ => true
  | _ => false

/-- Whether the error comes from the server or from the way to it. -/
def isTransport : Error → Bool
  | .connect _ | .notConnected _ | .remote _ _ => true
  | _ => false

/-- The error of a text that cannot be read. -/
def ofProblem (problem : Json.Problem) : Error := .json problem.message

end Error

end StateReplica
