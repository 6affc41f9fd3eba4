import StateReplica.Files.Host
import StateReplica.Json.Format
import StateReplica.Error

/-!
Stores: directories in which values are kept as JSON files. Loading and looking change nothing; a
value is saved in the pretty layout, after the directory of the store has been made.
-/

namespace StateReplica

/-- A store. -/
structure Store where
  baseDir : String
  deriving DecidableEq, Repr

namespace Store

/-- The store for everything the user does. -/
def global (host : Host) : Store := ⟨Path.join host.configDirectory "bundlescope"⟩

/-- The store of the project in a directory. -/
def project (root : String) : Store := ⟨Path.join root ".bundlescope"⟩

/-- The store of the project in the current directory. -/
def currentProject (host : Host) : Except Error Store :=
  match host.currentDirectory with
  | .ok dir => .ok (project dir)
  | .error e => .error (.config ("Cannot get current directory: " ++ e.message))

variable (store : Store)

/-- The path of a file. -/
def filePath (file : String) : String := Path.join store.baseDir file

/-- Whether there is something under the name of a file. -/
def holds (host : Host) (file : String) : Bool := host.hasEntry (store.filePath file)

variable {α : Type} (format : Json.Format α)

/-- Loads the value of a file. -/
def load (host : Host) (file : String) : Except Error α :=
  match host.readText (store.filePath file) with
  | .error e => .error (.config ("Failed to read " ++ store.filePath file ++ ": " ++ e.message))
  | .ok text =>
    match format.parse text with
    | .error problem =>
      .error (.config ("Failed to parse " ++ store.filePath file ++ ": " ++ problem.message))
    | .ok a => .ok a

/-- Loads the value of a file, if there is something under its name. -/
def load? (host : Host) (file : String) : Except Error (Option α) :=
  if store.holds host file then (store.load format host file).map some else .ok none

/-- Makes the directory of the store, unless something is there already. -/
def ensureDir (host : Host) : Host × Except Error Unit :=
  if host.hasEntry store.baseDir then (host, .ok ())
  else
    match host.makeDirectories store.baseDir with
    | (host, .ok ()) => (host, .ok ())
    | (host, .error e) => (host, .error (.config ("Failed to create directory: " ++ e.message)))

/-- Saves a value that may turn out to have no text, which is found out after the directory of the
store is made and before the file is touched. -/
def saveJson (host : Host) (file : String) (value : Except Error Json) : Host × Except Error Unit :=
  match store.ensureDir host with
  | (host, .error e) => (host, .error e)
  | (host, .ok ()) =>
    match value with
    | .error e => (host, .error e)
    | .ok value =>
      match host.writeText (store.filePath file) value.pretty with
      | .ok host => (host, .ok ())
      | .error e =>
        (host, .error (.config ("Failed to write " ++ store.filePath file ++ ": " ++ e.message)))

/-- Saves a value. -/
def save (host : Host) (file : String) (a : α) : Host × Except Error Unit :=
  store.saveJson host file (.ok (format.write a))

/-- Saves an object whose members are named by values. -/
def saveEntries (host : Host) (file : String) (entries : List (Json × Json)) :
    Host × Except Error Unit :=
  store.saveJson host file <|
    match Json.ofEntries? entries with
    | some value => .ok value
    | none => .error (.json "key must be a string")

end Store

end StateReplica
