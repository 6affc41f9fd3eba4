import StateReplica.Files.Path
import Std.Data.ExtTreeMap

/-!
The host a store lives on: a tree of directories and files without links, the current directory,
and the environment that says where settings are kept. Every operation that fails leaves the host
as it was, except that creating a directory together with the directories above it may get half
way.

No operation fails because of what a name or a path looks like: a name that holds the character NUL,
and a name or a path that is too long, which the hosts in use refuse, are walked like any other. So
there is no `FileError` for them.
-/

namespace StateReplica

/-- A place of the tree: the names on the way to it, the innermost first. -/
abbrev Place := List String

/-- What is at a place. -/
inductive Entry
  | directory
  | file (content : ByteArray)

/-- Whether it is a directory. -/
def Entry.isDirectory : Entry → Bool
  | .directory => true
  | .file _ => false

/-- Why a file operation fails. -/
inductive FileError
  | notFound
  | alreadyThere
  | notADirectory
  | isADirectory
  | notUtf8
  deriving DecidableEq, Repr

/-- The words for a failing file operation. -/
def FileError.message : FileError → String
  | .notFound => "No such file or directory (os error 2)"
  | .alreadyThere => "File exists (os error 17)"
  | .notADirectory => "Not a directory (os error 20)"
  | .isADirectory => "Is a directory (os error 21)"
  | .notUtf8 => "stream did not contain valid UTF-8"

/-- A place that a walk has come to. So many of its innermost directories were removed while
somebody stayed there: from such a place one can go up, but not down. -/
structure Position where
  place : Place
  lost : Nat
  deriving DecidableEq, Repr

/-- A host. The root of the tree is a directory that is not among the entries. -/
structure Host where
  entries : Std.ExtTreeMap Place Entry
  /-- the current directory -/
  current : Position
  home : String
  configHome : Option String

namespace Host

variable (host : Host)

/-- What is at a place. -/
def entry? : Place → Option Entry
  | [] => some .directory
  | place => host.entries[place]?

/-- What is at a position. -/
def at? (p : Position) : Option Entry :=
  if p.lost = 0 then host.entry? p.place else some .directory

/-- Takes one step. -/
def step (p : Position) (s : PathStep) : Except FileError Position :=
  match host.at? p with
  | none => .error .notFound
  | some (.file _) => .error .notADirectory
  | some .directory =>
    match s with
    | .here => .ok p
    | .up => .ok ⟨p.place.tail, p.lost - 1⟩
    | .name name =>
      if p.lost = 0 ∧ (host.entry? (name :: p.place)).isSome then .ok ⟨name :: p.place, 0⟩
      else .error .notFound

/-- Where a path starts. -/
def start (path : Path) : Position := if path.absolute then ⟨[], 0⟩ else host.current

/-- Takes steps from where a path starts. -/
def walk (path : Path) (steps : List PathStep) : Except FileError Position :=
  steps.foldlM host.step (host.start path)

/-- The position of a path and what is there. -/
def locate (text : String) : Except FileError (Position × Entry) := do
  let path := Path.ofText text
  if path.isEmpty then throw .notFound
  let p ← host.walk path path.steps
  match host.at? p with
  | none => throw .notFound
  | some (.file content) =>
    if path.trailing then throw .notADirectory else return (p, .file content)
  | some .directory => return (p, .directory)

/-- Whether there is something at a path. -/
def hasEntry (text : String) : Bool := (host.locate text).isOk

/-- Whether there is a directory at a path. -/
def isDirectory (text : String) : Bool :=
  match host.locate text with
  | .ok (_, entry) => entry.isDirectory
  | .error _ => false

/-- The content of the file at a path. -/
def readBytes (text : String) : Except FileError ByteArray := do
  match ← host.locate text with
  | (_, .directory) => throw .isADirectory
  | (_, .file content) => return content

/-- The content of the file at a path, as a text. -/
def readText (text : String) : Except FileError String := do
  match String.fromUTF8? (← host.readBytes text) with
  | some content => return content
  | none => throw .notUtf8

/-- The directory that a path ends in, and its last step. -/
def split (path : Path) : Except FileError (Position × PathStep) := do
  match path.steps.getLast? with
  | none => if path.absolute then return (⟨[], 0⟩, .here) else throw .notFound
  | some last =>
    let p ← host.walk path path.steps.dropLast
    let _ ← host.step p .here
    return (p, last)

/-- Makes the directory at a path, below a directory that is there. -/
def makeDirectory (path : Path) : Except FileError Host := do
  match ← host.split path with
  | (p, .name name) =>
    if p.lost ≠ 0 then throw .notFound
    if (host.entry? (name :: p.place)).isSome then throw .alreadyThere
    return { host with entries := host.entries.insert (name :: p.place) .directory }
  | _ => throw .alreadyThere

/-- Replaces the content of the file at a path, or makes a file there. -/
def writeBytes (text : String) (content : ByteArray) : Except FileError Host := do
  let path := Path.ofText text
  match ← host.split path with
  | (p, .name name) =>
    if path.trailing then throw .isADirectory
    if p.lost ≠ 0 then throw .notFound
    if (host.entry? (name :: p.place)).any (·.isDirectory) then throw .isADirectory
    return { host with entries := host.entries.insert (name :: p.place) (.file content) }
  | _ => throw .isADirectory

/-- Replaces the content of the file at a path by a text. -/
def writeText (text content : String) : Except FileError Host := host.writeBytes text content.toUTF8

/-- Whether walking a path as it stands leads to a directory. -/
def leadsToDirectory (path : Path) : Bool :=
  match host.walk path path.steps with
  | .ok p => (host.at? p).any (·.isDirectory)
  | .error _ => false

/-- Makes a directory after those above it, if it turns out that they are missing; a directory that
is there already is fine. -/
def ensureWith (above : Host → Host × Except FileError Unit) (path : Path) :
    Host × Except FileError Unit :=
  match host.makeDirectory path with
  | .ok host => (host, .ok ())
  | .error .notFound =>
    match above host with
    | (host, .error e) => (host, .error e)
    | (host, .ok ()) =>
      match host.makeDirectory path with
      | .ok host => (host, .ok ())
      | .error e => (host, if host.leadsToDirectory path then .ok () else .error e)
  | .error e => (host, if host.leadsToDirectory path then .ok () else .error e)

/-- Makes the directories on the way that some steps take, the last step given first. -/
def ensureSteps (absolute : Bool) : List PathStep → Host → Host × Except FileError Unit
  | [], host => (host, .ok ())
  | last :: above, host =>
    host.ensureWith (ensureSteps absolute above) ⟨absolute, (last :: above).reverse, false⟩

/-- Makes the directory at a path together with the directories above it. -/
def makeDirectories (text : String) : Host × Except FileError Unit :=
  let path := Path.ofText text
  if path.isEmpty then (host, .ok ())
  else host.ensureWith (ensureSteps path.absolute path.components.reverse.tail) path

/-- Removes the directory at a path with everything below it. Whoever stays there is lost. -/
def removeDirectory (text : String) : Except FileError Host := do
  match ← host.locate text with
  | (_, .file _) => throw .notADirectory
  | (p, .directory) =>
    let entries := host.entries.filter fun place _ => !p.place.isSuffixOf place
    let current := host.current
    let lost :=
      if p.place.isSuffixOf current.place then
        max current.lost (current.place.length - p.place.length + 1)
      else current.lost
    return { host with entries, current := { current with lost } }

/-- Removes the file at a path. -/
def removeFile (text : String) : Except FileError Host := do
  match ← host.locate text with
  | (_, .directory) => throw .isADirectory
  | (p, .file _) => return { host with entries := host.entries.erase p.place }

/-- Makes the directory at a path the current one. -/
def changeDirectory (text : String) : Except FileError Host := do
  match ← host.locate text with
  | (_, .file _) => throw .notADirectory
  | (p, .directory) => return { host with current := p }

/-- The path of the current directory. -/
def currentDirectory : Except FileError String :=
  if host.current.lost = 0 then
    .ok ("/" ++ String.intercalate "/" host.current.place.reverse)
  else .error .notFound

/-- The directory that holds the settings of all programs. -/
def configDirectory : String :=
  match host.configHome with
  | some dir => if dir.startsWith "/" then dir else Path.join host.home ".config"
  | none => Path.join host.home ".config"

end Host

end StateReplica
