/-!
Paths as texts. A path is absolute or relative and takes steps from name to name; empty steps do
not count. A slash at the end asks for a directory.

A name may hold every character but the slash and be of any length. The hosts in use have fewer
names: one that holds the character NUL is refused as invalid there, and one that is too long as too
long. Here both are names like any other.
-/

namespace StateReplica

/-- One step of a path. -/
inductive PathStep
  | here
  | up
  | name (name : String)
  deriving DecidableEq, Repr

/-- A path as it is walked. -/
structure Path where
  absolute : Bool
  steps : List PathStep
  /-- whether the text ends in a slash -/
  trailing : Bool
  deriving DecidableEq, Repr

namespace Path

/-- The step that a part of the text between slashes writes, if it writes one. -/
def step? (part : String) : Option PathStep :=
  if part = "" then none
  else if part = "." then some .here
  else if part = ".." then some .up
  else some (.name part)

/-- The path that a text writes. -/
def ofText (text : String) : Path where
  absolute := text.startsWith "/"
  steps := (text.toList.splitOn '/').filterMap fun part => step? (.ofList part)
  trailing := text.endsWith "/"

/-- Whether there is nothing at all to walk. -/
def isEmpty (p : Path) : Bool := !p.absolute && p.steps.isEmpty

/-- The steps of a path without those that stay where they are, except for one at the very
beginning of a relative path. -/
def components (p : Path) : List PathStep :=
  match p.absolute, p.steps with
  | false, .here :: steps => .here :: steps.filter (· ≠ .here)
  | _, steps => steps.filter (· ≠ .here)

/-- The text of a file below a directory. A separator is put between them where there is none; an
absolute file does not depend on the directory. -/
def join (base file : String) : String :=
  if file.startsWith "/" then file
  else if base.isEmpty || base.endsWith "/" then base ++ file
  else base ++ "/" ++ file

end Path

end StateReplica
