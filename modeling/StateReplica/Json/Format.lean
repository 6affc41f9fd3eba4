import StateReplica.Json.Scan
import StateReplica.Json.Read

/-!
Formats: everything that can be read from a JSON text and written to one. A shape makes a format,
and so does a tagged type, whose values are records of several kinds with a member that names the
kind. The values of a tagged type are settled before they are read, for the kind need not come
first; that is why their nesting is limited.
-/

namespace StateReplica.Json

/-- A type whose values are records of several kinds, told apart by a tag. -/
structure Tagged (α : Type) where
  name : String
  /-- the name of the member that holds the tag -/
  field : String
  {Tag : Type}
  tags : Choice Tag
  {Content : Tag → Type}
  /-- what a kind of record is called where its length is wrong -/
  label : Tag → String
  fields : (tag : Tag) → Fields (Content tag)
  make : (tag : Tag) → Content tag → α
  split : α → (tag : Tag) × Content tag
  make_split (a : α) : make (split a).1 (split a).2 = a

namespace Tagged

variable {α : Type} (tagged : Tagged α)

/-- Reads a tag. -/
def readTag : Tree → Except Problem tagged.Tag
  | .string token => do tagged.tags.ofName (← orFault token.value)
  | t => mismatch t "variant identifier"

/-- Reads members up to the end of an object: the tag, which is checked as soon as it is met, and
the other members as they stand. -/
def gather (room : Nat) (found : Option tagged.Tag) : List (Token String × Tree) →
    Except Problem (Option tagged.Tag × List (Token String × Tree))
  | [] => return (found, [])
  | (key, value) :: members => do
    if (← orFault key.value) = tagged.field then
      match found with
      | some _ => throw (.duplicateField tagged.field)
      | none => gather room (some (← tagged.readTag value)) members
    else
      orFault (value.settle room)
      let (found, others) ← gather room found members
      return (found, (key, value) :: others)

/-- Reads a value with room for so many levels of arrays and objects. -/
def read : Nat → Tree → Except Problem α
  | 0, .object _ _ => throw (.fault .malformed)
  | room + 1, .object members ending => do
    let (found, members) ← tagged.gather room none members
    orFault ending.check
    match found with
    | none => throw (.missingField tagged.field)
    | some tag =>
      let fields := tagged.fields tag
      let slots ← readMembers (fields.put .settled) fields.empty members .closed
      return tagged.make tag (← fields.collect slots)
  | 0, .array _ _ => throw (.fault .malformed)
  | _ + 1, .array [] ending => do
    orFault ending.check
    throw (.missingField tagged.field)
  | room + 1, .array (tag :: items) ending => do
    let tag ← tagged.readTag tag
    orFault (settleItems room items)
    orFault ending.check
    let fields := tagged.fields tag
    let wanted := tagged.label tag ++ " with " ++ elements fields.count
    return tagged.make tag (← fields.ofItems .settled wanted 0 items .closed)
  | _, t => mismatch t tagged.name

/-- Writes a value: the tag, then the fields of its kind. -/
def write (a : α) : Json :=
  let ⟨tag, content⟩ := tagged.split a
  .object ((tagged.field, .string (tagged.tags.name tag)) :: (tagged.fields tag).write content)

end Tagged

/-- How the values of a type are read from trees and written. -/
structure Format (α : Type) where
  /-- reads a value with room for so many levels of arrays and objects -/
  read : Nat → Tree → Except Problem α
  write : α → Json

/-- The levels of arrays and objects a text may have where values are settled before they are
read. -/
def nestingRoom : Nat := 127

/-- The format of a shape. -/
def Shape.format {α : Type} (shape : Shape α) : Format α :=
  ⟨fun _ => shape.read .direct, shape.write⟩

/-- The format of a tagged type. -/
def Tagged.format {α : Type} (tagged : Tagged α) : Format α := ⟨tagged.read, tagged.write⟩

namespace Format

variable {α : Type} (format : Format α)

/-- The format of an array. -/
def list : Format (List α) :=
  ⟨fun room => readList (format.read (room - 1)), fun as => .array (as.map format.write)⟩

/-- Reads the value that a text consists of. What follows the value is looked at last. -/
def parse (text : String) : Except Problem α := do
  let (t, rest) := scan text.toList
  let a ← format.read nestingRoom t
  if rest.any fun cs => (skipBlanks cs).isEmpty then return a else throw (.fault .malformed)

/-- The text of a value without blanks. -/
def compact (a : α) : String := (format.write a).compact

/-- The text of a value on several lines. -/
def pretty (a : α) : String := (format.write a).pretty

end Format

end StateReplica.Json
