import StateReplica.Json.Problem

/-!
Scanned JSON texts. A `Tree` is what is known of a text before anybody asks what type it is to be
read as: its values in the order of the text, with every fault left at the place where it occurs.
Whoever walks a tree from left to right meets the faults in the order of the text, so the first
problem on the walk is the first problem of the text.

A word of the text has two kinds of reader. One wants its value; the other only passes over it, and
is content with less: it accepts a string whose surrogate escapes do not pair up and a number too
large for any type. A `Token` keeps both answers.
-/

namespace StateReplica.Json

/-- A word of the text, as the two kinds of reader see it. -/
structure Token (α : Type) where
  /-- What a reader of the word gets. -/
  value : Except Fault α
  /-- What one who passes over the word gets. -/
  passed : Except Fault Unit

/-- The three words that are values on their own. -/
inductive Literal
  | null
  | flag (value : Bool)
  deriving DecidableEq, Repr

/-- A number: an integer if it fits 64 bits with or without a sign, and a decimal otherwise. -/
inductive Number
  | integer (value : Int)
  | decimal
  deriving DecidableEq, Repr

/-- How the items of an array or the members of an object end. -/
inductive Ending
  /-- by the closing bracket -/
  | closed
  /-- by a fault -/
  | broken (fault : Fault)

/-- A scanned text. -/
inductive Tree
  | literal (word : Except Fault Literal)
  | number (token : Token Number)
  | string (token : Token String)
  | array (items : List Tree) (ending : Ending)
  | object (members : List (Token String × Tree)) (ending : Ending)
  /-- No value starts here. -/
  | broken (fault : Fault)

namespace Token

/-- A word without a fault. -/
def ok {α : Type} (value : α) : Token α := ⟨.ok value, .ok ()⟩

/-- A word that is at fault for every reader. -/
def faulty {α : Type} (fault : Fault) : Token α := ⟨.error fault, .error fault⟩

end Token

/-- The fault of an ending, if it is not the closing bracket. -/
def Ending.check : Ending → Except Fault Unit
  | .closed => .ok ()
  | .broken fault => .error fault

/-- What a word stands for. -/
def Literal.found : Literal → Found
  | .null => .null
  | .flag value => .flag value

/-- What a number stands for. -/
def Number.found : Number → Found
  | .integer value => .integer value
  | .decimal => .decimal

/-- What stands at the root of a tree. An array or an object is recognised by its first character
alone. -/
def Tree.found : Tree → Except Fault Found
  | .literal word => word.map Literal.found
  | .number token => token.value.map Number.found
  | .string token => token.value.map Found.string
  | .array _ _ => .ok .sequence
  | .object _ _ => .ok .map
  | .broken fault => .error fault

mutual

/-- Passes over a tree: the first fault that one who wants no value of it meets. -/
def Tree.pass : Tree → Except Fault Unit
  | .literal word => word.map fun _ => ()
  | .number token => token.passed
  | .string token => token.passed
  | .array items ending => do passItems items; ending.check
  | .object members ending => do passMembers members; ending.check
  | .broken fault => .error fault

/-- Passes over items, in order. -/
def passItems : List Tree → Except Fault Unit
  | [] => .ok ()
  | item :: items => do item.pass; passItems items

/-- Passes over members, in order. -/
def passMembers : List (Token String × Tree) → Except Fault Unit
  | [] => .ok ()
  | (key, value) :: members => do key.passed; value.pass; passMembers members

end

mutual

/-- Reads a tree as it stands, with room for so many levels of arrays and objects: the first fault
that one who wants every value of it meets. A bracket for which there is no room is malformed. -/
def Tree.settle : Nat → Tree → Except Fault Unit
  | _, .literal word => word.map fun _ => ()
  | _, .number token => token.value.map fun _ => ()
  | _, .string token => token.value.map fun _ => ()
  | 0, .array _ _ => .error .malformed
  | room + 1, .array items ending => do settleItems room items; ending.check
  | 0, .object _ _ => .error .malformed
  | room + 1, .object members ending => do settleMembers room members; ending.check
  | _, .broken fault => .error fault

/-- Reads items as they stand, in order. -/
def settleItems : Nat → List Tree → Except Fault Unit
  | _, [] => .ok ()
  | room, item :: items => do item.settle room; settleItems room items

/-- Reads members as they stand, in order. -/
def settleMembers : Nat → List (Token String × Tree) → Except Fault Unit
  | _, [] => .ok ()
  | room, (key, value) :: members => do
    let _ ← key.value
    value.settle room
    settleMembers room members

end

end StateReplica.Json
