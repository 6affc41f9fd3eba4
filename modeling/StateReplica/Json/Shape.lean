import StateReplica.Json.Tree
import StateReplica.Json.Value
import Std.Data.ExtTreeMap

/-!
Shapes: how the values of a type are written in JSON. A record type is described once, by the list
of its fields; reading it from an object or from an array, filling in what is missing and writing it
all follow from that description.
-/

namespace StateReplica

/-- Texts by name, in the order of the names. -/
abbrev Properties := Std.ExtTreeMap String String

namespace Json

/-- A type of natural numbers below a bound. -/
structure Word (α : Type) where
  name : String
  size : Nat
  ofNat : Nat → α
  toNat : α → Nat
  toNat_lt (a : α) : toNat a < size
  toNat_ofNat {n : Nat} : n < size → toNat (ofNat n) = n
  ofNat_toNat (a : α) : ofNat (toNat a) = a

namespace Word

/-- The numbers of 64 bits. -/
def u64 : Word UInt64 where
  name := "u64"
  size := UInt64.size
  ofNat := UInt64.ofNat
  toNat := UInt64.toNat
  toNat_lt := UInt64.toNat_lt_size
  toNat_ofNat := UInt64.toNat_ofNat_of_lt
  ofNat_toNat := fun _ => UInt64.ofNat_toNat

/-- The numbers of 32 bits. -/
def u32 : Word UInt32 where
  name := "u32"
  size := UInt32.size
  ofNat := UInt32.ofNat
  toNat := UInt32.toNat
  toNat_lt := UInt32.toNat_lt_size
  toNat_ofNat := UInt32.toNat_ofNat_of_lt
  ofNat_toNat := fun _ => UInt32.ofNat_toNat

/-- The numbers of 16 bits. -/
def u16 : Word UInt16 where
  name := "u16"
  size := UInt16.size
  ofNat := UInt16.ofNat
  toNat := UInt16.toNat
  toNat_lt := UInt16.toNat_lt_size
  toNat_ofNat := UInt16.toNat_ofNat_of_lt
  ofNat_toNat := fun _ => UInt16.ofNat_toNat

end Word

/-- A type of finitely many values that are written by name. -/
structure Choice (α : Type) where
  /-- The values, in the order in which they are offered. -/
  all : List α
  name : α → String
  mem_all (a : α) : a ∈ all
  name_injective {a b : α} : name a = name b → a = b

namespace Choice

variable {α : Type} (choice : Choice α)

/-- The names, in the order in which they are offered. -/
def names : List String := choice.all.map choice.name

/-- The value of a name. -/
def ofName? (name : String) : Option α := choice.all.find? fun a => choice.name a = name

end Choice

mutual

/-- How the values of a type are written. -/
inductive Shape : Type → Type 1
  | word {α : Type} (word : Word α) : Shape α
  | flag : Shape Bool
  | string : Shape String
  | choice {α : Type} (choice : Choice α) : Shape α
  | list {α : Type} (item : Shape α) : Shape (List α)
  /-- an object of strings -/
  | properties : Shape Properties
  /-- a record of some name, made of its fields and split into them again -/
  | record {α β : Type} (name : String) (fields : Fields β) (make : β → α) (split : α → β)
      (make_split : ∀ a, make (split a) = a) : Shape α

/-- The fields of a record, in order. -/
inductive Fields : Type → Type 1
  | done : Fields Unit
  /-- a field that has to be there -/
  | required {α β : Type} (name : String) (shape : Shape α) (rest : Fields β) : Fields (α × β)
  /-- a field that is filled in if it is missing -/
  | defaulted {α β : Type} (name : String) (shape : Shape α) (fill : α) (rest : Fields β) :
      Fields (α × β)
  /-- a field that may have no value; it is then missing or null, and is not written -/
  | optional {α β : Type} (name : String) (shape : Shape α) (rest : Fields β) :
      Fields (Option α × β)

end

/-- The number of fields. -/
def Fields.count : {β : Type} → Fields β → Nat
  | _, .done => 0
  | _, .required _ _ rest => rest.count + 1
  | _, .defaulted _ _ _ rest => rest.count + 1
  | _, .optional _ _ rest => rest.count + 1

/-- The names of the fields, in order. -/
def Fields.names : {β : Type} → Fields β → List String
  | _, .done => []
  | _, .required name _ rest => name :: rest.names
  | _, .defaulted name _ _ rest => name :: rest.names
  | _, .optional name _ rest => name :: rest.names

mutual

/-- Writes a value. -/
def Shape.write : {α : Type} → Shape α → α → Json
  | _, .word word, a => .number (word.toNat a)
  | _, .flag, b => .flag b
  | _, .string, s => .string s
  | _, .choice choice, a => .string (choice.name a)
  | _, .list item, as => .array (as.map item.write)
  | _, .properties, ps => .object (ps.toList.map fun p => (p.1, .string p.2))
  | _, .record _ fields _ split _, a => .object (fields.write (split a))

/-- Writes the values of fields as members of an object. -/
def Fields.write : {β : Type} → Fields β → β → List (String × Json)
  | _, .done, () => []
  | _, .required name shape rest, (a, b) => (name, shape.write a) :: rest.write b
  | _, .defaulted name shape _ rest, (a, b) => (name, shape.write a) :: rest.write b
  | _, .optional name shape rest, (some a, b) => (name, shape.write a) :: rest.write b
  | _, .optional _ _ rest, (none, b) => rest.write b

end

end Json

end StateReplica
