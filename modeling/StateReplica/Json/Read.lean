import StateReplica.Json.Shape

/-!
Reading values from trees. A reader walks the tree from left to right and stops at the first problem
it meets. There are two modes. In the direct mode the values are read while the text is; in the
settled mode the tree has been read as it stands before, so that it holds no fault, and only then
asked for the values. The modes differ in four places:

* a choice that is written neither as a string nor as an object is malformed in the direct mode and
  of the wrong type in the settled one;
* a choice that is written as an object without exactly one member is malformed in the direct mode
  and an invalid value in the settled one;
* the value of that member is null, or, in the settled mode only, an empty object;
* a record that is written as an array with too many items is malformed in the direct mode and of
  the wrong length in the settled one.

An object must go on with the quote of a name or be closed. That holds of a choice that is written as
an object no less than of a record: its name is read as the name of a member and not as a value, so a
value of another type in its place is not of the wrong type, and a word that is cut there is not cut.
Both are malformed at their first character.
-/

namespace StateReplica.Json

/-- Whether values are read while the text is, or from a tree that was read before. -/
inductive Mode
  | direct
  | settled
  deriving DecidableEq, Repr

/-- The outcome of a check of the text, as the outcome of reading it. -/
def orFault {α : Type} (outcome : Except Fault α) : Except Problem α := outcome.mapError .fault

/-- The problem of a tree that holds something else than what was wanted. -/
def mismatch {α : Type} (t : Tree) (wanted : String) : Except Problem α := do
  throw (.invalidType (← orFault t.found) wanted)

/-- Reads a number of a word. -/
def Word.read {α : Type} (word : Word α) : Tree → Except Problem α
  | .number token => do
    match ← orFault token.value with
    | .integer i =>
      if 0 ≤ i ∧ i.toNat < word.size then return word.ofNat i.toNat
      else throw (.invalidValue (.integer i) word.name)
    | .decimal => throw (.invalidType .decimal word.name)
  | t => mismatch t word.name

/-- Reads a truth value. -/
def readFlag : Tree → Except Problem Bool
  | .literal (.ok (.flag b)) => return b
  | t => mismatch t "a boolean"

/-- Reads a string. -/
def readString : Tree → Except Problem String
  | .string token => orFault token.value
  | t => mismatch t "a string"

/-- Reads an object of strings. Of two members of one name the later one counts. -/
def readProperties : Tree → Except Problem Properties
  | .object members ending => do
    let ps ← members.foldlM (fun (ps : Properties) (key, value) => do
      let name ← orFault key.value
      let text ← readString value
      return ps.insert name text) ∅
    orFault ending.check
    return ps
  | t => mismatch t "a map"

/-- Reads the value that stands beside the name of a choice in an object. -/
def readUnit : Mode → Tree → Except Problem Unit
  | _, .literal (.ok .null) => return ()
  | .settled, .object [] _ => return ()
  | _, t => mismatch t "unit"

namespace Choice

variable {α : Type} (choice : Choice α)

/-- The value of a name, or the problem that there is none. -/
def ofName (name : String) : Except Problem α :=
  match choice.ofName? name with
  | some a => return a
  | none => throw (.unknownVariant name choice.names)

/-- Reads a name while the text is read. An object without members is that of a text in which no name
follows the brace; its ending says what follows instead. -/
def readDirect : Tree → Except Problem α
  | .string token => do choice.ofName (← orFault token.value)
  | .object ((key, value) :: members) ending => do
    let a ← choice.ofName (← orFault key.value)
    readUnit .direct value
    match members, ending with
    | [], .closed => return a
    | [], .broken .cut => throw (.fault .cut)
    | _, _ => throw (.fault .malformed)
  | .object [] (.broken f) => throw (.fault f)
  | .broken f => throw (.fault f)
  | _ => throw (.fault .malformed)

/-- Reads a name from a settled tree. -/
def readSettled : Tree → Except Problem α
  | .string token => do choice.ofName (← orFault token.value)
  | .object [(key, value)] _ => do
    let a ← choice.ofName (← orFault key.value)
    readUnit .settled value
    return a
  | .object _ _ => throw (.invalidValue .map "map with a single key")
  | t => mismatch t "string or map"

/-- Reads a name. -/
def read : Mode → Tree → Except Problem α
  | .direct => choice.readDirect
  | .settled => choice.readSettled

end Choice

/-- Reads the items of an array, in order. -/
def readItems {α : Type} (read : Tree → Except Problem α) (items : List Tree) (ending : Ending) :
    Except Problem (List α) := do
  let as ← items.mapM read
  orFault ending.check
  return as

/-- Reads an array. -/
def readList {α : Type} (read : Tree → Except Problem α) : Tree → Except Problem (List α)
  | .array items ending => readItems read items ending
  | t => mismatch t "a sequence"

/-- What is known of the fields of a record while it is read from an object: a slot for each of
them, empty as long as the field has not been met. -/
def Fields.Slots : {β : Type} → Fields β → Type
  | _, .done => Unit
  | _, .required (α := α) _ _ rest => Option α × rest.Slots
  | _, .defaulted (α := α) _ _ _ rest => Option α × rest.Slots
  | _, .optional (α := α) _ _ rest => Option (Option α) × rest.Slots

/-- The slots before anything is read. -/
def Fields.empty : {β : Type} → (fields : Fields β) → fields.Slots
  | _, .done => ()
  | _, .required _ _ rest => (none, rest.empty)
  | _, .defaulted _ _ _ rest => (none, rest.empty)
  | _, .optional _ _ rest => (none, rest.empty)

/-- The values of the fields once the object is read. The first field that is missing and cannot be
filled in is the problem. -/
def Fields.collect : {β : Type} → (fields : Fields β) → fields.Slots → Except Problem β
  | _, .done => fun _ => return ()
  | _, .required name _ rest => fun (slot, slots) => do
    match slot with
    | some a => return (a, ← rest.collect slots)
    | none => throw (.missingField name)
  | _, .defaulted _ _ fill rest => fun (slot, slots) => do
    return (slot.getD fill, ← rest.collect slots)
  | _, .optional _ _ rest => fun (slot, slots) => do
    return (slot.join, ← rest.collect slots)

/-- Puts a value into an empty slot. -/
def fill {α : Type} (name : String) (slot : Option α) (value : Except Problem α) :
    Except Problem (Option α) :=
  match slot with
  | some _ => throw (.duplicateField name)
  | none => value.map some

/-- Reads what stands for an absent value or for a present one. -/
def readOptional {α : Type} (read : Tree → Except Problem α) : Tree → Except Problem (Option α)
  | .literal (.ok .null) => return none
  | t => (read t).map some

/-- What is wrong with an array after the last field of a record was read from it; so many items
were read. -/
def surplus (mode : Mode) (count : Nat) (items : List Tree) (ending : Ending) :
    Except Problem Unit :=
  match mode, items, ending with
  | .direct, [], .closed => return ()
  | .direct, [], .broken .cut => throw (.fault .cut)
  | .direct, _, _ => throw (.fault .malformed)
  | .settled, [], _ => return ()
  | .settled, _ :: _, _ =>
    throw (.invalidLength (count + items.length) (elements count ++ " in sequence"))

/-- What comes of a field for which an array has no item any more: the fault the array ends with, or
else what the field is filled with. -/
def lacking {α : Type} (wanted : String) (index : Nat) (ending : Ending) (value : Option α) :
    Except Problem α := do
  orFault ending.check
  match value with
  | some a => return a
  | none => throw (.invalidLength index wanted)

/-- Fills slots from the members of an object, in their order; `put` is what fills one slot. A
member that has no slot is passed over. -/
def readMembers {σ : Type} (put : σ → String → Tree → Option (Except Problem σ)) (slots : σ)
    (members : List (Token String × Tree)) (ending : Ending) : Except Problem σ := do
  let slots ← members.foldlM (fun slots (key, value) => do
    let name ← orFault key.value
    match put slots name value with
    | some outcome => outcome
    | none => orFault value.pass; return slots) slots
  orFault ending.check
  return slots

mutual

/-- Reads a value. -/
def Shape.read (mode : Mode) : {α : Type} → Shape α → Tree → Except Problem α
  | _, .word word, t => word.read t
  | _, .flag, t => readFlag t
  | _, .string, t => readString t
  | _, .choice choice, t => choice.read mode t
  | _, .list item, t => readList (item.read mode) t
  | _, .properties, t => readProperties t
  | _, .record name fields make _ _, t => do
    let name := "struct " ++ name
    match t with
    | .object members ending =>
      return make (← fields.collect (← readMembers (fields.put mode) fields.empty members ending))
    | .array items ending =>
      return make (← fields.ofItems mode (name ++ " with " ++ elements fields.count) 0 items ending)
    | t => mismatch t name
termination_by structural _ shape => shape

/-- Reads a member into the slot of its field; there is none for a name that no field has. A name
that comes again is the problem before its value is looked at. -/
def Fields.put (mode : Mode) : {β : Type} → (fields : Fields β) → fields.Slots → String → Tree →
    Option (Except Problem fields.Slots)
  | _, .done => fun _ _ _ => none
  | _, .required field shape rest => fun (slot, slots) name t =>
    if name = field then some ((fill name slot (shape.read mode t)).map (·, slots))
    else (rest.put mode slots name t).map (·.map (slot, ·))
  | _, .defaulted field shape _ rest => fun (slot, slots) name t =>
    if name = field then some ((fill name slot (shape.read mode t)).map (·, slots))
    else (rest.put mode slots name t).map (·.map (slot, ·))
  | _, .optional field shape rest => fun (slot, slots) name t =>
    if name = field then some ((fill name slot (readOptional (shape.read mode) t)).map (·, slots))
    else (rest.put mode slots name t).map (·.map (slot, ·))

/-- Reads the fields of a record from the items of an array, from the field of some index on. -/
def Fields.ofItems (mode : Mode) : {β : Type} → Fields β → String → Nat → List Tree → Ending →
    Except Problem β
  | _, .done, _, index, items, ending => surplus mode index items ending
  | _, .required _ shape rest, wanted, index, items, ending => do
    let a ← match items with
      | [] => lacking wanted index ending none
      | t :: _ => shape.read mode t
    return (a, ← rest.ofItems mode wanted (index + 1) items.tail ending)
  | _, .defaulted _ shape fill rest, wanted, index, items, ending => do
    let a ← match items with
      | [] => lacking wanted index ending (some fill)
      | t :: _ => shape.read mode t
    return (a, ← rest.ofItems mode wanted (index + 1) items.tail ending)
  | _, .optional _ shape rest, wanted, index, items, ending => do
    let a ← match items with
      | [] => lacking wanted index ending (some none)
      | t :: _ => readOptional (shape.read mode) t
    return (a, ← rest.ofItems mode wanted (index + 1) items.tail ending)

end

end StateReplica.Json
