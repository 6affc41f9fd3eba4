import StateReplica.Text.Quoted

/-!
What can be wrong with a JSON text that is read as a value of some type. A `Fault` is a defect of
the text as JSON; every other `Problem` is a text that is well formed up to the place in question
but does not hold what was wanted there. Readers stop at the first problem they meet.
-/

namespace StateReplica.Json

/-- A text that is not JSON: it ends too early, or something else stands where JSON has to go on. -/
inductive Fault
  | cut
  | malformed
  deriving DecidableEq, Repr

/-- What stands at a place of the text. A decimal is any number that is not a 64-bit integer; its
value is not kept. -/
inductive Found
  | null
  | flag (value : Bool)
  | integer (value : Int)
  | decimal
  | string (value : String)
  | sequence
  | map
  deriving DecidableEq, Repr

/-- Why a text is not a value of the type it is read as. -/
inductive Problem
  | fault (fault : Fault)
  | missingField (name : String)
  | duplicateField (name : String)
  | unknownVariant (given : String) (known : List String)
  | invalidType (found : Found) (wanted : String)
  | invalidValue (found : Found) (wanted : String)
  | invalidLength (length : Nat) (wanted : String)
  deriving DecidableEq, Repr

/-- The name of a fault. -/
def Fault.message : Fault → String
  | .cut => "<eof>"
  | .malformed => "<syntax>"

/-- What was found, in words. -/
def Found.message : Found → String
  | .null => "null"
  | .flag true => "boolean `true`"
  | .flag false => "boolean `false`"
  | .integer value => s!"integer `{value}`"
  | .decimal => "floating point `<float>`"
  | .string value => "string " ++ Text.quoted value
  | .sequence => "sequence"
  | .map => "map"

/-- A choice among names, in words. -/
def oneOf : List String → String
  | [] => "nothing"
  | [a] => s!"`{a}`"
  | [a, b] => s!"`{a}` or `{b}`"
  | names => "one of " ++ String.intercalate ", " (names.map fun name => s!"`{name}`")

/-- A problem, in words. -/
def Problem.message : Problem → String
  | .fault f => f.message
  | .missingField name => s!"missing field `{name}`"
  | .duplicateField name => s!"duplicate field `{name}`"
  | .unknownVariant given known => s!"unknown variant `{given}`, expected " ++ oneOf known
  | .invalidType found wanted => "invalid type: " ++ found.message ++ ", expected " ++ wanted
  | .invalidValue found wanted => "invalid value: " ++ found.message ++ ", expected " ++ wanted
  | .invalidLength length wanted => s!"invalid length {length}, expected " ++ wanted

/-- A number of elements, in words. -/
def elements (n : Nat) : String := if n = 1 then "1 element" else s!"{n} elements"

end StateReplica.Json
