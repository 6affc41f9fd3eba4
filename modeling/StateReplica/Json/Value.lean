import StateReplica.Json.Problem

/-!
JSON values and their two layouts. The compact layout has no blanks at all; the pretty one puts
every item and member on a line of its own, two spaces deeper than the bracket around it, and a
space after every colon. Both write an empty array or object as a pair of brackets. Only quotes,
backslashes and the characters before the space are escaped in strings.
-/

namespace StateReplica

/-- A JSON value. The members of an object are written in the order in which they stand. -/
inductive Json
  | null
  | flag (value : Bool)
  | number (value : Int)
  | string (value : String)
  | array (items : List Json)
  | object (members : List (String × Json))

namespace Json

/-- How a value is laid out. -/
inductive Layout
  | compact
  | pretty
  deriving DecidableEq, Repr

/-- What stands before an item at so many levels. -/
def Layout.gap : Layout → Nat → List Char
  | .compact, _ => []
  | .pretty, level => '\n' :: List.replicate (2 * level) ' '

/-- What stands between the name of a member and its value. -/
def Layout.colon : Layout → List Char
  | .compact => [':']
  | .pretty => [':', ' ']

/-- How one character of a string is written. -/
def escapeChar (c : Char) : List Char :=
  if c = '"' then ['\\', '"']
  else if c = '\\' then ['\\', '\\']
  else if c = '\x08' then ['\\', 'b']
  else if c = '\t' then ['\\', 't']
  else if c = '\n' then ['\\', 'n']
  else if c = '\x0c' then ['\\', 'f']
  else if c = '\r' then ['\\', 'r']
  else if c.toNat < 0x20 then
    ['\\', 'u', '0', '0', Nat.digitChar (c.toNat / 16), Nat.digitChar (c.toNat % 16)]
  else [c]

/-- A string between its quotes. -/
def renderString (s : String) : List Char := '"' :: s.toList.flatMap escapeChar ++ ['"']

/-- A number in decimal. -/
def renderNumber : Int → List Char
  | .ofNat n => Nat.toDigits 10 n
  | .negSucc n => '-' :: Nat.toDigits 10 (n + 1)

mutual

/-- The text of a value that stands at so many levels. -/
def render (layout : Layout) (level : Nat) : Json → List Char
  | .null => ['n', 'u', 'l', 'l']
  | .flag true => ['t', 'r', 'u', 'e']
  | .flag false => ['f', 'a', 'l', 's', 'e']
  | .number n => renderNumber n
  | .string s => renderString s
  | .array [] => ['[', ']']
  | .array (item :: items) =>
    '[' :: layout.gap (level + 1) ++ item.render layout (level + 1)
      ++ renderItems layout (level + 1) items ++ layout.gap level ++ [']']
  | .object [] => ['\x7b', '\x7d']
  | .object ((key, value) :: members) =>
    '\x7b' :: layout.gap (level + 1) ++ renderString key ++ layout.colon
      ++ value.render layout (level + 1)
      ++ renderMembers layout (level + 1) members ++ layout.gap level ++ ['\x7d']

/-- The text of the items after the first. -/
def renderItems (layout : Layout) (level : Nat) : List Json → List Char
  | [] => []
  | item :: items =>
    ',' :: layout.gap level ++ item.render layout level ++ renderItems layout level items

/-- The text of the members after the first. -/
def renderMembers (layout : Layout) (level : Nat) : List (String × Json) → List Char
  | [] => []
  | (key, value) :: members =>
    ',' :: layout.gap level ++ renderString key ++ layout.colon ++ value.render layout level
      ++ renderMembers layout level members

end

/-- The name that a value gives to a member: a text itself, a number or a flag as it is written. -/
def name? : Json → Option String
  | .string s => some s
  | .number n => some (String.ofList (renderNumber n))
  | .flag b => some (toString b)
  | _ => none

/-- The object whose members are named by values, if every one of those can name a member. -/
def ofEntries? (entries : List (Json × Json)) : Option Json := do
  let members ← entries.mapM fun (key, value) => do return (← key.name?, value)
  return .object members

/-- The text of a value without blanks. -/
def compact (value : Json) : String := String.ofList (value.render .compact 0)

/-- The text of a value on several lines. -/
def pretty (value : Json) : String := String.ofList (value.render .pretty 0)

end Json

end StateReplica
