import StateReplica.Json.Numeral
import StateReplica.Json.Escape

/-!
From a JSON text to its tree. Scanning stops at the first fault that every reader meets; the tree
ends there, and no text is left over. The fuel of the mutual functions bounds the nesting and the
number of items; `scan` gives as much of it as any text needs.
-/

namespace StateReplica.Json

/-- The characters that may stand between two words. -/
def isBlank (c : Char) : Bool := c = ' ' || c = '\n' || c = '\t' || c = '\r'

/-- Drops the blanks a text begins with. -/
def skipBlanks (cs : List Char) : List Char := cs.dropWhile isBlank

/-- Scans the letters of a literal that are still to come. -/
def scanLiteral (word : Literal) : List Char → List Char → Tree × Option (List Char)
  | [], cs => (.literal (.ok word), some cs)
  | _ :: _, [] => (.literal (.error .cut), none)
  | l :: ls, c :: cs =>
    if c = l then scanLiteral word ls cs else (.literal (.error .malformed), none)

/-- Scans a value that is neither an array nor an object. -/
def scanLeaf : List Char → Tree × Option (List Char)
  | [] => (.broken .cut, none)
  | 'n' :: cs => scanLiteral .null ['u', 'l', 'l'] cs
  | 't' :: cs => scanLiteral (.flag true) ['r', 'u', 'e'] cs
  | 'f' :: cs => scanLiteral (.flag false) ['a', 'l', 's', 'e'] cs
  | '"' :: cs => let (token, rest) := scanString cs; (.string token, rest)
  | c :: cs =>
    if c = '-' || c.isDigit then let (token, rest) := scanNumber (c :: cs); (.number token, rest)
    else (.broken .malformed, none)

mutual

/-- Scans a value. -/
def scanValue : Nat → List Char → Tree × Option (List Char)
  | 0, _ => (.broken .cut, none)
  | fuel + 1, cs =>
    match skipBlanks cs with
    | '[' :: cs =>
      match skipBlanks cs with
      | [] => (.array [] (.broken .cut), none)
      | ']' :: cs => (.array [] .closed, some cs)
      | cs =>
        let (items, ending, rest) := scanItems fuel cs
        (.array items ending, rest)
    | '{' :: cs =>
      match skipBlanks cs with
      | [] => (.object [] (.broken .cut), none)
      | '}' :: cs => (.object [] .closed, some cs)
      | '"' :: cs =>
        let (members, ending, rest) := scanMembers fuel cs
        (.object members ending, rest)
      -- only names are scanned here: a value that stands in their place is not looked into
      | _ => (.object [] (.broken .malformed), none)
    | cs => scanLeaf cs

/-- Scans the items of an array, from the first character of one of them. -/
def scanItems : Nat → List Char → List Tree × Ending × Option (List Char)
  | 0, _ => ([], .broken .cut, none)
  | fuel + 1, cs =>
    match scanValue fuel cs with
    | (item, none) => ([item], .broken .cut, none)
    | (item, some cs) =>
      match skipBlanks cs with
      | [] => ([item], .broken .cut, none)
      | ']' :: cs => ([item], .closed, some cs)
      | ',' :: cs =>
        let (items, ending, rest) := scanItems fuel cs
        (item :: items, ending, rest)
      | _ => ([item], .broken .malformed, none)

/-- Scans the members of an object, from the first character of the name of one of them. A comma
at the very end of the text promises a member whose name is cut. -/
def scanMembers : Nat → List Char → List (Token String × Tree) × Ending × Option (List Char)
  | 0, _ => ([], .broken .cut, none)
  | fuel + 1, cs =>
    match scanString cs with
    | (key, none) => ([(key, .broken .cut)], .broken .cut, none)
    | (key, some cs) =>
      match skipBlanks cs with
      | [] => ([(key, .broken .cut)], .broken .cut, none)
      | ':' :: cs =>
        match scanValue fuel cs with
        | (value, none) => ([(key, value)], .broken .cut, none)
        | (value, some cs) =>
          match skipBlanks cs with
          | [] => ([(key, value)], .broken .cut, none)
          | '}' :: cs => ([(key, value)], .closed, some cs)
          | ',' :: cs =>
            match skipBlanks cs with
            | [] => ([(key, value), (Token.faulty .cut, .broken .cut)], .broken .cut, none)
            | '"' :: cs =>
              let (members, ending, rest) := scanMembers fuel cs
              ((key, value) :: members, ending, rest)
            | _ => ([(key, value)], .broken .malformed, none)
          | _ => ([(key, value)], .broken .malformed, none)
      | _ => ([(key, .broken .malformed)], .broken .cut, none)

end

/-- Scans the first value of a text: its tree and, unless scanning stopped at a fault, the text
after it. -/
def scan (cs : List Char) : Tree × Option (List Char) := scanValue (2 * cs.length + 2) cs

end StateReplica.Json
