import StateReplica.Json.Tree

/-!
Strings of a JSON text. The text between the quotes is scanned into pieces, characters and code
units of sixteen bits; a reader of the string then joins every pair of surrogate units into one
character. One who passes over the string does not look at the units.
-/

namespace StateReplica.Json

/-- A piece of a string: a character, or a code unit written as an escape. -/
inductive Piece
  | char (c : Char)
  | unit (u : Nat)
  deriving DecidableEq, Repr

/-- The value of a hexadecimal digit. -/
def hexValue? (c : Char) : Option Nat :=
  if '0' ≤ c ∧ c ≤ '9' then some (c.toNat - '0'.toNat)
  else if 'a' ≤ c ∧ c ≤ 'f' then some (c.toNat - 'a'.toNat + 10)
  else if 'A' ≤ c ∧ c ≤ 'F' then some (c.toNat - 'A'.toNat + 10)
  else none

/-- The code unit that four hexadecimal digits write. -/
def unit? (a b c d : Char) : Option Nat := do
  let a ← hexValue? a
  let b ← hexValue? b
  let c ← hexValue? c
  let d ← hexValue? d
  return ((a * 16 + b) * 16 + c) * 16 + d

/-- The character that an escape of one letter writes. -/
def escaped? : Char → Option Char
  | '"' => some '"'
  | '\\' => some '\\'
  | '/' => some '/'
  | 'b' => some '\x08'
  | 'f' => some '\x0c'
  | 'n' => some '\n'
  | 'r' => some '\r'
  | 't' => some '\t'
  | _ => none

/-- The fault of a code unit that has no four characters left: the text is cut unless at least four
bytes of it remain. -/
def shortUnit (cs : List Char) : Fault :=
  if cs.foldl (fun size c => size + c.utf8Size) 0 < 4 then .cut else .malformed

/-- Scans the pieces of a string up to its closing quote: the pieces before the first fault, and the
text after the quote or that fault. -/
def scanPieces : List Char → List Piece × Except Fault (List Char)
  | [] => ([], .error .cut)
  | '"' :: cs => ([], .ok cs)
  | ['\\'] => ([], .error .cut)
  | '\\' :: 'u' :: a :: b :: c :: d :: cs =>
    match unit? a b c d with
    | none => ([], .error .malformed)
    | some u => let (ps, rest) := scanPieces cs; (.unit u :: ps, rest)
  | '\\' :: 'u' :: cs => ([], .error (shortUnit cs))
  | '\\' :: c :: cs =>
    match escaped? c with
    | none => ([], .error .malformed)
    | some c => let (ps, rest) := scanPieces cs; (.char c :: ps, rest)
  | c :: cs =>
    if c.toNat < 0x20 then ([], .error .malformed)
    else let (ps, rest) := scanPieces cs; (.char c :: ps, rest)

/-- Whether a code unit is the first half of a surrogate pair. -/
def isLeading (u : Nat) : Bool := 0xD800 ≤ u && u ≤ 0xDBFF

/-- Whether a code unit is the second half of a surrogate pair. -/
def isTrailing (u : Nat) : Bool := 0xDC00 ≤ u && u ≤ 0xDFFF

/-- Joins the pieces of a string into its characters. The fault that ended the pieces, if there was
one, is met after them. -/
def joinPieces (fault : Option Fault) : List Piece → Except Fault (List Char)
  | [] => match fault with
    | none => .ok []
    | some fault => .error fault
  | .char c :: ps => do return c :: (← joinPieces fault ps)
  | .unit u :: .unit v :: ps =>
    if isTrailing u then .error .malformed
    else if isLeading u then
      if isTrailing v then do
        return Char.ofNat (0x10000 + (u - 0xD800) * 0x400 + (v - 0xDC00)) :: (← joinPieces fault ps)
      else .error .malformed
    else do return Char.ofNat u :: (← joinPieces fault (.unit v :: ps))
  | .unit u :: ps =>
    if isTrailing u then .error .malformed
    else if isLeading u then
      match ps, fault with
      | [], some .cut => .error .cut
      | _, _ => .error .malformed
    else do return Char.ofNat u :: (← joinPieces fault ps)

/-- Scans a string after its opening quote: its two readings and, unless it is at fault for all
readers, the text after its closing quote. -/
def scanString (cs : List Char) : Token String × Option (List Char) :=
  match scanPieces cs with
  | (ps, .ok rest) => (⟨(joinPieces none ps).map String.ofList, .ok ()⟩, some rest)
  | (ps, .error fault) => (⟨(joinPieces (some fault) ps).map String.ofList, .error fault⟩, none)

end StateReplica.Json
