import StateReplica.Json.Tree

/-!
Numbers of a JSON text. A numeral is scanned into its parts first; its value is then an integer if
it is written without point and exponent and fits 64 bits, with or without a sign, and a decimal
otherwise. The negative zero is a decimal. A decimal that is too large for a double is malformed.

Whether a decimal is too large is decided the way doubles are computed here: as many leading digits
as fit 64 bits make the significand, the digits before the point that are left over count for the
power of ten only, and significand and power are rounded to doubles before they are multiplied.
-/

namespace StateReplica.Json

/-- The value of a decimal digit. -/
def digitValue (c : Char) : Nat := c.toNat - '0'.toNat

/-- The value of a run of decimal digits. -/
def digitsValue (ds : List Char) : Nat := ds.foldl (fun n d => 10 * n + digitValue d) 0

/-- The largest number of 64 bits. -/
def maxWord : Nat := UInt64.size - 1

/-- A scanned number: its sign, the digits before the point, those after it if there is a point, and
the exponent with its sign. -/
structure Numeral where
  negative : Bool
  whole : List Char
  fraction : List Char
  exponent : Option (Bool × List Char)
  deriving DecidableEq, Repr

namespace Numeral

/-- Takes digits into a significand for as long as it fits 64 bits, and returns it with the number
of digits that were taken. -/
def gather (significand : Nat) : List Char → Nat × Nat
  | [] => (significand, 0)
  | d :: ds =>
    if 10 * significand + digitValue d ≤ maxWord then
      let (s, taken) := gather (10 * significand + digitValue d) ds
      (s, taken + 1)
    else (significand, 0)

/-- The significand of a decimal and the power of ten it is scaled by. -/
def scaled (n : Numeral) : Nat × Int :=
  let (s, taken) := gather 0 n.whole
  let (s', places) := gather s n.fraction
  let power := match n.exponent with
    | none => 0
    | some (true, ds) => -(digitsValue ds : Int)
    | some (false, ds) => (digitsValue ds : Int)
  (s', (n.whole.length - taken : Nat) - (places : Int) + power)

/-- A natural number rounded to the 53 bits of a double, ties to even. -/
def toDouble (n : Nat) : Nat :=
  let shift := (Nat.log2 n + 1) - 53
  let unit := Nat.pow 2 shift
  let q := n / unit
  let r := n % unit
  if 2 * r > unit ∨ (2 * r = unit ∧ q % 2 = 1) then (q + 1) * unit else q * unit

/-- The least number that no longer rounds to a double. -/
def doubleLimit : Nat := Nat.pow 2 1024 - Nat.pow 2 970

/-- Whether a significand scaled by a power of ten is too large for a double. -/
def overflows (significand : Nat) (power : Int) : Bool :=
  match power with
  | .negSucc _ => false
  | .ofNat p =>
    if significand = 0 then false
    else if 308 < p then true
    else doubleLimit ≤ toDouble significand * toDouble (Nat.pow 10 p)

/-- The integer that a numeral writes, if it writes one: there is neither point nor exponent, and
the number fits 64 bits with or without a sign. -/
def integer? (n : Numeral) : Option Int :=
  let word := digitsValue n.whole
  if !n.fraction.isEmpty || n.exponent.isSome then none
  else if !n.negative && word ≤ maxWord then some word
  else if n.negative && 1 ≤ word && word ≤ Nat.pow 2 63 then some (-word)
  else none

/-- What a numeral is worth. -/
def value (n : Numeral) : Except Fault Number :=
  match n.integer? with
  | some i => .ok (.integer i)
  | none => if overflows n.scaled.1 n.scaled.2 then .error .malformed else .ok .decimal

end Numeral

/-- Why a text that starts like a number is none: it ends where a digit has to stand, or something
else stands there. One who passes over a number takes both for the same. -/
def digitWanted : List Char → Token Number
  | [] => ⟨.error .cut, .error .malformed⟩
  | _ :: _ => Token.faulty .malformed

/-- Scans the exponent of a number, if there is one. -/
def scanExponent (n : Numeral) (cs : List Char) : Token Number × Option (List Char) :=
  let finish (n : Numeral) (rest : List Char) := (⟨n.value, .ok ()⟩, some rest)
  let signed (negative : Bool) (cs : List Char) :=
    match cs.takeWhile Char.isDigit with
    | [] => (digitWanted cs, none)
    | ds => finish { n with exponent := some (negative, ds) } (cs.dropWhile Char.isDigit)
  let marked (cs : List Char) := match cs with
    | '+' :: cs => signed false cs
    | '-' :: cs => signed true cs
    | cs => signed false cs
  match cs with
  | 'e' :: cs => marked cs
  | 'E' :: cs => marked cs
  | cs => finish n cs

/-- Scans the rest of a number whose sign and digits before the point are known. -/
def scanFraction (negative : Bool) (whole : List Char) :
    List Char → Token Number × Option (List Char)
  | '.' :: cs =>
    match cs.takeWhile Char.isDigit with
    | [] => (digitWanted cs, none)
    | ds => scanExponent ⟨negative, whole, ds, none⟩ (cs.dropWhile Char.isDigit)
  | cs => scanExponent ⟨negative, whole, [], none⟩ cs

/-- Scans a number after its sign. A zero is not followed by another digit. -/
def scanWhole (negative : Bool) (cs : List Char) : Token Number × Option (List Char) :=
  match cs.takeWhile Char.isDigit with
  | [] => (digitWanted cs, none)
  | '0' :: _ :: _ => (Token.faulty .malformed, none)
  | ds => scanFraction negative ds (cs.dropWhile Char.isDigit)

/-- Scans a number: its two readings and, unless it is at fault, the text after it. -/
def scanNumber : List Char → Token Number × Option (List Char)
  | '-' :: cs => scanWhole true cs
  | cs => scanWhole false cs

end StateReplica.Json
