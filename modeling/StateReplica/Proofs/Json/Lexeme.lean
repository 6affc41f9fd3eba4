import Mathlib.Data.List.TakeWhile
import StateReplica.Json.Scan

/-!
How the words of a JSON text are spelled: blanks, the letters of strings, and numbers. A spelling is
built so that it cannot be wrong, and says nothing of the scanner. Scanning a spelled word takes
exactly its text (`scanString_text`, `scanNumber_text`), and whatever the scanner takes without a fault
is a spelled word (`exists_letters`, `exists_numberText`).

A number does not say where it ends, so it is scanned as it stands only before a text that does not
go on like a number (`Stops`).
-/

namespace StateReplica.Json

/-! ### Blanks -/

/-- The blanks between two words. -/
abbrev Blanks := { cs : List Char // ∀ c ∈ cs, isBlank c = true }

/-- No blanks. -/
def Blanks.none : Blanks := ⟨[], fun _ h => nomatch h⟩

@[simp] theorem skipBlanks_nil : skipBlanks [] = [] := rfl

@[simp] theorem skipBlanks_append (b : Blanks) (cs : List Char) :
    skipBlanks (b.1 ++ cs) = skipBlanks cs :=
  List.dropWhile_append_of_pos b.2

theorem skipBlanks_cons {c : Char} (h : isBlank c = false) (cs : List Char) :
    skipBlanks (c :: cs) = c :: cs :=
  List.dropWhile_cons_of_neg (by rw [h]; exact Bool.false_ne_true)

/-- A text begins with the blanks that are skipped. -/
theorem exists_blanks (cs : List Char) : ∃ b : Blanks, cs = b.1 ++ skipBlanks cs :=
  ⟨⟨cs.takeWhile isBlank, fun _ h => List.mem_takeWhile_imp h⟩,
    List.takeWhile_append_dropWhile.symm⟩

/-! ### Strings -/

/-- A letter of a string: a character as it is, an escape of one letter, or a code unit in four
hexadecimal digits. -/
inductive Letter
  | plain (c : Char) (allowed : c ≠ '"' ∧ c ≠ '\\' ∧ 0x20 ≤ c.toNat)
  | escape (c d : Char) (stands : escaped? c = some d)
  | unit (a b c d : Char) (u : Nat) (stands : unit? a b c d = some u)

namespace Letter

/-- What a letter is written as. -/
def text : Letter → List Char
  | plain c _ => [c]
  | escape c _ _ => ['\\', c]
  | unit a b c d _ _ => ['\\', 'u', a, b, c, d]

/-- What a letter stands for. -/
def piece : Letter → Piece
  | plain c _ => .char c
  | escape _ d _ => .char d
  | unit _ _ _ _ u _ => .unit u

end Letter

/-- The text of the letters of a string, with the quote that closes it. -/
def lettersText (ls : List Letter) : List Char := ls.flatMap Letter.text ++ ['"']

/-- The two readings of a string. Its surrogate escapes may not pair up. -/
def lettersToken (ls : List Letter) : Token String :=
  ⟨(joinPieces none (ls.map Letter.piece)).map String.ofList, .ok ()⟩

theorem scanPieces_letter (l : Letter) (cs : List Char) :
    scanPieces (l.text ++ cs) = (l.piece :: (scanPieces cs).1, (scanPieces cs).2) := by
  cases l with
  | plain c allowed =>
    obtain ⟨quote, backslash, space⟩ := allowed
    rw [Letter.text, List.singleton_append, scanPieces, if_neg (Nat.not_lt.mpr space)]
    · rfl
    · exact quote
    · exact fun eq _ => backslash eq
    · exact fun _ _ _ _ _ eq _ => backslash eq
    · exact fun _ eq _ => backslash eq
    · exact fun _ _ eq _ => backslash eq
  | escape c d stands =>
    have other : c ≠ 'u' := by rintro rfl; cases stands
    rw [Letter.text, List.cons_append, List.singleton_append, scanPieces]
    · rw [stands]; rfl
    · exact fun _ _ _ _ _ eq _ => other eq
    · exact other
  | unit a b c d u stands =>
    show scanPieces ('\\' :: 'u' :: a :: b :: c :: d :: cs) = _
    rw [scanPieces, stands]
    rfl

theorem scanPieces_text (ls : List Letter) (rest : List Char) :
    scanPieces (lettersText ls ++ rest) = (ls.map Letter.piece, .ok rest) := by
  induction ls with
  | nil => rw [lettersText, List.flatMap_nil, List.nil_append, List.singleton_append, scanPieces]; rfl
  | cons l ls ih =>
    have split : lettersText (l :: ls) ++ rest = l.text ++ (lettersText ls ++ rest) := by
      simp only [lettersText, List.flatMap_cons, List.append_assoc]
    rw [split, scanPieces_letter, ih, List.map_cons]

/-- **A spelled string is scanned as it is spelled.** -/
theorem scanString_text (ls : List Letter) (rest : List Char) :
    scanString (lettersText ls ++ rest) = (lettersToken ls, some rest) := by
  rw [scanString, scanPieces_text]
  rfl

/-- Pieces that end with a quote are letters. -/
theorem exists_letters_of_scanPieces {cs rest : List Char} {ps : List Piece}
    (h : scanPieces cs = (ps, .ok rest)) :
    ∃ ls : List Letter, cs = lettersText ls ++ rest ∧ ps = ls.map Letter.piece := by
  -- a letter before letters
  have more (l : Letter) {cs : List Char} {ps : List Piece}
      (h : ∃ ls : List Letter, cs = lettersText ls ++ rest ∧ ps = ls.map Letter.piece) :
      ∃ ls : List Letter, l.text ++ cs = lettersText ls ++ rest ∧
        l.piece :: ps = ls.map Letter.piece := by
    obtain ⟨ls, rfl, rfl⟩ := h
    exact ⟨l :: ls, by simp only [lettersText, List.flatMap_cons, List.append_assoc], rfl⟩
  fun_induction scanPieces cs generalizing ps with
  | case1 => cases h
  | case2 cs =>
    cases h
    exact ⟨[], rfl, rfl⟩
  | case3 => cases h
  | case4 => cases h
  | case5 a b c d cs u stands ps' rest' eq ih =>
    cases h
    exact more (.unit a b c d u stands) (ih eq)
  | case6 => cases h
  | case7 => cases h
  | case8 c cs other notUnit d stands ps' rest' eq ih =>
    cases h
    exact more (.escape c d stands) (ih eq)
  | case9 => cases h
  | case10 c cs quote final _ _ escape space ps' rest' eq ih =>
    cases h
    have backslash : c ≠ '\\' := fun isBackslash => by
      cases cs with
      | nil => exact final isBackslash rfl
      | cons d cs => exact escape d cs isBackslash rfl
    exact more (.plain c ⟨quote, backslash, Nat.not_lt.mp space⟩) (ih eq)

/-- **What is scanned as a string is spelled as one.** -/
theorem exists_letters {cs rest : List Char} {token : Token String}
    (h : scanString cs = (token, some rest)) :
    ∃ ls : List Letter, cs = lettersText ls ++ rest ∧ token = lettersToken ls := by
  rw [scanString] at h
  split at h
  next ps rest' scanned =>
    cases h
    obtain ⟨ls, rfl, rfl⟩ := exists_letters_of_scanPieces scanned
    exact ⟨ls, rfl, rfl⟩
  next => cases h

/-! ### Numbers -/

/-- A run of decimal digits. -/
structure Digits where
  chars : List Char
  ne_nil : chars ≠ []
  isDigit : ∀ d ∈ chars, d.isDigit = true

/-- The sign of an exponent, which may be left out. -/
inductive ExponentSign
  | none
  | plus
  | minus

def ExponentSign.text : ExponentSign → List Char
  | .none => []
  | .plus => ['+']
  | .minus => ['-']

def ExponentSign.isNegative : ExponentSign → Bool
  | .minus => true
  | _ => false

/-- An exponent, marked by a letter of either case. -/
structure Exponent where
  capital : Bool
  sign : ExponentSign
  digits : Digits

/-- The sign and the digits of an exponent. -/
def Exponent.parts (e : Exponent) : Bool × List Char := (e.sign.isNegative, e.digits.chars)

def Exponent.text (e : Exponent) : List Char :=
  (if e.capital then 'E' else 'e') :: e.sign.text ++ e.digits.chars

/-- A number as it is written. A zero that begins it is not followed by another digit. -/
structure NumberText where
  negative : Bool
  whole : Digits
  plain : ∀ d ds, whole.chars ≠ '0' :: d :: ds
  fraction : Option Digits
  exponent : Option Exponent

namespace NumberText

variable (n : NumberText)

def fractionText : Option Digits → List Char
  | none => []
  | some ds => '.' :: ds.chars

def exponentText : Option Exponent → List Char
  | none => []
  | some e => e.text

/-- What a number is written as. -/
def text : List Char :=
  (if n.negative then ['-'] else []) ++
    (n.whole.chars ++ (fractionText n.fraction ++ exponentText n.exponent))

/-- The parts of a number that its value depends on. -/
def numeral : Numeral where
  negative := n.negative
  whole := n.whole.chars
  fraction := (n.fraction.map (·.chars)).getD []
  exponent := n.exponent.map Exponent.parts

/-- The two readings of a number. It may be too large. -/
def token : Token Number := ⟨n.numeral.value, .ok ()⟩

end NumberText

/-- Whether a number may go on with a character. -/
def continuesNumber (c : Char) : Bool := c.isDigit || c = '.' || c = 'e' || c = 'E'

/-- A text that no number before it goes on with. -/
def Stops (cs : List Char) : Prop := ∀ c ∈ cs.head?, continuesNumber c = false

theorem stops_nil : Stops [] := nofun

theorem stops_cons {c : Char} (h : continuesNumber c = false) (cs : List Char) : Stops (c :: cs) := by
  rintro _ ⟨⟩
  exact h

theorem Stops.not_continues {c : Char} {cs : List Char} (h : Stops (c :: cs)) :
    continuesNumber c = false := h c rfl

theorem Stops.not_isDigit {cs : List Char} (h : Stops cs) : ∀ c ∈ cs.head?, c.isDigit = false := by
  intro c mem
  have stops := h c mem
  simp only [continuesNumber, Bool.or_eq_false_iff] at stops
  exact stops.1.1.1

/-- Digits before a text that begins with none are all that is taken of them. -/
theorem Digits.span (ds : Digits) {rest : List Char} (h : ∀ c ∈ rest.head?, c.isDigit = false) :
    (ds.chars ++ rest).takeWhile Char.isDigit = ds.chars ∧
      (ds.chars ++ rest).dropWhile Char.isDigit = rest := by
  rw [List.takeWhile_append_of_pos ds.isDigit, List.dropWhile_append_of_pos ds.isDigit]
  cases rest with
  | nil => exact ⟨List.append_nil _, rfl⟩
  | cons c rest =>
    have stop : ¬c.isDigit = true := Bool.eq_false_iff.mp (h c rfl)
    rw [List.takeWhile_cons_of_neg stop, List.dropWhile_cons_of_neg stop]
    exact ⟨List.append_nil _, rfl⟩

/-- The digits that are taken off a text. -/
theorem exists_digits {cs : List Char} (h : cs.takeWhile Char.isDigit ≠ []) :
    ∃ ds : Digits, ds.chars = cs.takeWhile Char.isDigit ∧
      cs = ds.chars ++ cs.dropWhile Char.isDigit :=
  ⟨⟨_, h, fun _ mem => List.mem_takeWhile_imp mem⟩, rfl, List.takeWhile_append_dropWhile.symm⟩

/-- A text that begins with digits begins with no other character. -/
theorem Digits.append_ne (ds : Digits) {c : Char} (other : c.isDigit = false) (rest cs : List Char) :
    ds.chars ++ rest ≠ c :: cs := by
  intro eq
  obtain ⟨d, chars, digits⟩ := List.exists_cons_of_ne_nil ds.ne_nil
  rw [digits] at eq
  obtain rfl : d = c := (List.cons.inj eq).1
  exact Bool.eq_false_iff.mp other (ds.isDigit d (digits ▸ List.mem_cons_self))

/-- Scans the digits of an exponent of known sign. -/
def scanExponentDigits (n : Numeral) (negative : Bool) (cs : List Char) :
    Token Number × Option (List Char) :=
  match cs.takeWhile Char.isDigit with
  | [] => (digitWanted cs, none)
  | ds => (⟨Numeral.value { n with exponent := some (negative, ds) }, .ok ()⟩,
      some (cs.dropWhile Char.isDigit))

/-- Scans an exponent after its mark. -/
def scanExponentAfterMark (n : Numeral) : List Char → Token Number × Option (List Char)
  | '+' :: cs => scanExponentDigits n false cs
  | '-' :: cs => scanExponentDigits n true cs
  | cs => scanExponentDigits n false cs

theorem scanExponent_eq (n : Numeral) (cs : List Char) :
    scanExponent n cs = match cs with
      | 'e' :: cs => scanExponentAfterMark n cs
      | 'E' :: cs => scanExponentAfterMark n cs
      | cs => (⟨n.value, .ok ()⟩, some cs) := rfl

theorem scanExponentDigits_text (n : Numeral) (negative : Bool) (ds : Digits) {rest : List Char}
    (stops : Stops rest) :
    scanExponentDigits n negative (ds.chars ++ rest) =
      (⟨Numeral.value { n with exponent := some (negative, ds.chars) }, .ok ()⟩, some rest) := by
  obtain ⟨take, drop⟩ := ds.span stops.not_isDigit
  rw [scanExponentDigits, take, drop]
  split
  next eq => exact absurd eq ds.ne_nil
  next => rfl

theorem scanExponent_text (n : Numeral) (bare : n.exponent = none) (e : Option Exponent)
    {rest : List Char} (stops : Stops rest) :
    scanExponent n (NumberText.exponentText e ++ rest) =
      (⟨Numeral.value { n with exponent := e.map Exponent.parts }, .ok ()⟩, some rest) := by
  rw [scanExponent_eq]
  cases e with
  | none =>
    rw [NumberText.exponentText, List.nil_append, Option.map_none, ← bare]
    split
    next => cases stops.not_continues
    next => cases stops.not_continues
    next => rfl
  | some e =>
    obtain ⟨capital, sign, ds⟩ := e
    have marked : scanExponentAfterMark n (sign.text ++ ds.chars ++ rest) =
        (⟨Numeral.value { n with exponent := some (sign.isNegative, ds.chars) }, .ok ()⟩,
          some rest) := by
      cases sign with
      | none =>
        rw [← scanExponentDigits_text n _ ds stops, ExponentSign.text, List.nil_append,
          scanExponentAfterMark]
        · rfl
        · exact ds.append_ne (by decide) rest
        · exact ds.append_ne (by decide) rest
      | plus => exact scanExponentDigits_text n _ ds stops
      | minus => exact scanExponentDigits_text n _ ds stops
    cases capital with
    | false => exact marked
    | true => exact marked

/-- What stands behind the fraction of a number begins an exponent or does not belong to it. -/
theorem head_exponentText (e : Option Exponent) {rest : List Char} {c : Char}
    (h : c ∈ (NumberText.exponentText e ++ rest).head?) : c = 'e' ∨ c = 'E' ∨ c ∈ rest.head? := by
  cases e with
  | none => exact .inr (.inr h)
  | some e =>
    obtain ⟨capital, sign, ds⟩ := e
    cases capital with
    | false => cases h; exact .inl rfl
    | true => cases h; exact .inr (.inl rfl)

/-- What stands behind the whole part begins a fraction or comes behind it. -/
theorem head_fractionText (fraction : Option Digits) {rest : List Char} {c : Char}
    (h : c ∈ (NumberText.fractionText fraction ++ rest).head?) : c = '.' ∨ c ∈ rest.head? := by
  cases fraction with
  | none => exact .inr h
  | some ds => cases h; exact .inl rfl

theorem scanFraction_text (negative : Bool) (whole : List Char) (fraction : Option Digits)
    (e : Option Exponent) {rest : List Char} (stops : Stops rest) :
    scanFraction negative whole
        (NumberText.fractionText fraction ++ (NumberText.exponentText e ++ rest)) =
      (⟨Numeral.value ⟨negative, whole, (fraction.map (·.chars)).getD [], e.map Exponent.parts⟩,
        .ok ()⟩, some rest) := by
  cases fraction with
  | none =>
    rw [NumberText.fractionText, List.nil_append, scanFraction]
    · exact scanExponent_text _ rfl e stops
    · intro cs eq
      rcases head_exponentText e (c := '.') (by rw [eq]; rfl) with point | point | point
      · cases point
      · cases point
      · cases stops '.' point
  | some ds =>
    have noDigit : ∀ c ∈ (NumberText.exponentText e ++ rest).head?, c.isDigit = false := by
      intro c mem
      rcases head_exponentText e mem with rfl | rfl | mem
      · rfl
      · rfl
      · exact stops.not_isDigit c mem
    obtain ⟨take, drop⟩ := ds.span noDigit
    rw [NumberText.fractionText, List.cons_append, scanFraction, take, drop]
    split
    next eq => exact absurd eq ds.ne_nil
    next => exact scanExponent_text _ rfl e stops

theorem scanWhole_text (n : NumberText) {rest : List Char} (stops : Stops rest) :
    scanWhole n.negative (n.whole.chars ++
        (NumberText.fractionText n.fraction ++ (NumberText.exponentText n.exponent ++ rest))) =
      (n.token, some rest) := by
  have noDigit : ∀ c ∈ (NumberText.fractionText n.fraction ++
      (NumberText.exponentText n.exponent ++ rest)).head?, c.isDigit = false := by
    intro c mem
    rcases head_fractionText n.fraction mem with rfl | mem
    · rfl
    rcases head_exponentText n.exponent mem with rfl | rfl | mem
    · rfl
    · rfl
    · exact stops.not_isDigit c mem
  obtain ⟨take, drop⟩ := n.whole.span noDigit
  rw [scanWhole, take, drop]
  split
  next eq => exact absurd eq n.whole.ne_nil
  next eq => exact absurd eq (n.plain _ _)
  next => exact scanFraction_text n.negative n.whole.chars n.fraction n.exponent stops

/-- **A spelled number is scanned as it is spelled**, where the text does not go on with it. -/
theorem scanNumber_text (n : NumberText) {rest : List Char} (stops : Stops rest) :
    scanNumber (n.text ++ rest) = (n.token, some rest) := by
  have whole := scanWhole_text n stops
  rw [NumberText.text, List.append_assoc, List.append_assoc, List.append_assoc]
  cases sign : n.negative with
  | true =>
    rw [sign] at whole
    exact whole
  | false =>
    rw [sign] at whole
    rw [if_neg Bool.false_ne_true, List.nil_append, scanNumber]
    · exact whole
    · exact n.whole.append_ne (by decide) _

/-! What the scanner takes as a number is one. -/

theorem exists_exponent_of_digits {n : Numeral} {negative : Bool} {cs rest : List Char}
    {token : Token Number} (h : scanExponentDigits n negative cs = (token, some rest)) :
    ∃ ds : Digits, cs = ds.chars ++ rest ∧
      token = ⟨Numeral.value { n with exponent := some (negative, ds.chars) }, .ok ()⟩ := by
  rw [scanExponentDigits] at h
  split at h
  next => cases h
  next some_digit =>
    cases h
    obtain ⟨ds, eq, split⟩ := exists_digits some_digit
    exact ⟨ds, split, by rw [eq]⟩

theorem exists_exponent {n : Numeral} (bare : n.exponent = none) {cs rest : List Char}
    {token : Token Number} (h : scanExponent n cs = (token, some rest)) :
    ∃ e : Option Exponent, cs = NumberText.exponentText e ++ rest ∧
      token = ⟨Numeral.value { n with exponent := e.map Exponent.parts }, .ok ()⟩ := by
  have marked (capital : Bool) {cs : List Char}
      (h : scanExponentAfterMark n cs = (token, some rest)) :
      ∃ e : Exponent, (if capital then 'E' else 'e') :: cs = e.text ++ rest ∧
        token = ⟨Numeral.value { n with exponent := some e.parts }, .ok ()⟩ := by
    rw [scanExponentAfterMark.eq_def] at h
    split at h
    next =>
      obtain ⟨ds, rfl, rfl⟩ := exists_exponent_of_digits h
      exact ⟨⟨capital, .plus, ds⟩, rfl, rfl⟩
    next =>
      obtain ⟨ds, rfl, rfl⟩ := exists_exponent_of_digits h
      exact ⟨⟨capital, .minus, ds⟩, rfl, rfl⟩
    next =>
      obtain ⟨ds, rfl, rfl⟩ := exists_exponent_of_digits h
      exact ⟨⟨capital, .none, ds⟩, rfl, rfl⟩
  rw [scanExponent_eq] at h
  split at h
  next =>
    obtain ⟨e, eq, value⟩ := marked false h
    exact ⟨some e, eq, value⟩
  next =>
    obtain ⟨e, eq, value⟩ := marked true h
    exact ⟨some e, eq, value⟩
  next =>
    cases h
    exact ⟨none, rfl, by rw [Option.map_none, ← bare]⟩

theorem exists_fraction {negative : Bool} {whole cs rest : List Char} {token : Token Number}
    (h : scanFraction negative whole cs = (token, some rest)) :
    ∃ (fraction : Option Digits) (e : Option Exponent),
      cs = NumberText.fractionText fraction ++ (NumberText.exponentText e ++ rest) ∧
      token = ⟨Numeral.value ⟨negative, whole, (fraction.map (·.chars)).getD [],
        e.map Exponent.parts⟩, .ok ()⟩ := by
  rw [scanFraction.eq_def] at h
  split at h
  next cs =>
    split at h
    next => cases h
    next some_digit =>
      obtain ⟨ds, eq, split⟩ := exists_digits some_digit
      obtain ⟨e, drop, value⟩ := exists_exponent rfl h
      refine ⟨some ds, e, ?_, ?_⟩
      · rw [NumberText.fractionText, List.cons_append, ← drop, ← split]
      · rw [value, Option.map_some, eq]
        rfl
  next =>
    obtain ⟨e, rfl, rfl⟩ := exists_exponent rfl h
    exact ⟨none, e, rfl, rfl⟩

theorem exists_whole {negative : Bool} {cs rest : List Char} {token : Token Number}
    (h : scanWhole negative cs = (token, some rest)) :
    ∃ n : NumberText, n.negative = negative ∧ token = n.token ∧ cs = n.whole.chars ++
      (NumberText.fractionText n.fraction ++ (NumberText.exponentText n.exponent ++ rest)) := by
  rw [scanWhole] at h
  split at h
  next => cases h
  next => cases h
  next some_digit plain =>
    obtain ⟨ds, eq, split⟩ := exists_digits some_digit
    obtain ⟨fraction, e, drop, value⟩ := exists_fraction h
    refine ⟨⟨negative, ds, fun d ds' => ?_, fraction, e⟩, rfl, ?_, ?_⟩
    · rw [eq]
      exact plain d ds'
    · rw [← eq] at value
      exact value
    · rw [← drop, ← split]

/-- **What is scanned as a number is spelled as one.** -/
theorem exists_numberText {cs rest : List Char} {token : Token Number}
    (h : scanNumber cs = (token, some rest)) :
    ∃ n : NumberText, cs = n.text ++ rest ∧ token = n.token := by
  rw [scanNumber.eq_def] at h
  split at h
  next =>
    obtain ⟨n, sign, rfl, rfl⟩ := exists_whole h
    exact ⟨n, by simp [NumberText.text, sign], rfl⟩
  next =>
    obtain ⟨n, sign, rfl, rfl⟩ := exists_whole h
    exact ⟨n, by simp [NumberText.text, sign], rfl⟩

end StateReplica.Json
