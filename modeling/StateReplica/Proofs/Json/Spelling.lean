import Mathlib.Data.List.Forall2
import StateReplica.Json.Format
import StateReplica.Proofs.Json.Lexeme

/-!
How JSON values are spelled: the grammar of JSON texts, as a type. A `Spelling` holds the text of a
value to the last blank and escape, and the tree that the text stands for can be read off it without
scanning (`Spelling.tree`). What is scanned without a fault is exactly what is spelled: scanning the
text of a spelling gives its tree (`scanValue_text`), and a tree that was scanned to its end is that of a
spelling (`exists_spelling`). For whole texts this comes to `Format.parse_eq_ok_iff`: a text is accepted
if and only if it is a spelling between blanks whose tree can be read.

Of texts that are not JSON only those are treated here that go on without a name behind the brace of an
object (`Format.parse_nameless`): what stands in the place of the name is not read.
-/

namespace StateReplica.Json

/-- An item of an array with the blanks around it. -/
structure Spaced (α : Type) where
  before : Blanks
  value : α
  after : Blanks

/-- A member of an object with the blanks around its parts. -/
structure Member (α : Type) where
  before : Blanks
  name : List Letter
  /-- before the colon -/
  inside : Blanks
  /-- behind the colon -/
  behind : Blanks
  value : α
  after : Blanks

/-- A JSON value as it is spelled. The inner blanks of an array or an object stand behind its opening
bracket. -/
inductive Spelling
  | literal (word : Literal)
  | number (text : NumberText)
  | string (letters : List Letter)
  | array (inner : Blanks) (items : List (Spaced Spelling))
  | object (inner : Blanks) (members : List (Member Spelling))

def Literal.text : Literal → List Char
  | .null => ['n', 'u', 'l', 'l']
  | .flag true => ['t', 'r', 'u', 'e']
  | .flag false => ['f', 'a', 'l', 's', 'e']

mutual

/-- The text of a spelling. -/
def Spelling.text : Spelling → List Char
  | .literal word => word.text
  | .number n => n.text
  | .string ls => '"' :: lettersText ls
  | .array inner items => '[' :: inner.1 ++ [','].intercalate (itemTexts items) ++ [']']
  | .object inner members =>
    '\x7b' :: inner.1 ++ [','].intercalate (memberTexts members) ++ ['\x7d']

/-- The texts of items. -/
def itemTexts : List (Spaced Spelling) → List (List Char)
  | [] => []
  | ⟨before, value, after⟩ :: items => (before.1 ++ value.text ++ after.1) :: itemTexts items

/-- The texts of members. -/
def memberTexts : List (Member Spelling) → List (List Char)
  | [] => []
  | ⟨before, name, inside, behind, value, after⟩ :: members =>
    (before.1 ++ '"' :: lettersText name ++ inside.1 ++ ':' :: behind.1 ++ value.text ++ after.1)
      :: memberTexts members

end

mutual

/-- The tree of a spelling. -/
def Spelling.tree : Spelling → Tree
  | .literal word => .literal (.ok word)
  | .number n => .number n.token
  | .string ls => .string (lettersToken ls)
  | .array _ items => .array (itemTrees items) .closed
  | .object _ members => .object (memberTrees members) .closed

/-- The trees of items. -/
def itemTrees : List (Spaced Spelling) → List Tree
  | [] => []
  | ⟨_, value, _⟩ :: items => value.tree :: itemTrees items

/-- The trees of members. -/
def memberTrees : List (Member Spelling) → List (Token String × Tree)
  | [] => []
  | ⟨_, name, _, _, value, _⟩ :: members => (lettersToken name, value.tree) :: memberTrees members

end

/-! ### Lists of items and members -/

def Spaced.text (i : Spaced Spelling) : List Char := i.before.1 ++ i.value.text ++ i.after.1

/-- The text of a member behind the quote that opens its name. -/
def Member.rest (m : Member Spelling) : List Char :=
  lettersText m.name ++ m.inside.1 ++ ':' :: m.behind.1 ++ m.value.text ++ m.after.1

def Member.text (m : Member Spelling) : List Char := m.before.1 ++ '"' :: m.rest

def Member.tree (m : Member Spelling) : Token String × Tree := (lettersToken m.name, m.value.tree)

theorem itemTexts_eq (items : List (Spaced Spelling)) : itemTexts items = items.map Spaced.text := by
  induction items with
  | nil => rfl
  | cons i items ih => rw [itemTexts, ih]; rfl

theorem memberTexts_eq (members : List (Member Spelling)) :
    memberTexts members = members.map Member.text := by
  induction members with
  | nil => rfl
  | cons m members ih =>
    rw [memberTexts, ih, List.map_cons, Member.text, Member.rest]
    simp only [List.cons_append, List.append_assoc]

theorem itemTrees_eq (items : List (Spaced Spelling)) :
    itemTrees items = items.map (·.value.tree) := by
  induction items with
  | nil => rfl
  | cons i items ih => rw [itemTrees, ih]; rfl

theorem memberTrees_eq (members : List (Member Spelling)) :
    memberTrees members = members.map Member.tree := by
  induction members with
  | nil => rfl
  | cons m members ih => rw [memberTrees, ih]; rfl

/-- After the first, every text has a comma before it. -/
theorem intercalate_comma (t : List Char) (ts : List (List Char)) :
    [','].intercalate (t :: ts) = t ++ ts.flatMap (',' :: ·) := by
  induction ts generalizing t with
  | nil => rw [List.intercalate_singleton, List.flatMap_nil, List.append_nil]
  | cons t' ts ih =>
    rw [List.intercalate_cons_cons, ih, List.flatMap_cons, List.append_assoc, List.singleton_append]
    rfl

namespace Spelling

/-- What is so of every item and member of a spelling if it is so of the spelling is so of all. -/
@[induction_eliminator]
theorem induction {P : Spelling → Prop} (literal : ∀ word, P (.literal word))
    (number : ∀ n, P (.number n)) (string : ∀ ls, P (.string ls))
    (array : ∀ inner items, (∀ i ∈ items, P i.value) → P (.array inner items))
    (object : ∀ inner members, (∀ m ∈ members, P m.value) → P (.object inner members)) (x : Spelling) :
    P x :=
  @Spelling.rec P (fun items => ∀ i ∈ items, P i.value) (fun members => ∀ m ∈ members, P m.value)
    (fun i => P i.value) (fun m => P m.value) literal number string array object nofun
    (fun _ _ head tail => List.forall_mem_cons.mpr ⟨head, tail⟩) nofun
    (fun _ _ head tail => List.forall_mem_cons.mpr ⟨head, tail⟩) (fun _ _ _ h => h)
    (fun _ _ _ _ _ _ h => h) x

theorem text_array (inner : Blanks) (items : List (Spaced Spelling)) :
    (array inner items).text =
      '[' :: inner.1 ++ [','].intercalate (items.map Spaced.text) ++ [']'] := by
  rw [text, itemTexts_eq]

theorem text_object (inner : Blanks) (members : List (Member Spelling)) :
    (object inner members).text =
      '\x7b' :: inner.1 ++ [','].intercalate (members.map Member.text) ++ ['\x7d'] := by
  rw [text, memberTexts_eq]

theorem tree_array (inner : Blanks) (items : List (Spaced Spelling)) :
    (array inner items).tree = .array (items.map (·.value.tree)) .closed := by
  rw [tree, itemTrees_eq]

theorem tree_object (inner : Blanks) (members : List (Member Spelling)) :
    (object inner members).tree = .object (members.map Member.tree) .closed := by
  rw [tree, memberTrees_eq]

end Spelling

/-! ### Scanning what is spelled -/

theorem isBlank_of_isDigit {c : Char} (h : c.isDigit = true) : isBlank c = false := by
  by_contra blank
  simp only [isBlank, Bool.not_eq_false, Bool.or_eq_true, decide_eq_true_eq] at blank
  rcases blank with ((rfl | rfl) | rfl) | rfl <;> cases h

/-- A number begins with its sign or a digit. -/
theorem NumberText.head (n : NumberText) :
    ∃ c cs, n.text = c :: cs ∧ (c = '-' ∨ c.isDigit = true) := by
  obtain ⟨d, ds, digits⟩ := List.exists_cons_of_ne_nil n.whole.ne_nil
  cases sign : n.negative with
  | true => exact ⟨'-', _, by rw [text, sign]; rfl, .inl rfl⟩
  | false =>
    refine ⟨d, ds ++ (fractionText n.fraction ++ exponentText n.exponent), ?_,
      .inr (n.whole.isDigit d (digits ▸ List.mem_cons_self))⟩
    rw [text, sign, digits]
    rfl

theorem not_blank_of_number {c : Char} (h : c = '-' ∨ c.isDigit = true) : isBlank c = false := by
  rcases h with rfl | digit
  · rfl
  · exact isBlank_of_isDigit digit

/-- What begins a number begins no other word. -/
theorem ne_of_number {c : Char} (h : c = '-' ∨ c.isDigit = true) {l : Char}
    (noDigit : l.isDigit = false) (noSign : l ≠ '-') : c ≠ l := by
  rintro rfl
  rcases h with sign | digit
  · exact noSign sign
  · rw [noDigit] at digit
    cases digit

/-- A spelling begins with a character that is neither a blank nor closes an array. -/
theorem Spelling.head (x : Spelling) :
    ∃ c cs, x.text = c :: cs ∧ isBlank c = false ∧ c ≠ ']' := by
  cases x with
  | literal word =>
    cases word with
    | null => exact ⟨_, _, rfl, rfl, by decide⟩
    | flag b => cases b <;> exact ⟨_, _, rfl, rfl, by decide⟩
  | number n =>
    obtain ⟨c, cs, eq, number⟩ := n.head
    exact ⟨c, cs, eq, not_blank_of_number number, ne_of_number number rfl (by decide)⟩
  | string ls => exact ⟨_, _, rfl, rfl, by decide⟩
  | array inner items => exact ⟨_, _, rfl, rfl, by decide⟩
  | object inner members => exact ⟨_, _, rfl, rfl, by decide⟩

@[simp] theorem scanValue_blanks (fuel : Nat) (b : Blanks) (cs : List Char) :
    scanValue fuel (b.1 ++ cs) = scanValue fuel cs := by
  cases fuel with
  | zero => rw [scanValue, scanValue]
  | succ fuel => rw [scanValue, scanValue, skipBlanks_append]

@[simp] theorem scanItems_blanks (fuel : Nat) (b : Blanks) (cs : List Char) :
    scanItems fuel (b.1 ++ cs) = scanItems fuel cs := by
  cases fuel with
  | zero => rw [scanItems, scanItems]
  | succ fuel => rw [scanItems, scanItems, scanValue_blanks]

theorem scanValue_bracket (fuel : Nat) (cs : List Char) :
    scanValue (fuel + 1) ('[' :: cs) =
      match skipBlanks cs with
      | [] => (.array [] (.broken .cut), none)
      | ']' :: cs => (.array [] .closed, some cs)
      | cs =>
        let (items, ending, rest) := scanItems fuel cs
        (.array items ending, rest) := by
  rw [scanValue, skipBlanks_cons rfl]
  rfl

theorem scanValue_brace (fuel : Nat) (cs : List Char) :
    scanValue (fuel + 1) ('\x7b' :: cs) =
      match skipBlanks cs with
      | [] => (.object [] (.broken .cut), none)
      | '\x7d' :: cs => (.object [] .closed, some cs)
      | '"' :: cs =>
        let (members, ending, rest) := scanMembers fuel cs
        (.object members ending, rest)
      | _ => (.object [] (.broken .malformed), none) := by
  rw [scanValue, skipBlanks_cons rfl]
  rfl

/-- An object that neither goes on with a name nor is closed ends there, whatever follows. -/
theorem scanValue_nameless {c : Char} (blank : isBlank c = false) (quote : c ≠ '"')
    (closed : c ≠ '\x7d') (fuel : Nat) (inside : Blanks) (cs : List Char) :
    scanValue (fuel + 1) ('\x7b' :: (inside.1 ++ c :: cs)) =
      (.object [] (.broken .malformed), none) := by
  rw [scanValue_brace, skipBlanks_append, skipBlanks_cons blank]
  split
  next eq => cases eq
  next eq => exact absurd (List.cons.inj eq).1 closed
  next eq => exact absurd (List.cons.inj eq).1 quote
  next => rfl

/-- Scanning comes to the first character of a word that is neither an array nor an object. -/
theorem scanValue_leaf {c : Char} (blank : isBlank c = false) (array : c ≠ '[') (object : c ≠ '\x7b')
    (fuel : Nat) (cs : List Char) : scanValue (fuel + 1) (c :: cs) = scanLeaf (c :: cs) := by
  rw [scanValue, skipBlanks_cons blank]
  split
  next eq => exact absurd (List.cons.inj eq).1 array
  next eq => exact absurd (List.cons.inj eq).1 object
  next => rfl

/-- What begins like a number is scanned as one. -/
theorem scanValue_of_number {c : Char} (number : c = '-' ∨ c.isDigit = true) (fuel : Nat)
    (cs : List Char) : scanValue (fuel + 1) (c :: cs) =
      (.number (scanNumber (c :: cs)).1, (scanNumber (c :: cs)).2) := by
  have signOrDigit : (c = '-' || c.isDigit) = true := by
    rw [Bool.or_eq_true, decide_eq_true_iff]
    exact number
  rw [scanValue_leaf (not_blank_of_number number) (ne_of_number number rfl (by decide))
    (ne_of_number number rfl (by decide)), scanLeaf, if_pos signOrDigit]
  · exact ne_of_number number rfl (by decide)
  · exact ne_of_number number rfl (by decide)
  · exact ne_of_number number rfl (by decide)
  · exact ne_of_number number rfl (by decide)

theorem scanValue_literal (word : Literal) (fuel : Nat) (rest : List Char) :
    scanValue (fuel + 1) (word.text ++ rest) = (.literal (.ok word), some rest) := by
  cases word with
  | null => exact scanValue_leaf (by decide) (by decide) (by decide) fuel _
  | flag b => cases b <;> exact scanValue_leaf (by decide) (by decide) (by decide) fuel _

theorem scanValue_number (n : NumberText) (fuel : Nat) {rest : List Char} (stops : Stops rest) :
    scanValue (fuel + 1) (n.text ++ rest) = (.number n.token, some rest) := by
  obtain ⟨c, cs, eq, number⟩ := n.head
  have scanned := scanNumber_text n stops
  rw [eq, List.cons_append] at scanned ⊢
  rw [scanValue_of_number number, scanned]

theorem scanValue_string (ls : List Letter) (fuel : Nat) (rest : List Char) :
    scanValue (fuel + 1) ('"' :: lettersText ls ++ rest) = (.string (lettersToken ls), some rest) := by
  rw [List.cons_append, scanValue_leaf (by decide) (by decide) (by decide), scanLeaf, scanString_text]

/-- What is claimed of scanning a spelling. -/
def Spelling.Scans (x : Spelling) : Prop :=
  ∀ (fuel : Nat) (rest : List Char), x.text.length ≤ fuel → Stops rest →
    scanValue fuel (x.text ++ rest) = (x.tree, some rest)

theorem stops_comma (cs : List Char) : Stops (',' :: cs) := stops_cons rfl cs

theorem stops_blanks (b : Blanks) {cs : List Char} (h : Stops cs) : Stops (b.1 ++ cs) := by
  obtain ⟨b, blank⟩ := b
  cases b with
  | nil => exact h
  | cons c b =>
    refine stops_cons ?_ _
    have : isBlank c = true := blank c List.mem_cons_self
    simp only [isBlank, Bool.or_eq_true, decide_eq_true_eq] at this
    rcases this with ((rfl | rfl) | rfl) | rfl <;> rfl

/-- Scanning an item leaves what stands behind it. -/
theorem scanItems_item {i : Spaced Spelling} (scans : i.value.Scans) {fuel : Nat}
    (enough : i.text.length ≤ fuel) {cs : List Char} (stops : Stops cs) :
    scanItems (fuel + 1) (i.text ++ cs) =
      match skipBlanks cs with
      | [] => ([i.value.tree], .broken .cut, none)
      | ']' :: cs => ([i.value.tree], .closed, some cs)
      | ',' :: cs =>
        let (items, ending, rest) := scanItems fuel cs
        (i.value.tree :: items, ending, rest)
      | _ => ([i.value.tree], .broken .malformed, none) := by
  have within : i.value.text.length ≤ fuel := by
    simp only [Spaced.text, List.length_append] at enough
    omega
  have value : scanValue fuel (i.text ++ cs) = (i.value.tree, some (i.after.1 ++ cs)) := by
    rw [Spaced.text, List.append_assoc, List.append_assoc, scanValue_blanks]
    exact scans fuel (i.after.1 ++ cs) within (stops_blanks i.after stops)
  rw [scanItems, ← skipBlanks_append i.after cs]
  exact value ▸ rfl

theorem scanItems_text (i : Spaced Spelling) (items : List (Spaced Spelling))
    (scans : ∀ j ∈ i :: items, j.value.Scans) (fuel : Nat) (rest : List Char)
    (enough : (i.text ++ items.flatMap (',' :: ·.text)).length < fuel) :
    scanItems fuel (i.text ++ (items.flatMap (',' :: ·.text) ++ ']' :: rest)) =
      ((i :: items).map (·.value.tree), .closed, some rest) := by
  induction items generalizing i fuel with
  | nil =>
    obtain ⟨fuel, rfl⟩ := Nat.exists_eq_add_one_of_ne_zero (Nat.ne_zero_of_lt enough)
    rw [List.flatMap_nil, List.append_nil, Nat.lt_succ_iff] at enough
    have closing : Stops (']' :: rest) := stops_cons rfl rest
    rw [List.flatMap_nil, List.nil_append, scanItems_item (scans i List.mem_cons_self) enough closing]
    rfl
  | cons j items ih =>
    obtain ⟨fuel, rfl⟩ := Nat.exists_eq_add_one_of_ne_zero (Nat.ne_zero_of_lt enough)
    simp only [List.flatMap_cons, List.length_append, List.length_cons] at enough
    have others := ih j (fun k mem => scans k (List.mem_cons_of_mem i mem)) fuel (by
      rw [List.length_append]
      omega)
    rw [List.flatMap_cons, List.append_assoc, List.cons_append,
      scanItems_item (scans i List.mem_cons_self) (by omega) (stops_comma _),
      skipBlanks_cons rfl]
    simp only [others, List.map_cons]

/-- Scanning a member leaves what stands behind it. -/
theorem scanMembers_member {m : Member Spelling} (scans : m.value.Scans) {fuel : Nat}
    (enough : m.rest.length ≤ fuel) {cs : List Char} (stops : Stops cs) :
    scanMembers (fuel + 1) (m.rest ++ cs) =
      match skipBlanks cs with
      | [] => ([m.tree], .broken .cut, none)
      | '\x7d' :: cs => ([m.tree], .closed, some cs)
      | ',' :: cs =>
        match skipBlanks cs with
        | [] => ([m.tree, (Token.faulty .cut, .broken .cut)], .broken .cut, none)
        | '"' :: cs =>
          let (members, ending, rest) := scanMembers fuel cs
          (m.tree :: members, ending, rest)
        | _ => ([m.tree], .broken .malformed, none)
      | _ => ([m.tree], .broken .malformed, none) := by
  have within : m.value.text.length ≤ fuel := by
    simp only [Member.rest, List.length_append, List.length_cons] at enough
    omega
  -- what stands behind the colon
  obtain ⟨behind, behindEq⟩ : ∃ behind, behind = m.behind.1 ++ (m.value.text ++ (m.after.1 ++ cs)) :=
    ⟨_, rfl⟩
  have name : scanString (m.rest ++ cs) =
      (lettersToken m.name, some (m.inside.1 ++ ':' :: behind)) := by
    rw [← scanString_text, behindEq]
    simp only [Member.rest, List.append_assoc, List.cons_append]
  have colon : skipBlanks (m.inside.1 ++ ':' :: behind) = ':' :: behind := by
    rw [skipBlanks_append, skipBlanks_cons rfl]
  have value : scanValue fuel behind = (m.value.tree, some (m.after.1 ++ cs)) := by
    rw [behindEq, scanValue_blanks]
    exact scans fuel (m.after.1 ++ cs) within (stops_blanks m.after stops)
  rw [scanMembers, name, ← skipBlanks_append m.after cs]
  simp only [colon]
  exact value ▸ rfl

theorem scanMembers_text (m : Member Spelling) (members : List (Member Spelling))
    (scans : ∀ n ∈ m :: members, n.value.Scans) (fuel : Nat) (rest : List Char)
    (enough : (m.rest ++ members.flatMap (',' :: ·.text)).length < fuel) :
    scanMembers fuel (m.rest ++ (members.flatMap (',' :: ·.text) ++ '\x7d' :: rest)) =
      ((m :: members).map Member.tree, .closed, some rest) := by
  induction members generalizing m fuel with
  | nil =>
    obtain ⟨fuel, rfl⟩ := Nat.exists_eq_add_one_of_ne_zero (Nat.ne_zero_of_lt enough)
    rw [List.flatMap_nil, List.append_nil, Nat.lt_succ_iff] at enough
    have closing : Stops ('\x7d' :: rest) := stops_cons rfl rest
    rw [List.flatMap_nil, List.nil_append,
      scanMembers_member (scans m List.mem_cons_self) enough closing]
    rfl
  | cons n members ih =>
    obtain ⟨fuel, rfl⟩ := Nat.exists_eq_add_one_of_ne_zero (Nat.ne_zero_of_lt enough)
    simp only [List.flatMap_cons, Member.text, List.length_append, List.length_cons] at enough
    have others := ih n (fun k mem => scans k (List.mem_cons_of_mem m mem)) fuel (by
      rw [List.length_append]
      simp only [Member.text]
      omega)
    rw [List.flatMap_cons, List.append_assoc, List.cons_append,
      scanMembers_member (scans m List.mem_cons_self) (by omega) (stops_comma _),
      skipBlanks_cons rfl, Member.text, List.append_assoc]
    simp only [skipBlanks_append, List.cons_append, skipBlanks_cons (c := '"') rfl, others,
      List.map_cons]

/-- Fuel for the text of a spelling is fuel for something. -/
theorem Spelling.exists_fuel {x : Spelling} {fuel : Nat} (enough : x.text.length ≤ fuel) :
    ∃ n, fuel = n + 1 := by
  obtain ⟨c, cs, eq, -⟩ := x.head
  rw [eq, List.length_cons] at enough
  exact Nat.exists_eq_add_one_of_ne_zero (by omega)

theorem scanValue_array (inner : Blanks) {items : List (Spaced Spelling)}
    (scans : ∀ i ∈ items, i.value.Scans) : (Spelling.array inner items).Scans := by
  intro fuel rest enough _
  obtain ⟨fuel, rfl⟩ := Spelling.exists_fuel enough
  rw [Spelling.text_array] at enough ⊢
  simp only [List.length_cons, List.length_append, List.cons_append] at enough
  simp only [List.cons_append, List.append_assoc, List.nil_append]
  rw [Spelling.tree_array, scanValue_bracket]
  cases items with
  | nil =>
    simp only [List.map_nil, List.intercalate_nil, List.nil_append, skipBlanks_append,
      skipBlanks_cons (c := ']') rfl]
  | cons i items =>
    rw [List.map_cons, intercalate_comma, List.flatMap_map] at enough ⊢
    have scanned := scanItems_text i items scans fuel rest (by
      rw [List.length_nil] at enough
      omega)
    -- the blanks before the first item are skipped here already
    have first (cs : List Char) : skipBlanks (inner.1 ++ (i.text ++ cs)) =
        i.value.text ++ (i.after.1 ++ cs) := by
      obtain ⟨c, _, eq, blank, -⟩ := i.value.head
      simp only [Spaced.text, List.append_assoc, skipBlanks_append, eq, List.cons_append,
        skipBlanks_cons blank]
    have item (cs : List Char) : scanItems fuel (i.value.text ++ (i.after.1 ++ cs)) =
        scanItems fuel (i.text ++ cs) := by
      rw [← scanItems_blanks fuel i.before, Spaced.text, List.append_assoc, List.append_assoc]
    obtain ⟨c, cs, eq, -, notClosing⟩ := i.value.head
    simp only [List.append_assoc, first]
    split
    next eq' =>
      rw [eq] at eq'
      cases eq'
    next eq' =>
      rw [eq] at eq'
      exact absurd (List.cons.inj eq').1 notClosing
    next => rw [item, scanned]

theorem scanValue_object (inner : Blanks) {members : List (Member Spelling)}
    (scans : ∀ m ∈ members, m.value.Scans) : (Spelling.object inner members).Scans := by
  intro fuel rest enough _
  obtain ⟨fuel, rfl⟩ := Spelling.exists_fuel enough
  rw [Spelling.text_object] at enough ⊢
  simp only [List.length_cons, List.length_append, List.cons_append] at enough
  simp only [List.cons_append, List.append_assoc, List.nil_append]
  rw [Spelling.tree_object, scanValue_brace]
  cases members with
  | nil =>
    simp only [List.map_nil, List.intercalate_nil, List.nil_append, skipBlanks_append,
      skipBlanks_cons (c := '\x7d') rfl]
  | cons m members =>
    rw [List.map_cons, intercalate_comma, List.flatMap_map] at enough ⊢
    have scanned := scanMembers_text m members scans fuel rest (by
      simp only [List.length_append, List.length_nil, List.length_cons, Member.text] at enough ⊢
      omega)
    have first : m.text = m.before.1 ++ '"' :: m.rest := rfl
    simp only [first, List.append_assoc, skipBlanks_append, List.cons_append,
      skipBlanks_cons (c := '"') rfl, scanned]

/-- **A spelling is scanned to its tree**, and what stands behind it is left. -/
theorem scanValue_text (x : Spelling) : x.Scans := by
  induction x with
  | literal word =>
    intro fuel rest enough _
    obtain ⟨fuel, rfl⟩ := Spelling.exists_fuel enough
    exact scanValue_literal word fuel rest
  | number n =>
    intro fuel rest enough stops
    obtain ⟨fuel, rfl⟩ := Spelling.exists_fuel enough
    exact scanValue_number n fuel stops
  | string ls =>
    intro fuel rest enough _
    obtain ⟨fuel, rfl⟩ := Spelling.exists_fuel enough
    exact scanValue_string ls fuel rest
  | array inner items ih => exact scanValue_array inner ih
  | object inner members ih => exact scanValue_object inner ih

/-! ### What is scanned is spelled -/

theorem exists_literal {word : Literal} {letters cs rest : List Char} {t : Tree}
    (h : scanLiteral word letters cs = (t, some rest)) :
    cs = letters ++ rest ∧ t = .literal (.ok word) := by
  induction letters generalizing cs with
  | nil =>
    cases h
    exact ⟨rfl, rfl⟩
  | cons l letters ih =>
    cases cs with
    | nil => cases h
    | cons c cs =>
      rw [scanLiteral] at h
      split at h
      next eq =>
        obtain ⟨rfl, rfl⟩ := ih h
        exact ⟨congrArg (· :: _) eq, rfl⟩
      next => cases h

theorem exists_spelling_of_leaf {cs rest : List Char} {t : Tree}
    (h : scanLeaf cs = (t, some rest)) :
    ∃ x : Spelling, cs = x.text ++ rest ∧ t = x.tree := by
  rw [scanLeaf.eq_def] at h
  split at h
  next => cases h
  next =>
    obtain ⟨rfl, rfl⟩ := exists_literal h
    exact ⟨.literal .null, rfl, rfl⟩
  next =>
    obtain ⟨rfl, rfl⟩ := exists_literal h
    exact ⟨.literal (.flag true), rfl, rfl⟩
  next =>
    obtain ⟨rfl, rfl⟩ := exists_literal h
    exact ⟨.literal (.flag false), rfl, rfl⟩
  next cs =>
    obtain ⟨token, rest', scanned⟩ : ∃ token rest', scanString cs = (token, rest') := ⟨_, _, rfl⟩
    rw [scanned] at h
    cases h
    obtain ⟨ls, rfl, rfl⟩ := exists_letters scanned
    exact ⟨.string ls, rfl, rfl⟩
  next c cs _ _ _ _ =>
    split at h
    next =>
      obtain ⟨token, rest', scanned⟩ : ∃ token rest', scanNumber (c :: cs) = (token, rest') :=
        ⟨_, _, rfl⟩
      rw [scanned] at h
      cases h
      obtain ⟨n, eq, rfl⟩ := exists_numberText scanned
      exact ⟨.number n, eq, rfl⟩
    next => cases h

/-- What is claimed of values that are scanned with some fuel. -/
def ValuesSpelled (fuel : Nat) : Prop :=
  ∀ cs t rest, scanValue fuel cs = (t, some rest) →
    ∃ (b : Blanks) (x : Spelling), cs = b.1 ++ x.text ++ rest ∧ t = x.tree

theorem exists_items {fuel : Nat} (values : ∀ f < fuel, ValuesSpelled f) {cs rest : List Char}
    {items : List Tree} {ending : Ending} (h : scanItems fuel cs = (items, ending, some rest)) :
    ending = .closed ∧ ∃ (i : Spaced Spelling) (is : List (Spaced Spelling)),
      items = (i :: is).map (·.value.tree) ∧
        cs = i.text ++ (is.flatMap (',' :: ·.text) ++ ']' :: rest) := by
  induction fuel generalizing cs items with
  | zero => cases h
  | succ fuel ih =>
    rw [scanItems] at h
    split at h
    next => cases h
    next item cs' scanned =>
      obtain ⟨before, x, rfl, rfl⟩ := values fuel (Nat.lt_succ_self fuel) _ _ _ scanned
      obtain ⟨after, eq⟩ := exists_blanks cs'
      split at h
      next => cases h
      next next' =>
        cases h
        rw [next'] at eq
        exact ⟨rfl, ⟨before, x, after⟩, [], rfl, by simp [Spaced.text, eq]⟩
      next cs'' next' =>
        rw [next'] at eq
        obtain ⟨items', ending', rest', more⟩ :
          ∃ items' ending' rest', scanItems fuel cs'' = (items', ending', rest') := ⟨_, _, _, rfl⟩
        rw [more] at h
        cases h
        obtain ⟨rfl, j, js, rfl, rfl⟩ := ih (fun f lt => values f (Nat.lt_succ_of_lt lt)) more
        exact ⟨rfl, ⟨before, x, after⟩, j :: js, rfl, by simp [Spaced.text, eq]⟩
      next => cases h

theorem exists_members {fuel : Nat} (values : ∀ f < fuel, ValuesSpelled f) {cs rest : List Char}
    {members : List (Token String × Tree)} {ending : Ending}
    (h : scanMembers fuel cs = (members, ending, some rest)) (before : Blanks) :
    ending = .closed ∧ ∃ (m : Member Spelling) (ms : List (Member Spelling)), m.before = before ∧
      members = (m :: ms).map Member.tree ∧
        cs = m.rest ++ (ms.flatMap (',' :: ·.text) ++ '\x7d' :: rest) := by
  induction fuel generalizing cs members before with
  | zero => cases h
  | succ fuel ih =>
    rw [scanMembers] at h
    split at h
    next => cases h
    next key afterKey scanned =>
      obtain ⟨name, rfl, rfl⟩ := exists_letters scanned
      obtain ⟨inside, eqKey⟩ := exists_blanks afterKey
      split at h
      next => cases h
      next colon nextKey =>
        rw [nextKey] at eqKey
        split at h
        next => cases h
        next value afterValue scannedValue =>
          obtain ⟨behind, x, rfl, rfl⟩ := values fuel (Nat.lt_succ_self fuel) _ _ _ scannedValue
          obtain ⟨after, eqValue⟩ := exists_blanks afterValue
          let m : Member Spelling := ⟨before, name, inside, behind, x, after⟩
          split at h
          next => cases h
          next nextValue =>
            cases h
            rw [nextValue] at eqValue
            exact ⟨rfl, m, [], rfl, rfl, by simp [m, Member.rest, eqKey, eqValue]⟩
          next comma nextValue =>
            obtain ⟨before', eqComma⟩ := exists_blanks comma
            rw [nextValue] at eqValue
            split at h
            next => cases h
            next quote nextComma =>
              rw [nextComma] at eqComma
              obtain ⟨members', ending', rest', more⟩ :
                  ∃ members' ending' rest', scanMembers fuel quote = (members', ending', rest') :=
                ⟨_, _, _, rfl⟩
              rw [more] at h
              cases h
              obtain ⟨rfl, n, ns, rfl, rfl, rfl⟩ :=
                ih (fun f lt => values f (Nat.lt_succ_of_lt lt)) more before'
              refine ⟨rfl, m, n :: ns, rfl, rfl, ?_⟩
              simp [m, Member.rest, Member.text, eqKey, eqValue, eqComma]
            next => cases h
          next => cases h
      next => cases h

/-- Items behind an opening bracket make an array. -/
theorem exists_array_of_items {fuel : Nat} (values : ∀ f < fuel, ValuesSpelled f)
    {cs rest : List Char} {items : List Tree} {ending : Ending}
    (h : scanItems fuel (skipBlanks cs) = (items, ending, some rest)) :
    ∃ x : Spelling, '[' :: cs = x.text ++ rest ∧ .array items ending = x.tree := by
  obtain ⟨inner, eq⟩ := exists_blanks cs
  obtain ⟨rfl, i, is, rfl, text⟩ := exists_items values h
  refine ⟨.array inner (i :: is), ?_, by rw [Spelling.tree_array]⟩
  rw [eq, text, Spelling.text_array, List.map_cons, intercalate_comma, List.flatMap_map]
  simp

/-- Members behind an opening brace make an object. -/
theorem exists_object_of_members {fuel : Nat} (values : ∀ f < fuel, ValuesSpelled f)
    {cs cs' rest : List Char} {members : List (Token String × Tree)} {ending : Ending}
    (quote : skipBlanks cs = '"' :: cs')
    (h : scanMembers fuel cs' = (members, ending, some rest)) :
    ∃ x : Spelling, '\x7b' :: cs = x.text ++ rest ∧ .object members ending = x.tree := by
  obtain ⟨inner, eq⟩ := exists_blanks cs
  obtain ⟨rfl, m, ms, noBlanks, rfl, rfl⟩ := exists_members values h .none
  refine ⟨.object inner (m :: ms), ?_, by rw [Spelling.tree_object]⟩
  rw [eq, quote, Spelling.text_object, List.map_cons, intercalate_comma, List.flatMap_map,
    Member.text, noBlanks]
  simp [Blanks.none]

/-- **A tree that is scanned to its end is that of a spelling.** -/
theorem exists_spelling (fuel : Nat) : ValuesSpelled fuel := by
  induction fuel using Nat.strongRecOn with
  | ind fuel values =>
    intro cs t rest h
    cases fuel with
    | zero => cases h
    | succ fuel =>
      have values : ∀ f < fuel, ValuesSpelled f := fun f lt => values f (Nat.lt_succ_of_lt lt)
      obtain ⟨before, eq⟩ := exists_blanks cs
      -- what is left after the blanks is a spelling
      suffices spelled : ∃ x : Spelling, skipBlanks cs = x.text ++ rest ∧ t = x.tree by
        obtain ⟨x, text, rfl⟩ := spelled
        exact ⟨before, x, by rw [List.append_assoc, ← text, ← eq], rfl⟩
      rw [scanValue] at h
      split at h
      next cs' bracket =>
        rw [bracket]
        split at h
        next => cases h
        next closing =>
          cases h
          obtain ⟨inner, eq⟩ := exists_blanks cs'
          rw [closing] at eq
          exact ⟨.array inner [], by simp [Spelling.text_array, eq], rfl⟩
        next =>
          obtain ⟨items, ending, rest', scanned⟩ :
              ∃ items ending rest', scanItems fuel (skipBlanks cs') = (items, ending, rest') :=
            ⟨_, _, _, rfl⟩
          rw [scanned] at h
          cases h
          exact exists_array_of_items values scanned
      next cs' bracket =>
        rw [bracket]
        split at h
        next => cases h
        next closing =>
          cases h
          obtain ⟨inner, eq⟩ := exists_blanks cs'
          rw [closing] at eq
          exact ⟨.object inner [], by simp [Spelling.text_object, eq], rfl⟩
        next cs'' quote =>
          obtain ⟨members, ending, rest', scanned⟩ :
              ∃ members ending rest', scanMembers fuel cs'' = (members, ending, rest') :=
            ⟨_, _, _, rfl⟩
          rw [scanned] at h
          cases h
          exact exists_object_of_members values quote scanned
        next => cases h
      next => exact exists_spelling_of_leaf h

/-! ### Whole texts -/

/-- A text that consists of a value between blanks. -/
structure Document where
  before : Blanks
  value : Spelling
  after : Blanks

/-- The text of a document. -/
def Document.text (d : Document) : String :=
  String.ofList (d.before.1 ++ d.value.text ++ d.after.1)

/-- The text of an object of members without blanks around them. -/
theorem text_of_members {texts : List String} {members : List (Member Spelling)}
    (spelled : List.Forall₂ (fun text m => text.toList = m.text) texts members) :
    (⟨.none, .object .none members, .none⟩ : Document).text =
      "\x7b" ++ ",".intercalate texts ++ "\x7d" := by
  have same : texts.map String.toList = members.map Member.text := by
    rw [← List.forall₂_eq_eq_eq, List.forall₂_map_left_iff, List.forall₂_map_right_iff]
    exact spelled
  rw [Document.text, Spelling.text_object, ← same]
  apply String.toList_injective
  simp [String.toList_intercalate, Blanks.none]

/-- A document is scanned to the tree of its value, up to the blanks at the end. -/
theorem scan_document (d : Document) : scan d.text.toList = (d.value.tree, some d.after.1) := by
  have stops : Stops d.after.1 := by
    rw [← List.append_nil d.after.1]
    exact stops_blanks d.after stops_nil
  rw [Document.text, String.toList_ofList, scan, List.append_assoc, scanValue_blanks]
  refine scanValue_text d.value _ d.after.1 ?_ stops
  simp only [List.length_append]
  omega

/-- A text whose tree is refused is refused with the same problem: what follows the value is not looked
at then. -/
theorem Format.parse_refused {α : Type} {format : Format α} {text : String} {problem : Problem}
    (refused : format.read nestingRoom (scan text.toList).1 = .error problem) :
    format.parse text = .error problem := by
  rw [parse]
  exact congrArg (· >>= _) refused

/-- **A document is read by reading the tree of its value.** -/
theorem Format.parse_document {α : Type} (format : Format α) (d : Document) :
    format.parse d.text = format.read nestingRoom d.value.tree := by
  have blank : skipBlanks d.after.1 = [] := by
    rw [← List.append_nil d.after.1, skipBlanks_append, skipBlanks_nil]
  cases value : format.read nestingRoom d.value.tree with
  | error problem => exact parse_refused (by rw [scan_document, value])
  | ok a =>
    rw [parse, scan_document]
    simp only [value, Except.bind, bind, Option.any_some, blank]
    rfl

/-- **What is accepted**: a document whose value can be read. -/
theorem Format.parse_eq_ok_iff {α : Type} {format : Format α} {text : String} {a : α} :
    format.parse text = .ok a ↔
      ∃ d : Document, d.text = text ∧ format.read nestingRoom d.value.tree = .ok a := by
  constructor
  · intro h
    obtain ⟨t, rest, scanned⟩ : ∃ t rest, scan text.toList = (t, rest) := ⟨_, _, rfl⟩
    rw [parse, scanned] at h
    cases value : format.read nestingRoom t with
    | error problem =>
      simp only [value, Except.bind, bind] at h
      cases h
    | ok b =>
      simp only [value, Except.bind, bind] at h
      split at h
      next blank =>
        cases h
        cases rest with
        | none => cases blank
        | some rest =>
          rw [Option.any_some, List.isEmpty_iff] at blank
          obtain ⟨before, x, eq, rfl⟩ := exists_spelling _ _ _ _ scanned
          obtain ⟨after, eq'⟩ := exists_blanks rest
          rw [blank, List.append_nil] at eq'
          refine ⟨⟨before, x, after⟩, ?_, value⟩
          rw [Document.text, ← eq', ← eq, String.ofList_toList]
      next => cases h
  · rintro ⟨d, rfl, value⟩
    rw [parse_document, value]

/-- What begins like an object without a name is refused as such an object is, whatever stands in the
place of the name and behind it. -/
theorem Format.parse_nameless {α : Type} {format : Format α} {problem : Problem}
    (refused : format.read nestingRoom (.object [] (.broken .malformed)) = .error problem)
    (before inside : Blanks) {c : Char} (blank : isBlank c = false) (quote : c ≠ '"')
    (closed : c ≠ '\x7d') (cs : List Char) :
    format.parse (.ofList (before.1 ++ '\x7b' :: (inside.1 ++ c :: cs))) = .error problem := by
  refine parse_refused ?_
  rw [String.toList_ofList, scan, scanValue_blanks, scanValue_nameless blank quote closed, refused]

end StateReplica.Json
