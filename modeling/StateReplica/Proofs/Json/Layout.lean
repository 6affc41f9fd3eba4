import StateReplica.Proofs.Json.Spelling

/-!
What is written is spelled. The text of a value, compact or pretty, is that of a spelling whose tree
shows the value itself (`exists_spelling_of_render`): an escape is read back as the character it stands
for, the digits of a number as the number, and nothing of the layout is left. So both layouts of a value
are scanned to the same tree.

This holds of values whose numbers are words of 64 bits (`Spellable`). Records are not even written with a
null in them, as what has no value is not written at all (`Plain`).
-/

namespace StateReplica.Json

/-! ### Strings -/

/-- A piece of a string that stands for one character: the character itself, or its code unit where it
comes before the space. -/
inductive Piece.StandsFor : Piece → Char → Prop
  | char (c : Char) : StandsFor (.char c) c
  | unit (c : Char) (control : c.toNat < 0x20) : StandsFor (.unit c.toNat) c

/-- A unit that is no half of a pair is a character of its own. -/
theorem joinPieces_unit {u : Nat} (leading : isLeading u = false) (trailing : isTrailing u = false)
    (fault : Option Fault) (ps : List Piece) :
    joinPieces fault (.unit u :: ps) = (joinPieces fault ps).map (Char.ofNat u :: ·) := by
  have alone : joinPieces fault (.unit u :: ps) = do
      return Char.ofNat u :: (← joinPieces fault ps) := by
    cases ps with
    | nil => simp [joinPieces, leading, trailing]
    | cons p ps => cases p <;> simp [joinPieces, leading, trailing]
  rw [alone]
  cases joinPieces fault ps <;> rfl

/-- The units before the space are no halves of pairs. -/
theorem not_surrogate_of_control {u : Nat} (h : u < 0x20) :
    isLeading u = false ∧ isTrailing u = false := by
  simp only [isLeading, isTrailing, Bool.and_eq_false_iff, decide_eq_false_iff_not]
  omega

/-- Pieces that stand for characters are joined to them, up to the fault behind them. -/
theorem joinPieces_standsFor {ps : List Piece} {cs : List Char}
    (h : List.Forall₂ Piece.StandsFor ps cs) (fault : Option Fault) :
    joinPieces fault ps = match fault with
      | none => .ok cs
      | some fault => .error fault := by
  induction h with
  | nil => cases fault <;> rfl
  | cons stands _ ih =>
    cases stands with
    | char c =>
      rw [joinPieces, ih]
      cases fault <;> rfl
    | unit c control =>
      obtain ⟨leading, trailing⟩ := not_surrogate_of_control control
      rw [joinPieces_unit leading trailing, ih, Char.ofNat_toNat]
      cases fault <;> rfl

theorem hexValue?_digitChar : ∀ d < 16, hexValue? (Nat.digitChar d) = some d := by decide

/-- The code unit of a character before the space. -/
theorem unit?_control {c : Char} (h : c.toNat < 0x20) :
    unit? '0' '0' (Nat.digitChar (c.toNat / 16)) (Nat.digitChar (c.toNat % 16)) = some c.toNat := by
  have high : hexValue? (Nat.digitChar (c.toNat / 16)) = some (c.toNat / 16) :=
    hexValue?_digitChar _ (by omega)
  have low : hexValue? (Nat.digitChar (c.toNat % 16)) = some (c.toNat % 16) :=
    hexValue?_digitChar _ (by omega)
  have zero : hexValue? '0' = some 0 := rfl
  simp only [unit?, high, low, zero, Option.bind_eq_bind, Option.bind_some]
  refine congrArg some ?_
  omega

/-- A written character is a letter that stands for it. -/
theorem exists_letter (c : Char) :
    ∃ l : Letter, l.text = escapeChar c ∧ l.piece.StandsFor c := by
  rw [escapeChar]
  split
  next eq => exact ⟨.escape '"' c (congrArg some eq.symm), rfl, .char c⟩
  next quote =>
  split
  next eq => exact ⟨.escape '\\' c (congrArg some eq.symm), rfl, .char c⟩
  next backslash =>
  split
  next eq => exact ⟨.escape 'b' c (congrArg some eq.symm), rfl, .char c⟩
  next =>
  split
  next eq => exact ⟨.escape 't' c (congrArg some eq.symm), rfl, .char c⟩
  next =>
  split
  next eq => exact ⟨.escape 'n' c (congrArg some eq.symm), rfl, .char c⟩
  next =>
  split
  next eq => exact ⟨.escape 'f' c (congrArg some eq.symm), rfl, .char c⟩
  next =>
  split
  next eq => exact ⟨.escape 'r' c (congrArg some eq.symm), rfl, .char c⟩
  next =>
  split
  next control => exact ⟨.unit _ _ _ _ _ (unit?_control control), rfl, .unit c control⟩
  next space => exact ⟨.plain c ⟨quote, backslash, Nat.not_lt.mp space⟩, rfl, .char c⟩

/-- A written string is spelled with letters that stand for its characters. -/
theorem exists_letters_of_chars (cs : List Char) :
    ∃ ls : List Letter, ls.flatMap Letter.text = cs.flatMap escapeChar ∧
      List.Forall₂ Piece.StandsFor (ls.map Letter.piece) cs := by
  induction cs with
  | nil => exact ⟨[], rfl, .nil⟩
  | cons c cs ih =>
    obtain ⟨l, text, stands⟩ := exists_letter c
    obtain ⟨ls, texts, others⟩ := ih
    exact ⟨l :: ls, by rw [List.flatMap_cons, List.flatMap_cons, text, texts], .cons stands others⟩

theorem exists_letters_of_string (s : String) :
    ∃ ls : List Letter, '"' :: lettersText ls = renderString s ∧ lettersToken ls = .ok s := by
  obtain ⟨ls, text, stands⟩ := exists_letters_of_chars s.toList
  refine ⟨ls, ?_, ?_⟩
  · rw [lettersText, text, renderString]; rfl
  · rw [lettersToken, joinPieces_standsFor stands]
    exact congrArg (fun t => (⟨.ok t, .ok ()⟩ : Token String)) String.ofList_toList

/-- A text without anything to be escaped is spelled as it stands. -/
theorem exists_letters_of_plain (s : String) (plain : s.toList.flatMap escapeChar = s.toList) :
    ∃ ls, lettersText ls = s.toList ++ ['"'] ∧ lettersToken ls = .ok s := by
  obtain ⟨ls, text, token⟩ := exists_letters_of_string s
  refine ⟨ls, ?_, token⟩
  rw [renderString, plain] at text
  exact (List.cons.inj text).2

/-! ### Numbers -/

/-- A number in decimal begins with a zero only if it is zero. -/
theorem eq_zero_of_head_toDigits {n : Nat} (h : '0' ∈ (Nat.toDigits 10 n).head?) : n = 0 := by
  induction n using Nat.strongRecOn with
  | ind n ih =>
    by_cases small : n < 10
    · rw [Nat.toDigits_of_lt_base small, List.head?_cons, Option.mem_some_iff] at h
      have digits : ∀ d < 10, Nat.digitChar d = '0' → d = 0 := by decide
      exact digits n small h
    · have more : 10 ≤ n := Nat.not_lt.mp small
      rw [Nat.toDigits_of_base_le (by decide) more,
        List.head?_append_of_ne_nil _ Nat.toDigits_ne_nil] at h
      have := ih (n / 10) (by omega) h
      omega

/-- The digits of a number in decimal. -/
def Digits.ofNat (n : Nat) : Digits where
  chars := Nat.toDigits 10 n
  ne_nil := Nat.toDigits_ne_nil
  isDigit _ h := Nat.isDigit_of_mem_toDigits (by decide) (by decide) h

theorem Digits.ofNat_plain (n : Nat) : ∀ d ds, (Digits.ofNat n).chars ≠ '0' :: d :: ds := by
  intro d ds eq
  have zero : n = 0 := eq_zero_of_head_toDigits (by
    rw [show Nat.toDigits 10 n = '0' :: d :: ds from eq]
    rfl)
  subst zero
  cases eq

/-- Digits that are written without sign, point and exponent. -/
def NumberText.ofDigits (ds : Digits) (plain : ∀ d ds', ds.chars ≠ '0' :: d :: ds') : NumberText :=
  ⟨false, ds, plain, none, none⟩

theorem NumberText.text_ofDigits (ds : Digits) (plain : ∀ d ds', ds.chars ≠ '0' :: d :: ds') :
    (ofDigits ds plain).text = ds.chars :=
  List.append_nil ds.chars

/-- Digits that come to a word of 64 bits are that number. -/
theorem NumberText.token_ofDigits (ds : Digits) (plain : ∀ d ds', ds.chars ≠ '0' :: d :: ds')
    (word : digitsValue ds.chars ≤ maxWord) :
    (ofDigits ds plain).token = .ok (.integer (digitsValue ds.chars)) := by
  have integer : (ofDigits ds plain).numeral.integer? = some (digitsValue ds.chars : Int) := by
    simp [Numeral.integer?, numeral, ofDigits, word]
  rw [token, Numeral.value, integer]
  rfl

/-- A word is spelled with its digits. -/
theorem exists_numberText_of_word {n : Nat} (h : n ≤ maxWord) :
    ∃ t : NumberText, t.text = renderNumber n ∧ t.token = .ok (.integer n) := by
  have value : digitsValue (Digits.ofNat n).chars = n :=
    Nat.ofDigitChars_toDigits (by decide) (by decide)
  refine ⟨.ofDigits (.ofNat n) (Digits.ofNat_plain n), NumberText.text_ofDigits _ _, ?_⟩
  rw [NumberText.token_ofDigits _ _ (by rw [value]; exact h), value]

/-! ### Values -/

/-- Values that hold no null and whose numbers are words of 64 bits. -/
inductive Plain : Json → Prop
  | flag (b : Bool) : Plain (.flag b)
  | number {n : Nat} (word : n ≤ maxWord) : Plain (.number n)
  | string (s : String) : Plain (.string s)
  | array {items : List Json} (plain : ∀ item ∈ items, Plain item) : Plain (.array items)
  | object {members : List (String × Json)} (plain : ∀ m ∈ members, Plain m.2) :
      Plain (.object members)

/-- Values whose numbers are words of 64 bits, so that a text can be read as them. -/
inductive Spellable : Json → Prop
  | null : Spellable .null
  | flag (b : Bool) : Spellable (.flag b)
  | number {n : Nat} (word : n ≤ maxWord) : Spellable (.number n)
  | string (s : String) : Spellable (.string s)
  | array {items : List Json} (spellable : ∀ item ∈ items, Spellable item) : Spellable (.array items)
  | object {members : List (String × Json)} (spellable : ∀ m ∈ members, Spellable m.2) :
      Spellable (.object members)

theorem Plain.spellable {j : Json} (plain : j.Plain) : j.Spellable := by
  induction plain with
  | flag b => exact .flag b
  | number word => exact .number word
  | string s => exact .string s
  | array _ ih => exact .array ih
  | object _ ih => exact .object ih

mutual

/-- The tree of a value. -/
def tree : Json → Tree
  | .null => .literal (.ok .null)
  | .flag b => .literal (.ok (.flag b))
  | .number n => .number (.ok (.integer n))
  | .string s => .string (.ok s)
  | .array items => .array (treesOfItems items) .closed
  | .object members => .object (treesOfMembers members) .closed

/-- The trees of items. -/
def treesOfItems : List Json → List Tree
  | [] => []
  | item :: items => tree item :: treesOfItems items

/-- The trees of members. -/
def treesOfMembers : List (String × Json) → List (Token String × Tree)
  | [] => []
  | (key, value) :: members => (.ok key, tree value) :: treesOfMembers members

end

theorem treesOfItems_eq (items : List Json) : treesOfItems items = items.map tree := by
  induction items with
  | nil => rfl
  | cons item items ih => rw [treesOfItems, ih]; rfl

theorem treesOfMembers_eq (members : List (String × Json)) :
    treesOfMembers members = members.map fun m => (.ok m.1, tree m.2) := by
  induction members with
  | nil => rfl
  | cons m members ih => rw [treesOfMembers, ih]; rfl

/-- What stands before an item, as blanks. -/
def Layout.gapBlanks (layout : Layout) (level : Nat) : Blanks where
  val := layout.gap level
  property := by
    cases layout with
    | compact => exact fun _ h => nomatch h
    | pretty =>
      intro c h
      rcases List.mem_cons.mp h with rfl | h
      · rfl
      · rw [List.eq_of_mem_replicate h]
        rfl

/-- What stands between a colon and the value behind it. -/
def Layout.colonBlanks : Layout → Blanks
  | .compact => .none
  | .pretty => ⟨[' '], by simp [isBlank]⟩

theorem Layout.colon_eq (layout : Layout) : layout.colon = ':' :: layout.colonBlanks.1 := by
  cases layout <;> rfl

/-- Written items are spelled, with what stands before the closing bracket behind the last one. -/
theorem exists_items_of_render {layout : Layout} {level : Nat} {item : Json} {items : List Json}
    (spelled : ∀ j ∈ item :: items, ∃ x : Spelling, x.text = j.render layout level ∧ x.tree = j.tree)
    (closing : Blanks) :
    ∃ (i : Spaced Spelling) (is : List (Spaced Spelling)),
      i.text ++ is.flatMap (',' :: ·.text) =
          layout.gap level ++ item.render layout level ++ renderItems layout level items ++ closing.1 ∧
        (i :: is).map (·.value.tree) = (item :: items).map tree := by
  induction items generalizing item with
  | nil =>
    obtain ⟨x, text, tree⟩ := spelled item List.mem_cons_self
    refine ⟨⟨layout.gapBlanks level, x, closing⟩, [], ?_, by simp [tree]⟩
    simp [Spaced.text, text, renderItems, Layout.gapBlanks]
  | cons next items ih =>
    obtain ⟨x, text, tree⟩ := spelled item List.mem_cons_self
    obtain ⟨i, is, texts, trees⟩ := ih fun j mem => spelled j (List.mem_cons_of_mem item mem)
    refine ⟨⟨layout.gapBlanks level, x, .none⟩, i :: is, ?_, by simp [tree, trees]⟩
    have first : (⟨layout.gapBlanks level, x, .none⟩ : Spaced Spelling).text =
        layout.gap level ++ item.render layout level := by
      simp [Spaced.text, text, Blanks.none, Layout.gapBlanks]
    rw [List.flatMap_cons, List.cons_append, texts, first, renderItems]
    simp

/-- Written members are spelled, with what stands before the closing brace behind the last one. -/
theorem exists_members_of_render {layout : Layout} {level : Nat} {m : String × Json}
    {members : List (String × Json)}
    (spelled : ∀ n ∈ m :: members,
      ∃ x : Spelling, x.text = n.2.render layout level ∧ x.tree = n.2.tree)
    (closing : Blanks) :
    ∃ (n : Member Spelling) (ns : List (Member Spelling)),
      n.text ++ ns.flatMap (',' :: ·.text) =
          layout.gap level ++ renderString m.1 ++ layout.colon ++ m.2.render layout level
            ++ renderMembers layout level members ++ closing.1 ∧
        (n :: ns).map Member.tree = (m :: members).map fun m => (.ok m.1, tree m.2) := by
  -- a member that is followed by some blanks
  have written (m : String × Json)
      (h : ∃ x : Spelling, x.text = m.2.render layout level ∧ x.tree = m.2.tree) (after : Blanks) :
      ∃ n : Member Spelling, n.tree = (.ok m.1, tree m.2) ∧
        n.text = layout.gap level ++ renderString m.1 ++ layout.colon ++ m.2.render layout level
          ++ after.1 := by
    obtain ⟨x, text, tree⟩ := h
    obtain ⟨ls, letters, token⟩ := exists_letters_of_string m.1
    refine ⟨⟨layout.gapBlanks level, ls, .none, layout.colonBlanks, x, after⟩, ?_, ?_⟩
    · rw [Member.tree, token, tree]
    · simp [Member.text, Member.rest, Blanks.none, ← letters, text, Layout.gapBlanks,
        layout.colon_eq]
  induction members generalizing m with
  | nil =>
    obtain ⟨n, tree, text⟩ := written m (spelled m List.mem_cons_self) closing
    exact ⟨n, [], by simp [text, renderMembers], by rw [List.map_cons, tree]; rfl⟩
  | cons next members ih =>
    obtain ⟨n, tree, text⟩ := written m (spelled m List.mem_cons_self) .none
    obtain ⟨n', ns, texts, trees⟩ := ih fun k mem => spelled k (List.mem_cons_of_mem m mem)
    refine ⟨n, n' :: ns, ?_, by rw [List.map_cons, tree, trees]; rfl⟩
    rw [List.flatMap_cons, List.cons_append, texts, text, renderMembers]
    simp [Blanks.none]

/-- **The text of a value is that of a spelling**, whatever the layout and the level, and the spelling has
the tree of the value. -/
theorem exists_spelling_of_render {j : Json} (spellable : j.Spellable) (layout : Layout) (level : Nat) :
    ∃ x : Spelling, x.text = j.render layout level ∧ x.tree = j.tree := by
  induction spellable generalizing level with
  | null => exact ⟨.literal .null, rfl, rfl⟩
  | flag b => exact ⟨.literal (.flag b), by cases b <;> rfl, rfl⟩
  | number word =>
    obtain ⟨t, text, token⟩ := exists_numberText_of_word word
    exact ⟨.number t, text, congrArg Tree.number token⟩
  | string s =>
    obtain ⟨ls, text, token⟩ := exists_letters_of_string s
    exact ⟨.string ls, text, congrArg Tree.string token⟩
  | @array items _ ih =>
    cases items with
    | nil => exact ⟨.array .none [], rfl, rfl⟩
    | cons item items =>
      obtain ⟨i, is, texts, trees⟩ := exists_items_of_render (fun j mem => ih j mem (level + 1))
        (layout.gapBlanks level)
      refine ⟨.array .none (i :: is), ?_, ?_⟩
      · rw [Spelling.text_array, List.map_cons, intercalate_comma, List.flatMap_map, texts, render]
        simp [Blanks.none, Layout.gapBlanks]
      · rw [Spelling.tree_array, trees, tree, treesOfItems_eq]
  | @object members _ ih =>
    cases members with
    | nil => exact ⟨.object .none [], rfl, rfl⟩
    | cons m members =>
      obtain ⟨n, ns, texts, trees⟩ := exists_members_of_render (fun j mem => ih j mem (level + 1))
        (layout.gapBlanks level)
      refine ⟨.object .none (n :: ns), ?_, ?_⟩
      · rw [Spelling.text_object, List.map_cons, intercalate_comma, List.flatMap_map, texts, render]
        simp [Blanks.none, Layout.gapBlanks]
      · rw [Spelling.tree_object, trees, tree, treesOfMembers_eq]

end StateReplica.Json
