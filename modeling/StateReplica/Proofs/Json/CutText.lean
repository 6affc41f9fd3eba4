import StateReplica.Proofs.Json.Layout
import StateReplica.Proofs.Json.Reading

/-!
Texts that end too early. Where a text is cut within a value that was written, the scanner stops at the
end of what is left of it, and the tree it has got until then shows the cut: up to some place it is the
tree of the whole text, and there it ends with the fault of a cut text (`Tree.Cut`). The one exception
is a number, of which the first digits are a number again, though not a larger one.

That is so whatever blanks and escapes the value is spelled with (`scanValue_cut`). Nothing is said of
values that hold other numbers than words: a decimal that is cut behind its point is malformed for
those who pass over it.
-/

namespace StateReplica.Json

/-! ### What is left of a tree -/

/-- The items that are left of some: those before the cut, and what is left of the one within which it
is, if it is within one. -/
inductive CutItems (R : Tree → Tree → Prop) : List Tree → List Tree → Prop
  | before (ts : List Tree) : CutItems R [] ts
  | within {t full : Tree} (h : R t full) (ts : List Tree) : CutItems R [t] (full :: ts)
  | behind (t : Tree) {us ts : List Tree} (h : CutItems R us ts) : CutItems R (t :: us) (t :: ts)

/-- The members that are left of some. The cut may be before or within the name of a member, or behind
it. -/
inductive CutMembers (R : Tree → Tree → Prop) :
    List (Token String × Tree) → List (Token String × Tree) → Prop
  | before (ms : List (Token String × Tree)) : CutMembers R [] ms
  | name (m : Token String × Tree) (ms : List (Token String × Tree)) :
      CutMembers R [(Token.faulty .cut, .broken .cut)] (m :: ms)
  | within (key : Token String) {t full : Tree} (h : R t full) (ms : List (Token String × Tree)) :
      CutMembers R [(key, t)] ((key, full) :: ms)
  | behind (m : Token String × Tree) {us ms : List (Token String × Tree)} (h : CutMembers R us ms) :
      CutMembers R (m :: us) (m :: ms)

/-- What is left of a tree where its text is cut. -/
inductive Tree.Cut : Tree → Tree → Prop
  | broken (full : Tree) : Cut (.broken .cut) full
  | flag (b : Bool) : Cut (.literal (.error .cut)) (.literal (.ok (.flag b)))
  | string (token : Token String) : Cut (.string (Token.faulty .cut)) (.string token)
  | number {i j : Int} (nonneg : 0 ≤ j) (le : j ≤ i) :
      Cut (.number (.ok (.integer j))) (.number (.ok (.integer i)))
  | array {us ts : List Tree} (h : CutItems Cut us ts) :
      Cut (.array us (.broken .cut)) (.array ts .closed)
  | object {us ms : List (Token String × Tree)} (h : CutMembers Cut us ms) :
      Cut (.object us (.broken .cut)) (.object ms .closed)

/-! ### Where a text is cut -/

section

variable {as bs cs kept lost : List Char} {c : Char}

/-- A text of two parts is cut within the first one or behind it. -/
theorem cut_append (text : as ++ bs = kept ++ lost) :
    (∃ c cs, as = kept ++ c :: cs) ∨ ∃ kept', kept = as ++ kept' ∧ bs = kept' ++ lost := by
  rcases List.append_eq_append_iff.mp text with ⟨kept', rfl, rfl⟩ | ⟨cs, rfl, rfl⟩
  · exact .inr ⟨kept', rfl, rfl⟩
  · cases cs with
    | nil => exact .inr ⟨[], by simp, rfl⟩
    | cons c cs => exact .inl ⟨c, cs, rfl⟩

/-- A text is cut before its first character or behind it. -/
theorem cut_cons (text : c :: cs = kept ++ lost) :
    kept = [] ∨ ∃ kept', kept = c :: kept' ∧ cs = kept' ++ lost := by
  cases kept with
  | nil => exact .inl rfl
  | cons d kept =>
    cases text
    exact .inr ⟨kept, rfl, rfl⟩

/-- Of blanks that are cut only blanks are left. -/
theorem skipBlanks_of_within {b : Blanks} (within : b.1 = kept ++ c :: cs) : skipBlanks kept = [] :=
  List.dropWhile_eq_nil_iff.mpr fun d mem => b.2 d (within ▸ List.mem_append_left _ mem)

/-- A word with blanks before it is cut before its first character or behind it. -/
theorem cut_blanks {b : Blanks} (text : b.1 ++ c :: cs = kept ++ lost) :
    skipBlanks kept = [] ∨ ∃ kept', kept = b.1 ++ c :: kept' ∧ cs = kept' ++ lost := by
  rcases cut_append text with ⟨d, ds, within⟩ | ⟨kept', rfl, rest⟩
  · exact .inl (skipBlanks_of_within within)
  · rcases cut_cons rest with rfl | ⟨kept', rfl, behind⟩
    · exact .inl (skipBlanks_append b [])
    · exact .inr ⟨kept', rfl, behind⟩

/-- A text without words consists of blanks. -/
theorem exists_blanks_of_skipBlanks_eq_nil (h : skipBlanks cs = []) : ∃ b : Blanks, cs = b.1 := by
  obtain ⟨b, split⟩ := exists_blanks cs
  exact ⟨b, by rw [split, h, List.append_nil]⟩

end

/-! ### Strings -/

theorem utf8Size_of_hexValue? {c : Char} {n : Nat} (h : hexValue? c = some n) : c.utf8Size = 1 := by
  have ascii : c ≤ 'f' := by
    rw [hexValue?] at h
    split at h
    next digit => exact Char.le_trans digit.2 (by decide)
    next =>
      split at h
      next small => exact small.2
      next =>
        split at h
        next capital => exact Char.le_trans capital.2 (by decide)
        next => cases h
  exact if_pos (UInt32.le_trans ascii (by decide))

/-- The digits of a code unit are characters of one byte. -/
theorem utf8Size_of_unit? {a b c d : Char} {u : Nat} (h : unit? a b c d = some u) :
    ∀ x ∈ [a, b, c, d], x.utf8Size = 1 := by
  simp only [unit?, Option.bind_eq_bind, Option.bind_eq_some_iff] at h
  obtain ⟨_, ha, _, hb, _, hc, _, hd, -⟩ := h
  have one {c : Char} {n : Nat} (h : hexValue? c = some n) := utf8Size_of_hexValue? h
  simp only [List.forall_mem_cons]
  exact ⟨one ha, one hb, one hc, one hd, List.forall_mem_nil _⟩

/-- Fewer than four digits are a code unit that is cut. -/
theorem scanPieces_shortUnit {cs : List Char} (digits : ∀ c ∈ cs, c.utf8Size = 1)
    (few : cs.length < 4) : scanPieces ('\\' :: 'u' :: cs) = ([], .error .cut) := by
  have size (n : Nat) (ds : List Char) (digits : ∀ c ∈ ds, c.utf8Size = 1) :
      ds.foldl (fun size c => size + c.utf8Size) n = n + ds.length := by
    induction ds generalizing n with
    | nil => rfl
    | cons d ds ih =>
      obtain ⟨one, digits⟩ := List.forall_mem_cons.mp digits
      rw [List.foldl_cons, ih _ digits, one, List.length_cons]
      omega
  have short : shortUnit cs = .cut := by
    rw [shortUnit, size 0 cs digits, if_pos (by omega)]
  rw [scanPieces, short]
  rintro a b c d rest rfl
  simp only [List.length_cons] at few
  omega

/-- A letter that is cut is nothing but that. -/
theorem scanPieces_letter_cut (l : Letter) {kept : List Char} {c : Char} {cs : List Char}
    (text : l.text = kept ++ c :: cs) : scanPieces kept = ([], .error .cut) := by
  cases l with
  | plain d allowed =>
    rcases cut_cons text with rfl | ⟨kept', rfl, rest⟩
    · rfl
    · cases kept' <;> cases rest
  | escape d e stands =>
    rcases cut_cons text with rfl | ⟨kept', rfl, rest⟩
    · rfl
    rcases cut_cons rest with rfl | ⟨kept', rfl, rest⟩
    · rfl
    · cases kept' <;> cases rest
  | unit x y z w u stands =>
    rcases cut_cons text with rfl | ⟨kept', rfl, rest⟩
    · rfl
    rcases cut_cons rest with rfl | ⟨digits, rfl, all⟩
    · rfl
    have length := congrArg List.length all
    rw [List.length_append] at length
    refine scanPieces_shortUnit (fun d mem => ?_) ?_
    · exact utf8Size_of_unit? stands d (all ▸ List.mem_append_left _ mem)
    · simp only [List.length_cons, List.length_nil] at length
      omega

/-- Of a string that is cut some letters are left. -/
theorem scanPieces_cut (ls : List Letter) {kept lost : List Char}
    (text : lettersText ls = kept ++ lost) (more : lost ≠ []) :
    ∃ ps, ps <+: ls.map Letter.piece ∧ scanPieces kept = (ps, .error .cut) := by
  induction ls generalizing kept with
  | nil =>
    rcases cut_cons text with rfl | ⟨kept', rfl, rest⟩
    · exact ⟨[], List.nil_prefix, rfl⟩
    · exact absurd (List.append_eq_nil_iff.mp rest.symm).2 more
  | cons l ls ih =>
    have split : lettersText (l :: ls) = l.text ++ lettersText ls := by
      simp only [lettersText, List.flatMap_cons, List.append_assoc]
    rw [split] at text
    rcases cut_append text with ⟨c, cs, within⟩ | ⟨kept', rfl, rest⟩
    · exact ⟨[], List.nil_prefix, scanPieces_letter_cut l within⟩
    · obtain ⟨ps, initial, scanned⟩ := ih rest
      refine ⟨l.piece :: ps, ?_, by rw [scanPieces_letter, scanned]⟩
      rw [List.map_cons, List.cons_prefix_cons]
      exact ⟨rfl, initial⟩

/-- Pieces that can be joined are at fault for nothing but the cut where they are cut. -/
theorem joinPieces_cut {ps qs : List Piece} {cs : List Char} (initial : ps <+: qs)
    (h : joinPieces none qs = .ok cs) : joinPieces (some .cut) ps = .error .cut := by
  fun_induction joinPieces none qs generalizing ps cs with
  | case1 =>
    rw [List.prefix_nil.mp initial]
    rfl
  | case3 c qs ih =>
    obtain rfl | ⟨ps, rfl, others⟩ := List.prefix_cons_iff.mp initial
    · rfl
    · obtain ⟨_, rest, -⟩ := bind_eq_ok.mp h
      rw [joinPieces, ih others rest]
      rfl
  | case5 u v qs notTrailing leading trailing ih =>
    obtain rfl | ⟨ps, rfl, behind⟩ := List.prefix_cons_iff.mp initial
    · rfl
    obtain rfl | ⟨ps, rfl, others⟩ := List.prefix_cons_iff.mp behind
    -- the cut is between the halves of a pair
    · simp [joinPieces, notTrailing, leading]
    · obtain ⟨_, rest, -⟩ := bind_eq_ok.mp h
      rw [joinPieces, if_neg notTrailing, if_pos leading, if_pos trailing, ih others rest]
      rfl
  | case7 u _ _ notTrailing notLeading ih | case11 u _ _ notTrailing notLeading ih =>
    obtain rfl | ⟨ps, rfl, others⟩ := List.prefix_cons_iff.mp initial
    · rfl
    · obtain ⟨_, rest, -⟩ := bind_eq_ok.mp h
      rw [joinPieces_unit (Bool.eq_false_iff.mpr notLeading) (Bool.eq_false_iff.mpr notTrailing),
        ih others rest]
      rfl
  -- in the other cases the whole of the pieces is at fault
  | case2 | case4 | case6 | case8 | case9 | case10 => cases h

/-- **A string that is cut is recognised as cut.** -/
theorem scanString_cut {ls : List Letter} {s : String} (value : (lettersToken ls).value = .ok s)
    {kept lost : List Char} (text : lettersText ls = kept ++ lost) (more : lost ≠ []) :
    scanString kept = (Token.faulty .cut, none) := by
  obtain ⟨ps, initial, scanned⟩ := scanPieces_cut ls text more
  obtain ⟨cs, joined, -⟩ := map_eq_ok.mp value
  rw [scanString, scanned]
  simp only [joinPieces_cut initial joined]
  rfl

/-! ### Numbers -/

theorem NumberText.fraction_eq_none {n : NumberText} (h : n.numeral.fraction.isEmpty = true) :
    n.fraction = none := by
  rw [numeral] at h
  cases eq : n.fraction with
  | none => rfl
  | some ds =>
    rw [eq] at h
    exact absurd (List.isEmpty_iff.mp h) ds.ne_nil

/-- A number that is a word is written with nothing but digits. -/
theorem NumberText.text_of_word {n : NumberText} {i : Int} (value : n.token = .ok (.integer i))
    (nonneg : 0 ≤ i) :
    n.text = n.whole.chars ∧ i = digitsValue n.whole.chars ∧ digitsValue n.whole.chars ≤ maxWord := by
  have value : n.numeral.value = .ok (.integer i) := congrArg Token.value value
  have integer : n.numeral.integer? = some i := by
    rw [Numeral.value] at value
    split at value
    next j eq => cases value; exact eq
    next => split at value <;> cases value
  rw [Numeral.integer?] at integer
  split at integer
  next => cases integer
  next bare =>
  split at integer
  next unsigned =>
    simp only [Bool.not_eq_true, Bool.or_eq_false_iff, Bool.not_eq_false', Bool.and_eq_true,
      Bool.not_eq_true', decide_eq_true_eq] at bare unsigned
    have noFraction := fraction_eq_none bare.1
    have noExponent : n.exponent = none := by
      cases eq : n.exponent with
      | none => rfl
      | some e => rw [numeral, eq] at bare; cases bare.2
    have noSign : n.negative = false := unsigned.1
    refine ⟨?_, (Option.some_inj.mp integer).symm, unsigned.2⟩
    rw [text, noSign, noFraction, noExponent]
    exact List.append_nil _
  next =>
  split at integer
  next signed =>
    cases integer
    simp only [Bool.and_eq_true, decide_eq_true_eq] at signed
    omega
  next => cases integer

/-- More digits make a number that is not smaller. -/
theorem digitsValue_le_append (ds es : List Char) : digitsValue ds ≤ digitsValue (ds ++ es) := by
  have grows (n : Nat) : n ≤ es.foldl (fun n d => 10 * n + digitValue d) n := by
    induction es generalizing n with
    | nil => exact Nat.le_refl n
    | cons d es ih => exact Nat.le_trans (by omega) (ih (10 * n + digitValue d))
  rw [digitsValue, digitsValue, List.foldl_append]
  exact grows _

/-- **What is left of a word is a word that is not larger.** -/
theorem scanNumber_cut {n : NumberText} {i : Int} (value : n.token = .ok (.integer i))
    (nonneg : 0 ≤ i) {kept lost : List Char} (text : n.text = kept ++ lost) (some_digit : kept ≠ []) :
    ∃ j : Int, 0 ≤ j ∧ j ≤ i ∧ scanNumber kept = (.ok (.integer j), some []) := by
  obtain ⟨digits, rfl, word⟩ := NumberText.text_of_word value nonneg
  rw [digits] at text
  have le : digitsValue kept ≤ digitsValue n.whole.chars := text ▸ digitsValue_le_append kept lost
  let ds : Digits := ⟨kept, some_digit, fun d mem =>
    n.whole.isDigit d (text ▸ List.mem_append_left lost mem)⟩
  have plain : ∀ d ds', ds.chars ≠ '0' :: d :: ds' := by
    intro d ds' eq
    refine n.plain d (ds' ++ lost) ?_
    rw [text, show kept = '0' :: d :: ds' from eq]
    rfl
  have scanned := scanNumber_text (.ofDigits ds plain) stops_nil
  rw [NumberText.text_ofDigits, NumberText.token_ofDigits ds plain (Nat.le_trans le word),
    List.append_nil] at scanned
  exact ⟨digitsValue kept, Int.natCast_nonneg _, Int.ofNat_le.mpr le, scanned⟩

/-! ### Written values -/

/-- The trees of what was written: those of plain values. -/
def Tree.Plain (t : Tree) : Prop := ∃ j : Json, j.Plain ∧ j.tree = t

namespace Spelling

theorem plain_literal {word : Literal} (h : (literal word).tree.Plain) : ∃ b, word = .flag b := by
  obtain ⟨j, plain, eq⟩ := h
  cases plain with
  | flag b => exact ⟨b, (Except.ok.inj (Tree.literal.inj eq)).symm⟩
  | _ => cases eq

theorem plain_number {n : NumberText} (h : (number n).tree.Plain) :
    ∃ i : Int, 0 ≤ i ∧ n.token = .ok (.integer i) := by
  obtain ⟨j, plain, eq⟩ := h
  cases plain with
  | @number k word => exact ⟨k, Int.natCast_nonneg k, (Tree.number.inj eq).symm⟩
  | _ => cases eq

theorem plain_string {ls : List Letter} (h : (string ls).tree.Plain) :
    ∃ s, (lettersToken ls).value = .ok s := by
  obtain ⟨j, plain, eq⟩ := h
  cases plain with
  | string s => exact ⟨s, congrArg Token.value (Tree.string.inj eq).symm⟩
  | _ => cases eq

theorem plain_array {inner : Blanks} {items : List (Spaced Spelling)}
    (h : (array inner items).tree.Plain) : ∀ i ∈ items, i.value.tree.Plain := by
  obtain ⟨j, plain, eq⟩ := h
  rw [tree_array] at eq
  cases plain with
  | @array js plain =>
    rw [Json.tree, treesOfItems_eq] at eq
    intro i mem
    have found : i.value.tree ∈ js.map Json.tree :=
      (Tree.array.inj eq).1 ▸ List.mem_map_of_mem mem
    obtain ⟨j, mem, eq⟩ := List.mem_map.mp found
    exact ⟨j, plain j mem, eq⟩
  | _ => cases eq

theorem plain_object {inner : Blanks} {members : List (Member Spelling)}
    (h : (object inner members).tree.Plain) :
    ∀ m ∈ members, (∃ s, (lettersToken m.name).value = .ok s) ∧ m.value.tree.Plain := by
  obtain ⟨j, plain, eq⟩ := h
  rw [tree_object] at eq
  cases plain with
  | @object js plain =>
    rw [Json.tree, treesOfMembers_eq] at eq
    intro m mem
    have found : m.tree ∈ js.map fun n => (Token.ok n.1, n.2.tree) :=
      (Tree.object.inj eq).1 ▸ List.mem_map_of_mem mem
    obtain ⟨n, mem, eq⟩ := List.mem_map.mp found
    obtain ⟨name, value⟩ := Prod.mk.inj eq
    exact ⟨⟨n.1, congrArg Token.value name.symm⟩, n.2, plain n mem, value⟩
  | _ => cases eq

end Spelling

/-! ### Values -/

/-- What is claimed of scanning a text that is cut within a value: the tree is what is left of that of
the whole text, and nothing is left over. -/
structure ScansCut (outcome : Tree × Option (List Char)) (full : Tree) : Prop where
  tree : outcome.1.Cut full
  rest : ∀ cs ∈ outcome.2, cs = []

/-- Where the scanner stops at a fault nothing is left over. -/
theorem ScansCut.stopped {t full : Tree} (cut : t.Cut full) : ScansCut (t, none) full :=
  ⟨cut, fun cs left => absurd left (Option.not_mem_none cs)⟩

/-- What is claimed of a spelling: a text that ends within it, or before it, is scanned as cut. -/
def Spelling.Cuts (x : Spelling) : Prop :=
  ∀ (before : Blanks) (fuel : Nat) (kept lost : List Char), before.1 ++ x.text = kept ++ lost →
    lost ≠ [] → 2 * kept.length < fuel → ScansCut (scanValue fuel kept) x.tree

/-- Nothing but blanks is scanned as a value that is cut. -/
theorem scanValue_nothing {cs : List Char} (h : skipBlanks cs = []) (fuel : Nat) :
    scanValue fuel cs = (.broken .cut, none) := by
  cases fuel with
  | zero => rw [scanValue]
  | succ fuel => rw [scanValue, h]; rfl

theorem scansCut_nothing {cs : List Char} (h : skipBlanks cs = []) (fuel : Nat) (full : Tree) :
    ScansCut (scanValue fuel cs) full := by
  rw [scanValue_nothing h]
  exact .stopped (.broken full)

/-- It is enough to look at texts that are cut behind the first character of the value. -/
theorem Spelling.cuts_of {x : Spelling} (h : ∀ (fuel : Nat) (c : Char) (kept lost : List Char),
    x.text = c :: kept ++ lost → lost ≠ [] → 2 * kept.length + 1 < fuel →
      ScansCut (scanValue (fuel + 1) (c :: kept)) x.tree) : x.Cuts := by
  intro before fuel kept lost text more enough
  obtain ⟨c, cs, eq, -⟩ := x.head
  rw [eq] at text
  rcases cut_blanks text with nothing | ⟨kept', rfl, rest⟩
  · exact scansCut_nothing nothing fuel x.tree
  · rw [List.length_append, List.length_cons] at enough
    obtain ⟨fuel, rfl⟩ := Nat.exists_eq_add_one_of_ne_zero (n := fuel) (by omega)
    rw [scanValue_blanks]
    exact h fuel c kept' lost (by rw [eq, rest]; rfl) more (by omega)

theorem scanLiteral_cut (word : Literal) {letters kept lost : List Char}
    (text : letters = kept ++ lost) (more : lost ≠ []) :
    scanLiteral word letters kept = (.literal (.error .cut), none) := by
  induction kept generalizing letters with
  | nil =>
    obtain ⟨c, cs, rfl⟩ := List.exists_cons_of_ne_nil more
    rw [text]
    rfl
  | cons c kept ih =>
    subst text
    rw [List.cons_append, scanLiteral, if_pos rfl, ih rfl]

theorem cuts_literal {word : Literal} (plain : (Spelling.literal word).tree.Plain) :
    (Spelling.literal word).Cuts := by
  obtain ⟨b, rfl⟩ := Spelling.plain_literal plain
  have first : ∃ c letters, (Literal.flag b).text = c :: letters ∧
      ∀ fuel cs, scanValue (fuel + 1) (c :: cs) = scanLiteral (.flag b) letters cs := by
    cases b <;> exact ⟨_, _, rfl, scanValue_leaf (by decide) (by decide) (by decide)⟩
  obtain ⟨c, letters, eq, scans⟩ := first
  refine Spelling.cuts_of fun fuel d kept lost text more _ => ?_
  obtain ⟨rfl, rest⟩ := List.cons.inj (eq.symm.trans text)
  rw [scans, scanLiteral_cut _ rest more]
  exact .stopped (.flag b)

theorem cuts_number {n : NumberText} (plain : (Spelling.number n).tree.Plain) :
    (Spelling.number n).Cuts := by
  obtain ⟨i, nonneg, value⟩ := Spelling.plain_number plain
  refine Spelling.cuts_of fun fuel c kept lost text more _ => ?_
  obtain ⟨j, nonneg', le, scanned⟩ := scanNumber_cut value nonneg text (List.cons_ne_nil c kept)
  obtain ⟨d, ds, eq, number⟩ := n.head
  obtain rfl : d = c := (List.cons.inj (eq.symm.trans text)).1
  rw [scanValue_of_number number, scanned, Spelling.tree, value]
  refine ⟨.number nonneg' le, ?_⟩
  rintro _ ⟨⟩
  rfl

theorem cuts_string {ls : List Letter} (plain : (Spelling.string ls).tree.Plain) :
    (Spelling.string ls).Cuts := by
  obtain ⟨s, value⟩ := Spelling.plain_string plain
  refine Spelling.cuts_of fun fuel c kept lost text more _ => ?_
  obtain ⟨rfl, rest⟩ := List.cons.inj text
  rw [scanValue_leaf (by decide) (by decide) (by decide), scanLeaf, scanString_cut value rest more]
  exact .stopped (.string _)

/-! ### Arrays -/

/-- What is claimed of scanning items that are cut. -/
def ItemsCut (outcome : List Tree × Ending × Option (List Char)) (ts : List Tree) : Prop :=
  ∃ us, outcome = (us, .broken .cut, none) ∧ CutItems Tree.Cut us ts

theorem itemsCut_within {fuel : Nat} {kept : List Char} {full : Tree}
    (h : ScansCut (scanValue fuel kept) full) (ts : List Tree) :
    ItemsCut (scanItems (fuel + 1) kept) (full :: ts) := by
  obtain ⟨t, rest, scanned⟩ : ∃ t rest, scanValue fuel kept = (t, rest) := ⟨_, _, rfl⟩
  rw [scanned] at h
  refine ⟨[t], ?_, .within h.tree ts⟩
  rw [scanItems, scanned]
  cases rest with
  | none => rfl
  | some cs =>
    cases h.rest cs rfl
    rfl

/-- Items are cut within the first one, or before what stands behind it, or further on. -/
theorem itemsCut_first {i : Spaced Spelling} (cuts : i.value.Cuts) {fuel : Nat}
    {kept lost cs : List Char} {c : Char} (text : i.text ++ c :: cs = kept ++ lost)
    (enough : 2 * kept.length + 1 < fuel) (ts : List Tree) :
    ItemsCut (scanItems fuel kept) (i.value.tree :: ts) ∨
      ∃ kept', kept = i.text ++ c :: kept' ∧ cs = kept' ++ lost := by
  obtain ⟨fuel, rfl⟩ := Nat.exists_eq_add_one_of_ne_zero (n := fuel) (by omega)
  rw [Spaced.text, List.append_assoc] at text
  rcases cut_append text with ⟨d, ds, within⟩ | ⟨behind, rfl, rest⟩
  · exact .inl (itemsCut_within (cuts i.before fuel kept _ within (List.cons_ne_nil d ds) (by omega)) ts)
  rcases cut_blanks rest with nothing | ⟨kept', rfl, further⟩
  · obtain ⟨b, rfl⟩ := exists_blanks_of_skipBlanks_eq_nil nothing
    let shorter : Spaced Spelling := ⟨i.before, i.value, b⟩
    have scanned : scanItems (fuel + 1) (shorter.text ++ []) = ([i.value.tree], .broken .cut, none) := by
      refine (scanItems_item (scanValue_text _) ?_ stops_nil).trans rfl
      simp only [Spaced.text, shorter]
      omega
    rw [List.append_nil] at scanned
    exact .inl ⟨_, scanned, .behind _ (.before ts)⟩
  · exact .inr ⟨kept', by simp [Spaced.text], further⟩

theorem scanItems_cut (i : Spaced Spelling) (items : List (Spaced Spelling))
    (cuts : ∀ j ∈ i :: items, j.value.Cuts) (fuel : Nat) {kept lost : List Char}
    (text : i.text ++ (items.flatMap (',' :: ·.text) ++ [']']) = kept ++ lost) (more : lost ≠ [])
    (enough : 2 * kept.length + 1 < fuel) :
    ItemsCut (scanItems fuel kept) ((i :: items).map (·.value.tree)) := by
  induction items generalizing i fuel kept with
  | nil =>
    rcases itemsCut_first (cuts i List.mem_cons_self) text enough [] with cut | ⟨_, -, rest⟩
    · exact cut
    · exact absurd (List.append_eq_nil_iff.mp rest.symm).2 more
  | cons j items ih =>
    rw [List.flatMap_cons, List.append_assoc, List.cons_append] at text
    rcases itemsCut_first (cuts i List.mem_cons_self) text enough _ with
      cut | ⟨kept, rfl, rest⟩
    · exact cut
    simp only [List.length_append, List.length_cons] at enough
    obtain ⟨fuel, rfl⟩ := Nat.exists_eq_add_one_of_ne_zero (n := fuel) (by omega)
    obtain ⟨us, scanned, cut⟩ :=
      ih j (fun k mem => cuts k (List.mem_cons_of_mem i mem)) fuel rest (by omega)
    refine ⟨i.value.tree :: us, ?_, .behind _ cut⟩
    rw [scanItems_item (scanValue_text _) (by omega) (stops_comma _), skipBlanks_cons rfl]
    simp only [scanned]

/-- Items that are cut behind the opening bracket begin with the first item. -/
theorem skipBlanks_items {i : Spaced Spelling} {cs kept lost : List Char}
    (text : i.text ++ cs = kept ++ lost) (some_word : skipBlanks kept ≠ []) (fuel : Nat) :
    (∀ rest, skipBlanks kept ≠ ']' :: rest) ∧
      scanItems fuel (skipBlanks kept) = scanItems fuel kept := by
  obtain ⟨c, value, eq, blank, notClosing⟩ := i.value.head
  rw [Spaced.text, eq, List.append_assoc, List.append_assoc, List.cons_append] at text
  rcases cut_blanks text with nothing | ⟨kept', rfl, -⟩
  · exact absurd nothing some_word
  · rw [skipBlanks_append, skipBlanks_cons blank, scanItems_blanks]
    exact ⟨fun rest closing => notClosing (List.cons.inj closing).1, rfl⟩

theorem cuts_array (inner : Blanks) {items : List (Spaced Spelling)}
    (cuts : ∀ i ∈ items, i.value.Cuts) : (Spelling.array inner items).Cuts := by
  refine Spelling.cuts_of fun fuel c kept lost text more enough => ?_
  rw [Spelling.text_array, List.cons_append, List.cons_append, List.append_assoc] at text
  obtain ⟨rfl, content⟩ := List.cons.inj text
  rw [Spelling.tree_array, scanValue_bracket]
  by_cases nothing : skipBlanks kept = []
  · simp only [nothing]
    exact .stopped (.array (.before _))
  rcases cut_append content with ⟨d, ds, within⟩ | ⟨kept, rfl, rest⟩
  · exact absurd (skipBlanks_of_within within) nothing
  rw [skipBlanks_append] at nothing ⊢
  cases items with
  | nil =>
    rcases cut_cons rest with rfl | ⟨_, -, closing⟩
    · exact absurd rfl nothing
    · exact absurd (List.append_eq_nil_iff.mp closing.symm).2 more
  | cons i items =>
    rw [List.map_cons, intercalate_comma, List.flatMap_map, List.append_assoc] at rest
    obtain ⟨notClosing, same⟩ := skipBlanks_items rest nothing fuel
    obtain ⟨us, scanned, cut⟩ := scanItems_cut i items cuts fuel rest more (by
      rw [List.length_append] at enough
      omega)
    split
    next h => exact absurd h nothing
    next h => exact absurd h (notClosing _)
    next =>
      rw [same, scanned]
      exact .stopped (.array cut)

/-! ### Objects -/

/-- What is claimed of scanning members that are cut. -/
def MembersCut (outcome : List (Token String × Tree) × Ending × Option (List Char))
    (ms : List (Token String × Tree)) : Prop :=
  ∃ us, outcome = (us, .broken .cut, none) ∧ CutMembers Tree.Cut us ms

theorem membersCut_within {fuel : Nat} {name : List Letter} {inside : Blanks} {kept : List Char}
    {full : Tree} (h : ScansCut (scanValue fuel kept) full) (ms : List (Token String × Tree)) :
    MembersCut (scanMembers (fuel + 1) (lettersText name ++ (inside.1 ++ ':' :: kept)))
      ((lettersToken name, full) :: ms) := by
  obtain ⟨t, rest, scanned⟩ : ∃ t rest, scanValue fuel kept = (t, rest) := ⟨_, _, rfl⟩
  rw [scanned] at h
  refine ⟨[(lettersToken name, t)], ?_, .within _ h.tree ms⟩
  rw [scanMembers, scanString_text]
  simp only [skipBlanks_append, skipBlanks_cons (c := ':') rfl, scanned]
  cases rest with
  | none => rfl
  | some cs =>
    cases h.rest cs rfl
    rfl

/-- Members are cut within the first one, or before what stands behind it, or further on. -/
theorem membersCut_first {m : Member Spelling} {name : String}
    (named : (lettersToken m.name).value = .ok name) (cuts : m.value.Cuts) {fuel : Nat}
    {kept lost cs : List Char} {c : Char} (text : m.rest ++ c :: cs = kept ++ lost)
    (enough : 2 * kept.length + 1 < fuel) (ms : List (Token String × Tree)) :
    MembersCut (scanMembers fuel kept) (m.tree :: ms) ∨
      ∃ kept', kept = m.rest ++ c :: kept' ∧ cs = kept' ++ lost := by
  obtain ⟨fuel, rfl⟩ := Nat.exists_eq_add_one_of_ne_zero (n := fuel) (by omega)
  simp only [Member.rest, List.append_assoc, List.cons_append] at text
  rcases cut_append text with ⟨d, ds, within⟩ | ⟨afterName, rfl, behindName⟩
  · refine .inl ⟨_, ?_, .name m.tree ms⟩
    rw [scanMembers, scanString_cut named within (List.cons_ne_nil d ds)]
  rcases cut_blanks behindName with nothing | ⟨afterColon, rfl, behindColon⟩
  · refine .inl ⟨_, ?_, .within (lettersToken m.name) (.broken m.value.tree) ms⟩
    rw [scanMembers, scanString_text]
    simp only [nothing]
  rw [← List.append_assoc] at behindColon
  rcases cut_append behindColon with ⟨d, ds, within⟩ | ⟨afterValue, rfl, behindValue⟩
  · have cut := cuts m.behind fuel afterColon _ within (List.cons_ne_nil d ds) (by
      simp only [List.length_append, List.length_cons] at enough
      omega)
    exact .inl (membersCut_within cut ms)
  rcases cut_blanks behindValue with nothing | ⟨kept', rfl, further⟩
  · obtain ⟨b, rfl⟩ := exists_blanks_of_skipBlanks_eq_nil nothing
    let shorter : Member Spelling := { m with after := b }
    have scanned : scanMembers (fuel + 1) (shorter.rest ++ []) = ([m.tree], .broken .cut, none) := by
      refine (scanMembers_member (scanValue_text _) ?_ stops_nil).trans rfl
      simp only [Member.rest, shorter, List.length_append, List.length_cons] at enough ⊢
      omega
    refine .inl ⟨_, ?_, .behind m.tree (.before ms)⟩
    rw [← scanned]
    simp [Member.rest, shorter]
  · exact .inr ⟨kept', by simp [Member.rest], further⟩

theorem scanMembers_cut (m : Member Spelling) (members : List (Member Spelling))
    (cuts : ∀ n ∈ m :: members, (∃ s, (lettersToken n.name).value = .ok s) ∧ n.value.Cuts) (fuel : Nat)
    {kept lost : List Char}
    (text : m.rest ++ (members.flatMap (',' :: ·.text) ++ ['\x7d']) = kept ++ lost) (more : lost ≠ [])
    (enough : 2 * kept.length + 1 < fuel) :
    MembersCut (scanMembers fuel kept) ((m :: members).map Member.tree) := by
  obtain ⟨⟨s, named⟩, first⟩ := cuts m List.mem_cons_self
  induction members generalizing m s fuel kept with
  | nil =>
    rcases membersCut_first named first text enough [] with cut | ⟨_, -, rest⟩
    · exact cut
    · exact absurd (List.append_eq_nil_iff.mp rest.symm).2 more
  | cons n members ih =>
    rw [List.flatMap_cons, List.append_assoc, List.cons_append] at text
    rcases membersCut_first named first text enough _ with cut | ⟨kept, rfl, behindComma⟩
    · exact cut
    simp only [List.length_append, List.length_cons] at enough
    obtain ⟨fuel, rfl⟩ := Nat.exists_eq_add_one_of_ne_zero (n := fuel) (by omega)
    have within : m.rest.length ≤ fuel := by omega
    have scanned := scanMembers_member (scanValue_text m.value) within (stops_comma kept)
    rw [skipBlanks_cons rfl] at scanned
    rw [Member.text, List.append_assoc, List.cons_append] at behindComma
    rcases cut_blanks behindComma with nothing | ⟨kept', rfl, behindQuote⟩
    · simp only [nothing] at scanned
      exact ⟨_, scanned, .behind m.tree (.name n.tree _)⟩
    · simp only [List.length_append, List.length_cons] at enough
      obtain ⟨⟨t, named'⟩, next⟩ := cuts n (List.mem_cons_of_mem m List.mem_cons_self)
      obtain ⟨us, scanned', cut⟩ := ih n (fun k mem => cuts k (List.mem_cons_of_mem m mem)) fuel
        behindQuote (by omega) next t named'
      simp only [skipBlanks_append, skipBlanks_cons (c := '"') rfl, scanned'] at scanned
      exact ⟨_, scanned, .behind m.tree cut⟩

theorem cuts_object (inner : Blanks) {members : List (Member Spelling)}
    (cuts : ∀ n ∈ members, (∃ s, (lettersToken n.name).value = .ok s) ∧ n.value.Cuts) :
    (Spelling.object inner members).Cuts := by
  refine Spelling.cuts_of fun fuel c kept lost text more enough => ?_
  rw [Spelling.text_object, List.cons_append, List.cons_append, List.append_assoc] at text
  obtain ⟨rfl, content⟩ := List.cons.inj text
  rw [Spelling.tree_object, scanValue_brace]
  by_cases nothing : skipBlanks kept = []
  · simp only [nothing]
    exact .stopped (.object (.before _))
  rcases cut_append content with ⟨d, ds, within⟩ | ⟨kept, rfl, rest⟩
  · exact absurd (skipBlanks_of_within within) nothing
  rw [skipBlanks_append] at nothing ⊢
  cases members with
  | nil =>
    rcases cut_cons rest with rfl | ⟨_, -, closing⟩
    · exact absurd rfl nothing
    · exact absurd (List.append_eq_nil_iff.mp closing.symm).2 more
  | cons m members =>
    rw [List.map_cons, intercalate_comma, List.flatMap_map, Member.text, List.append_assoc,
      List.append_assoc, List.cons_append] at rest
    rcases cut_blanks rest with nothing' | ⟨kept, rfl, behindQuote⟩
    · exact absurd nothing' nothing
    obtain ⟨us, scanned, cut⟩ := scanMembers_cut m members cuts fuel behindQuote more (by
      simp only [List.length_append, List.length_cons] at enough
      omega)
    simp only [skipBlanks_append, skipBlanks_cons (c := '"') rfl, scanned]
    exact .stopped (.object cut)

/-- **A text that is cut within a written value is scanned as cut.** -/
theorem scanValue_cut {x : Spelling} (plain : x.tree.Plain) : x.Cuts := by
  induction x with
  | literal word => exact cuts_literal plain
  | number n => exact cuts_number plain
  | string ls => exact cuts_string plain
  | array inner items ih =>
    exact cuts_array inner fun i mem => ih i mem (Spelling.plain_array plain i mem)
  | object inner members ih =>
    refine cuts_object inner fun m mem => ?_
    obtain ⟨named, plain⟩ := Spelling.plain_object plain m mem
    exact ⟨named, ih m mem plain⟩

end StateReplica.Json
