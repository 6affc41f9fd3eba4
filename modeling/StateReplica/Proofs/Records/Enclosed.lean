import Mathlib.Data.List.Perm.Basic
import StateReplica.Proofs.Json.Settled
import StateReplica.Proofs.Records.Texts

/-!
Bundles within notices. A bundle on its own is read while its text is; within a notice that it has changed it
is settled first, since the tag of the notice may stand behind it. Both ways the same bundles are read
(`changed_of_accepted`): whatever text is accepted as a bundle is accepted in a notice, as the same bundle.

A bundle with members that it does not know is left out, as it may be accepted on its own only: such a member
is passed over there, but not within a notice.
-/

namespace StateReplica

namespace BundleEvent

open Json

/-- **A notice that a bundle has changed is read** from its tag, its kind and its bundle, in any order, if the
kind and the bundle are read as they are while a text is, and the bundle knows all its members. -/
theorem read_changed {k : BundleEventKind} {b : BundleRecord} {tag kind bundle : Token String × Tree}
    (isTag : tagged.Holds .changed tag) (isKind : kind.1.value = .ok "kind")
    (kindRead : BundleEventKind.choice.readDirect kind.2 = .ok k) (isBundle : bundle.1.value = .ok "bundle")
    (bundleRead : BundleRecord.shape.read .direct bundle.2 = .ok b)
    (known : BundleRecord.shape.knows bundle.2 = true) {members : List (Token String × Tree)}
    (order : members.Perm [tag, kind, bundle]) :
    tagged.read nestingRoom (.object members .closed) = .ok (.changed k b) := by
  have slots : (tagged.fields .changed).put .direct = putFirst "kind" BundleEventKind.choice.readDirect
      (putFirst "bundle" (BundleRecord.shape.read .direct) (Fields.done.put .direct)) := by
    show (Fields.required "kind" (.choice BundleEventKind.choice) _).put .direct = _
    rw [put_required, put_required]
    rfl
  have other : bundle.1.value ≠ .ok "kind" := fun same =>
    absurd (Except.ok.inj (isBundle.symm.trans same)) (by decide)
  have taken : [kind, bundle].foldlM (takeMember ((tagged.fields .changed).put .direct)) (none, none, ()) =
      .ok (some k, some b, ()) := by
    rw [slots]
    exact foldlM_putFirst_cons isKind (List.forall_mem_singleton.mpr other) kindRead
      (foldlM_putFirst_cons isBundle (List.forall_mem_nil _) bundleRead rfl)
  have collected : (tagged.fields .changed).collect (some k, some b, ()) = .ok (k, b, ()) := rfl
  refine Tagged.read_of_direct (by decide) (by decide) isTag order taken ?_ collected
  refine List.forall_mem_cons.mpr ⟨fun name named => ?_, List.forall_mem_singleton.mpr fun name named => ?_⟩
  · obtain rfl := Except.ok.inj (isKind.symm.trans named)
    rfl
  · obtain rfl := Except.ok.inj (isBundle.symm.trans named)
    exact known

/-- Whether a document is a notice of some kind that a bundle has changed, which has some tree: an object of
a tag, a kind and a bundle, in any order and however they are spelled. -/
def Encloses (d : Document) (k : BundleEventKind) (t : Tree) : Prop :=
  ∃ inner members tag kind bundle, d.value = .object inner members ∧ members.Perm [tag, kind, bundle] ∧
    tagged.Holds .changed tag.tree ∧
    ((lettersToken kind.name).value = .ok "kind" ∧
      BundleEventKind.choice.readDirect kind.value.tree = .ok k) ∧
    (lettersToken bundle.name).value = .ok "bundle" ∧ bundle.value.tree = t

theorem parse_of_encloses {d : Document} {k : BundleEventKind} {t : Tree} {b : BundleRecord}
    (encloses : Encloses d k t) (read : BundleRecord.shape.read .direct t = .ok b)
    (known : BundleRecord.shape.knows t = true) : tagged.format.parse d.text = .ok (.changed k b) := by
  obtain ⟨inner, members, tag, kind, bundle, eq, order, isTag, ⟨isKind, kindRead⟩, isBundle, rfl⟩ := encloses
  rw [Format.parse_document, eq, Spelling.tree_object]
  exact @read_changed k b tag.tree kind.tree bundle.tree isTag isKind kindRead isBundle read known _
    (order.map Member.tree)

/-- The text of a notice around that of a bundle is that of a document, in whatever order its members are. -/
theorem exists_encloses (d : Document) (k : BundleEventKind) {members : List String}
    (order : members.Perm
      ["\"type\":\"changed\"", "\"kind\":\"" ++ k.name ++ "\"", "\"bundle\":" ++ d.text]) :
    ∃ d' : Document, d'.text = "\x7b" ++ ",".intercalate members ++ "\x7d" ∧ Encloses d' k d.value.tree := by
  obtain ⟨ofType, typeText, typeToken⟩ := exists_letters_of_plain "type" (by decide +kernel)
  obtain ⟨ofChanged, changedText, changedToken⟩ := exists_letters_of_plain "changed" (by decide +kernel)
  obtain ⟨ofKind, kindText, kindToken⟩ := exists_letters_of_plain "kind" (by decide +kernel)
  obtain ⟨ofName, nameText, nameToken⟩ := exists_letters_of_plain k.name (by cases k <;> decide +kernel)
  obtain ⟨ofBundle, bundleText, bundleToken⟩ := exists_letters_of_plain "bundle" (by decide +kernel)
  have spelled : List.Forall₂ (fun (text : String) (m : Member Spelling) => text.toList = m.text)
      ["\"type\":\"changed\"", "\"kind\":\"" ++ k.name ++ "\"", "\"bundle\":" ++ d.text]
      [⟨.none, ofType, .none, .none, .string ofChanged, .none⟩,
        ⟨.none, ofKind, .none, .none, .string ofName, .none⟩,
        ⟨.none, ofBundle, .none, d.before, d.value, d.after⟩] := by
    refine .cons ?_ (.cons ?_ (.cons ?_ .nil))
    · simp [Member.text, Member.rest, Spelling.text, Blanks.none, typeText, changedText]
    · simp [Member.text, Member.rest, Spelling.text, Blanks.none, kindText, nameText]
    · simp [Member.text, Member.rest, Document.text, Blanks.none, bundleText]
  -- the members are spelled one by one, and then put into the order that is asked for
  obtain ⟨ms, texts, order⟩ := List.perm_comp_forall₂ order spelled
  refine ⟨⟨.none, .object .none ms, .none⟩, text_of_members texts, .none, ms, _, _, _, rfl, order,
    ⟨congrArg Token.value typeToken, ?_⟩, ⟨congrArg Token.value kindToken, ?_⟩,
    congrArg Token.value bundleToken, rfl⟩
  · show tagged.readTag (.string (lettersToken ofChanged)) = _
    rw [changedToken]
    rfl
  · show BundleEventKind.choice.readDirect (.string (lettersToken ofName)) = _
    rw [nameToken]
    exact BundleEventKind.choice.ofName_name k

/-- **A bundle is accepted within a notice as it is on its own.** Whatever text is accepted as a bundle that
knows all its members, a notice of any kind that this bundle has changed is accepted, its members in any order,
and the notice is about the same bundle. Nor does it matter how the notice is spelled around the bundle. -/
theorem changed_of_accepted (k : BundleEventKind) {text : String} {b : BundleRecord}
    (accepted : BundleRecord.shape.format.parse text = .ok b)
    (known : BundleRecord.shape.knows (scan text.toList).1 = true) :
    (∀ members : List String,
      members.Perm ["\"type\":\"changed\"", "\"kind\":\"" ++ k.name ++ "\"", "\"bundle\":" ++ text] →
      tagged.format.parse ("\x7b" ++ ",".intercalate members ++ "\x7d") = .ok (.changed k b)) ∧
    ∀ d : Document, Encloses d k (scan text.toList).1 → tagged.format.parse d.text = .ok (.changed k b) := by
  obtain ⟨d, rfl, read⟩ := Format.parse_eq_ok_iff.mp accepted
  rw [scan_document] at known ⊢
  refine ⟨fun members order => ?_, fun d' encloses => parse_of_encloses encloses read known⟩
  obtain ⟨d', text, encloses⟩ := exists_encloses d k order
  rw [← text]
  exact parse_of_encloses encloses read known

/-- A bundle written as an array, its state as an object, with a service whose properties repeat a name; in
the notice it stands before the kind and the tag. -/
theorem changed_of_accepted_array :
    let text := "[1,\"b\",\"\",\x7b\"ACTIVE\":null\x7d,\"\",[\x7b\"id\":7,\"bundleId\":1," ++
      "\"properties\":\x7b\"a\":\"1\",\"a\":\"2\"\x7d\x7d]]"
    let b : BundleRecord := ⟨1, "b", "", .active, "", [⟨7, 1, [], .ofList [("a", "2")]⟩]⟩
    let members := ["\"type\":\"changed\"", "\"kind\":\"" ++ BundleEventKind.name .started ++ "\"",
      "\"bundle\":" ++ text]
    BundleRecord.shape.format.parse text = .ok b ∧ BundleRecord.shape.knows (scan text.toList).1 = true ∧
      tagged.format.parse ("\x7b" ++ ",".intercalate members.reverse ++ "\x7d") =
        .ok (.changed .started b) := by
  intro text b members
  have accepted : BundleRecord.shape.format.parse text = .ok b := by decide +kernel
  have known : BundleRecord.shape.knows (scan text.toList).1 = true := by decide +kernel
  exact ⟨accepted, known, (changed_of_accepted .started accepted known).1 _ members.reverse_perm⟩

end BundleEvent

end StateReplica
