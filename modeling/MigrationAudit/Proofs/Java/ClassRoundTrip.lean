import MigrationAudit.Proofs.Java.ClassCode
import MigrationAudit.Proofs.Java.ClassHead
import MigrationAudit.Proofs.Java.Laminar

/-!
# Classes read back

A class that is written out is the one type that is found in its text: its ancestors and its members
one by one, without a note. Its name is read up to the first dollar sign, so it is found under its
own name exactly when there is none in it.
-/

namespace MigrationAudit.Java

open Text Source Cursor
open scoped Listed

variable {w : Walk} {c d : Cursor}

theorem types_membersScope (owner : String) (front : List Char) (ms : List MemberText) :
    (membersScope owner front ms).types = [] ∧ (membersScope owner front ms).diagnostics = [] := by
  have hone : ∀ (m : MemberText) (front : List Char),
      (m.scope owner front).types = [] ∧ (m.scope owner front).diagnostics = [] := by
    rintro ⟨modifiers, named, _ | ⟨params, body⟩⟩ front <;> exact ⟨rfl, rfl⟩
  induction ms generalizing front with
  | nil => exact ⟨rfl, rfl⟩
  | cons m ms ih =>
    obtain ⟨htypes, hdiagnostics⟩ := hone m front
    obtain ⟨htypes', hdiagnostics'⟩ := ih (front ++ m.text)
    rw [membersScope, Scope.types_append, Scope.diagnostics_append, htypes, htypes', hdiagnostics,
      hdiagnostics']
    exact ⟨rfl, rfl⟩

/-- A type that stands alone is read with what its members declare. -/
theorem readScope_of_type {t : OpenType} (h : nextItem w none c = .type t d)
    (hdepth : 0 < w.maxDepth) (hd : nextItem w none d = .nothing) :
    readScope w none 0 c =
      t.close w (readScope w (some ⟨t.parsed.name, t.parsed.kind⟩) 1 t.members) ++ {} := by
  have hshallow : ¬w.maxDepth < 0 + 1 := by omega
  rw [readScope]
  split
  · simp_all
  · simp_all
  · simp_all
  · next t' d' heq =>
    rw [h] at heq
    obtain ⟨rfl, rfl⟩ := Item.type.inj heq
    rw [if_neg hshallow, readScope_of_nothing hd]

namespace ClassText

variable (t : ClassText)

def start : List Char := "class ".toList ++ t.word

theorem start_eq : t.start = "class ".toList ++ t.word := rfl

theorem front_eq : t.front = t.start ++ (t.dollar ++ t.head) := by
  rw [front, ← t.word_append_dollar, start_eq]
  simp

def rest : List Char := ' ' :: (t.word ++ (t.dollar ++ t.head ++ '\x7b' :: (t.body ++ ['\x7d'])))

theorem text_eq : t.text = "class".toList ++ t.rest := by
  rw [text, front_eq, start_eq, rest]
  simp

def opened : OpenType where
  parsed := { t.parsed with fields := [], methods := [] }
  body := between (t.front ++ ['\x7b']) t.body
  closed := true
  namePlace := width "class ".toList

def inner : Scope := membersScope t.parsed.name (t.front ++ ['\x7b']) t.members

theorem close_inner (w : Walk) : t.opened.close w t.inner = { types := [t.parsed] } := by
  obtain ⟨htypes, hdiagnostics⟩ := types_membersScope t.parsed.name (t.front ++ ['\x7b']) t.members
  have hclosed : t.opened.unclosed w = [] := rfl
  rw [OpenType.close, hclosed, inner, htypes, hdiagnostics]
  rfl

variable {t} (h : t.IsPlain)

include h

theorem isIdent_word : t.word ≠ [] ∧ ∀ a ∈ t.word, isIdent a = true := by
  constructor
  · intro hnil
    have hhead := t.head?_dollar
    rw [← List.nil_append t.dollar, ← hnil, t.word_append_dollar, h.start] at hhead
    exact absurd hhead Bool.true_eq_false.mp
  · intro a ha
    have hpart := h.name.chars a ((List.takeWhile_prefix (· != '$')).subset ha)
    have hdollar : (a != '$') = true := @List.mem_takeWhile_imp _ (· != '$') _ _ ha
    simpa [isNamePart, bne_iff_ne.mp hdollar] using hpart

omit h in
theorem startsDeclaration (t : ClassText) : StartsDeclaration t.text where
  visible := by
    rw [text_eq]
    rfl
  not_annotation := by
    rw [text_eq]
    exact fun heq => absurd (Option.some.inj heq) (by decide)
  not_modifier := by
    have hword : ∀ a ∈ "class".toList, isIdent a = true := by decide
    have hspace : t.rest.head?.any isIdent = false := isIdent_space
    rw [text_eq, takeWhile_append_of_head? hword hspace]
    decide

theorem readType_text (hsource : w.source = .of .java t.text) :
    readType w {} .classType true (Cursor.ofText t.text) (between "class".toList t.rest) =
      .type t.opened (between t.text []) := by
  obtain ⟨hne, hident⟩ := isIdent_word h
  have hafter : (between "class".toList t.rest).after =
      [' '] ++ (t.word ++ (t.dollar ++ t.head ++ '\x7b' :: (t.body ++ ['\x7d']))) := rfl
  have hhead :
      (t.dollar ++ t.head ++ '\x7b' :: (t.body ++ ['\x7d'])).head?.any isIdent = false := by
    rw [List.append_assoc]
    exact t.head?_dollar_append isIdent_space
  have hname := Cursor.adjacentWord?_of_after hafter (by decide) hne hident hhead
  rw [advance_between, advance_between] at hname
  have hfree : ∀ a ∈ t.dollar ++ t.head, ∀ b ∈ nameStops, b ≠ ' ' → b ≠ ',' → a ≠ b := by
    rintro a ha b hb hspace hcomma rfl
    refine not_mem_front h hb hspace hcomma ?_
    rw [front_eq]
    exact List.mem_append_right _ ha
  have hmark : ∀ a ∈ t.dollar ++ t.head, (a == '\x7b' || a == ';') = false := by
    intro a ha
    rw [Bool.or_eq_false_iff, beq_eq_false_iff_ne, beq_eq_false_iff_ne]
    exact ⟨hfree a ha _ (by decide) (by decide) (by decide),
      hfree a ha _ (by decide) (by decide) (by decide)⟩
  have hstops : ∀ a ∈ brackets, a ∈ nameStops ∧ a ≠ ' ' ∧ a ≠ ',' := by decide
  have hbrackets : IsBracketFree (t.dollar ++ t.head) := fun a ha =>
    bracketFree_of_notMem fun hmem => by
      obtain ⟨hstop, hspace, hcomma⟩ := hstops a hmem
      exact hfree a ha a hstop hspace hcomma rfl
  have hbrace := @seekTop_between (t.dollar ++ t.head) (fun a => a == '\x7b' || a == ';') '\x7b'
    hmark hbrackets rfl t.start (t.body ++ ['\x7d'])
  have hblock := delimited_between (by decide) (isPaired_body h) t.front []
  have hend : t.front ++ '\x7b' :: (t.body ++ ['\x7d']) = t.text := rfl
  have hlimit := upTo_between t.start (t.dollar ++ t.head) ('\x7b' :: (t.body ++ ['\x7d']))
  have hline : w.source.lineAt (width "class ".toList) = 1 := by
    have hbegins : "class ".toList <+: t.text := ⟨_, (List.append_assoc ..).symm⟩
    rw [hsource, Masked.lineAt_width .java hbegins]
    decide
  have hstart : "class".toList ++ ([' '] ++ t.word) = t.start := by simp [start_eq]
  have hkeyword : "class".toList ++ [' '] = "class ".toList := by decide
  rw [← front_eq] at hbrace hlimit
  rw [hend] at hblock
  rw [hstart, hkeyword] at hname
  rw [readType, hname]
  simp only [hbrace, hlimit, offset_between, after_between, Word.stop, Word.start, block, hblock,
    read_head h, hline]
  rfl

theorem nextItem_text (hsource : w.source = .of .java t.text) :
    nextItem w none (Cursor.ofText t.text) =
      .type t.opened (between t.text []) := by
  have hword : ∀ a ∈ "class".toList, isIdent a = true ∧ isNamePart a = true := by decide
  have hspace : t.rest.head?.any isIdent = false ∧ t.rest.head?.any isNamePart = false :=
    ⟨isIdent_space, isNamePart_of_mem_nameStops ' ' (by decide)⟩
  have hafter : (Cursor.ofText t.text).after = [] ++ (wordsText [] ++ t.text) := rfl
  have hread : readPrefix (Cursor.ofText t.text) = ({}, Cursor.ofText t.text) :=
    readPrefix_wordsText (List.forall_mem_nil _) hafter (List.forall_mem_nil _) t.startsDeclaration
  have hbehind : (Cursor.ofText t.text).skipWhile isNamePart = between "class".toList t.rest := by
    rw [Cursor.skipWhile_of_after t.text_eq (fun a ha => (hword a ha).2) hspace.2]
    exact advance_between [] _ _ _
  have hkind : keywordKind? (Cursor.ofText t.text).wordHere = some .classType := by
    have htext : (Cursor.ofText t.text).wordHere.text = "class".toList :=
      (congrArg (List.takeWhile isIdent) t.text_eq).trans
        (takeWhile_append_of_head? (fun a ha => (hword a ha).1) hspace.1)
    rw [keywordKind?, htext]
    rfl
  have hhead : (Cursor.ofText t.text).after.head? = some 'c' := congrArg List.head? t.text_eq
  unfold nextItem
  rw [hread]
  simp only
  split
  · next heq => simp [heq] at hhead
  · next heq => simp [heq] at hhead
  · next heq => simp [heq] at hhead
  · next heq => simp [heq] at hhead
  · rw [hkind, hbehind]
    exact readType_text h hsource

omit h in
theorem name_parsed (t : ClassText) : t.parsed.name = t.name ↔ '$' ∉ t.name.toList := by
  have hname : t.parsed.name = t.name ↔ t.word = t.name.toList := by
    rw [← String.toList_inj]
    simp [parsed]
  rw [hname, word, Text.before, List.takeWhile_eq_self_iff]
  constructor
  · exact fun hall hmem => absurd (hall _ hmem) (by decide)
  · intro hnot a ha
    rw [bne_iff_ne]
    rintro rfl
    exact hnot ha

end ClassText

/-- A class that is written out is the one type that is found in its text, with its ancestors and
its members in their order, and nothing is noted. Its name is recorded up to the first dollar
sign. -/
theorem readTypes_text {t : ClassText} (h : t.IsPlain) (path : String) (maxDepth : Nat) :
    readTypes (.of .java t.text) path maxDepth = ([t.parsed], []) ∧
      (t.parsed.name = t.name ↔ '$' ∉ t.name.toList) := by
  refine ⟨?_, t.name_parsed⟩
  let w : Walk := ⟨.of .java t.text, path, max 1 maxDepth⟩
  have hfirst : nextItem w none (Cursor.ofText t.text) = .type t.opened (between t.text []) :=
    ClassText.nextItem_text h rfl
  have hdepth : 0 < w.maxDepth := Nat.lt_of_lt_of_le Nat.one_pos (Nat.le_max_left ..)
  have hscope := readScope_of_type hfirst hdepth (nextItem_blank (List.forall_mem_nil _) t.text)
  have hbegins : t.front ++ ['\x7b'] ++ t.members.flatMap MemberText.text <+: t.text :=
    ⟨['\n', '\x7d'], by simp [ClassText.text, ClassText.body]⟩
  have hmembers : readScope w (some ⟨t.opened.parsed.name, t.opened.parsed.kind⟩) 1
      t.opened.members = t.inner :=
    readScope_text rfl rfl h.members hbegins 1
  rw [hmembers, t.close_inner] at hscope
  have htypes : readTypes (.of .java t.text) path maxDepth =
      ((readScope w none 0 (Cursor.ofText t.text)).types,
        (readScope w none 0 (Cursor.ofText t.text)).diagnostics) := by
    rw [readTypes, ClassText.code_text h]
  rw [htypes, hscope]
  rfl

/-- A class whose name has a dollar sign. -/
def orderLine : ClassText where
  name := "Order$Line"
  parent := some "Base"
  interfaces := ["Audited"]
  members :=
    [ { modifiers := ⟨some .privateAccess, true, true⟩
        named := ⟨⟨"Map", some "String, List<int[]>", 1⟩, "cache"⟩
        form := .field },
      { named := ⟨⟨"void", none, 0⟩, "reset"⟩
        form := .method [] none },
      { modifiers := ⟨some .publicAccess, false, false⟩
        named := ⟨⟨"List", some "? extends Item", 0⟩, "items"⟩
        form := .method
          [⟨⟨⟨"Map", some "A, B", 0⟩, "byKey"⟩, true⟩, ⟨⟨⟨"int", none, 2⟩, "sizes"⟩, false⟩]
          (some "\n        return load(byKey);\n    ") } ]

theorem readTypes_orderLine :
    String.ofList orderLine.text =
        "class Order$Line extends Base implements Audited \x7b\n" ++
        "    private static final Map<String, List<int[]>>[] cache;\n    void reset();\n" ++
        "    public List<? extends Item> items(final Map<A, B> byKey, int[][] sizes) \x7b\n" ++
        "        return load(byKey);\n    \x7d\n\x7d" ∧
    orderLine.IsPlain ∧
    readTypes (.of .java orderLine.text) "OrderLine.java" 64 = ([orderLine.parsed], []) ∧
    orderLine.parsed.fields.map (fun f => (f.name, f.typeName)) =
      [("cache", some "Map<String, List<int[]>>[]")] ∧
    orderLine.parsed.methods.map (fun m => (m.routine.name, m.routine.returnType)) =
      [("reset", none), ("items", some "List<? extends Item>")] ∧
    orderLine.parsed.name = "Order" ∧ orderLine.parsed.name ≠ orderLine.name := by
  have hplain : orderLine.IsPlain := by decide +kernel
  obtain ⟨htypes, hname⟩ := readTypes_text hplain "OrderLine.java" 64
  exact ⟨by decide +kernel, hplain, htypes, by decide +kernel, by decide +kernel,
    by decide +kernel, fun heq => hname.mp heq (by decide)⟩

end MigrationAudit.Java
