import MigrationAudit.Proofs.Pascal.ClassHead
import MigrationAudit.Proofs.Pascal.DeclaredBody
import MigrationAudit.Proofs.Text.Blocks

/-!
# Classes read back

A class that is written out is the one class that is found in its text: its name, its ancestors, and
its members one by one, closed and without a note.
-/

namespace MigrationAudit.Pascal

open Text Source

variable {source : Masked} {s : ExtractionSettings} {c d : Cursor}

/-! ## The end of the body -/

theorem lastSignificant?_of_leads {x : Char} (h : c.Leads d) (hafter : x ∉ c.after)
    (hc : c.lastSignificant? ≠ some x) : d.lastSignificant? ≠ some x := by
  obtain ⟨moved, hmoved, hd⟩ := h
  have hnot : x ∉ moved.reverse := fun hmem => hafter (by simp [hmoved, List.mem_reverse.mp hmem])
  have hbefore : d.before = moved.reverse ++ c.before := by
    rw [hd]
    simp [Cursor.advance, List.reverseAux_eq]
  rw [Cursor.lastSignificant?, hbefore, List.find?_append]
  cases hfound : moved.reverse.find? fun a => !isBlank a with
  | none => exact hc
  | some y =>
    rintro heq
    obtain rfl := Option.some.inj heq
    exact hnot (List.mem_of_find?_eq_some hfound)

theorem classStep_eq_skips {w : Word} (hw : lowered w.text ∉ blockWords)
    (hequals : w.first.lastSignificant? ≠ some '=') : classStep w = .skips := by
  simp only [blockWords, List.mem_cons, List.not_mem_nil, or_false, not_or, lowered] at hw
  unfold classStep Word.lower
  split <;> simp_all

/-- The body of a class ends at the first `end` behind it. -/
theorem exists_scanBlock_body {body : List Char} (htame : IsTame body)
    (hafter : c.after = body ++ "end;".toList) (hlast : body.getLast? = some ' ')
    (hequals : '=' ∉ c.after) (hbefore : c.lastSignificant? ≠ some '=') :
    ∃ deepest, scanBlock classStep c =
      ⟨.closed ⟨c.advance body "end;".toList, "end".toList,
        c.advance (body ++ "end".toList) [';']⟩, deepest⟩ := by
  have hword : isIdentifier "end".toList = true := by decide
  obtain ⟨hne, hident⟩ := isIdent_of_isIdentifier hword
  have hat : (c.advance body "end;".toList).AtEdge := by
    left
    rw [Cursor.head?_before_advance, hlast]
    exact isIdent_space
  obtain ⟨ws, hwords, hspots⟩ := Cursor.exists_words_advance hafter (.inr hat)
  have hskips : ∀ w ∈ ws, classStep w = .skips := by
    intro w hw
    have htext : w.text ∈ (words body).map (·.text) := by
      rw [← map_snd_spots c.offset, ← hspots, List.map_map]
      exact List.mem_map_of_mem hw
    have hlead := (Cursor.leadsWhole_of_mem_words (hwords ▸ List.mem_append_left _ hw)).1.leads
    exact classStep_eq_skips (htame w.text htext) (lastSignificant?_of_leads hlead hequals hbefore)
  exact exists_scanBlock_closed hwords (isBalanced_of_skips (List.forall_mem_map.mpr hskips)) hne
    hident (isIdent_of_mem_bodyMarks ';' (by decide)) rfl

/-! ## The members -/

theorem ofBody_text {text : ClassText} (h : text.IsPlain) {facts : ClassDecl}
    (hname : facts.name = text.name) {start : Nat} (hc : c.StandsIn source.code)
    (hafter : c.after = text.body ++ "end;".toList)
    (hequals : c.lastSignificant? ≠ some '=')
    (hlines : LinesUp source c.offset 2 text.body) :
    ParsedClass.ofBody source s facts start c =
      { facts := withRoles s (text.placed.flatMap (·.components s text.name))
          { facts with
            fields := text.placed.flatMap (·.fields)
            methods := text.placed.flatMap (·.methods s text.name) }
        span := ⟨start, c.offset + width (text.body ++ "end".toList)⟩
        terminated := true
        components := text.placed.flatMap (·.components s text.name) } := by
  have hlast : text.body.getLast? = some ' ' := by
    rw [ClassText.body, ← List.append_assoc, List.getLast?_append]
    rfl
  have hnot : '=' ∉ c.after := by
    rw [hafter, List.mem_append, not_or]
    exact ⟨(madeOf_body h).not_mem (by decide) (by decide), by decide⟩
  obtain ⟨deepest, hscan⟩ := exists_scanBlock_body (isTame_body h) hafter hlast hnot hequals
  have hslice : (Span.mk c.offset (c.advance text.body "end;".toList).offset).slice source.code =
      text.body := hc.slice_eq hafter rfl
  obtain ⟨v, hholds⟩ := holds_read (s := s) h hslice hlines
  rw [ParsedClass.ofBody, hscan]
  simp only [Word.start, hname, BlockScan.stopCursor, BlockScan.isClosed,
    Cursor.offset_advance] at hholds ⊢
  rw [hholds.fields, hholds.methods, hholds.components]

/-! ## The whole text -/

theorem ParsedClass.read?_eq_ofBody (first : Cursor) (value : List Char) {names : List String}
    (hpast : pastModifiers? c = some c) (hbody : semicolonFollows c = false)
    (hancestors : ancestors c = (names, d)) (hd : semicolonFollows d = false) :
    ParsedClass.read? source s ⟨first, value, c⟩ =
      some (.ofBody source s
        { name := String.ofList value
          parent := names.head?
          interfaces := names.tail
          line := source.lineAt first.offset } first.offset d) := by
  rw [ParsedClass.read?, hpast]
  simp [hbody, hancestors, hd]

namespace ClassText

def front (t : ClassText) : List Char :=
  "type\n  ".toList ++ (t.name.toList ++ (" = class".toList ++ ancestorsText t.ancestors))

def atName (t : ClassText) : Cursor :=
  ⟨7, "type\n  ".toList.reverse, t.name.toList ++ (" = class".toList ++ t.tail)⟩

def atAncestors (t : ClassText) : Cursor :=
  t.atName.advance (t.name.toList ++ " = class".toList) t.tail

def atBody (t : ClassText) : Cursor :=
  t.atAncestors.advance (ancestorsText t.ancestors) (t.body ++ "end;".toList)

variable (t : ClassText)

theorem front_eq : t.front =
    "type\n  ".toList ++ (t.name.toList ++ (" = class".toList ++ ancestorsText t.ancestors)) := rfl

theorem text_eq :
    t.text = "type\n  ".toList ++ (t.name.toList ++ (" = class".toList ++ t.tail)) := rfl

theorem text_eq_append : t.text = t.front ++ (t.body ++ "end;".toList) := by
  simp only [t.text_eq, t.front_eq, tail, List.append_assoc]

theorem standsIn_atBody : t.atBody.StandsIn t.text := by
  have hname : t.atName.StandsIn t.text := by
    rw [t.text_eq]
    exact ⟨rfl, List.prefix_refl _⟩
  have hancestors : t.atName.Leads t.atAncestors := .of_advance (List.append_assoc ..).symm
  have hbody : t.atAncestors.Leads t.atBody := .of_advance rfl
  exact hname.of_leads (hancestors.trans hbody)

theorem offset_atBody : t.atBody.offset = width t.front := by
  have hname : t.atName.offset = width "type\n  ".toList := rfl
  rw [atBody, atAncestors, Cursor.offset_advance, Cursor.offset_advance, hname, t.front_eq,
    width_append, width_append, width_append, width_append]
  omega

theorem lineAt_atName : (Masked.of .pascal t.text).lineAt t.atName.offset = 2 := by
  have hlines := linesUp_of .pascal "type\n  ".toList []
    (t.name.toList ++ (" = class".toList ++ t.tail)) [] [] rfl
  have hcount : "type\n  ".toList.count '\n' = 1 := by decide
  rw [List.nil_append, ← t.text_eq, hcount] at hlines
  exact hlines

theorem offset_add_width_body :
    t.atBody.offset + width (t.body ++ "end".toList) = width t.text - 1 := by
  have hend : width "end;".toList = width "end".toList + 1 := rfl
  rw [t.text_eq_append, t.offset_atBody, width_append, width_append, width_append, hend]
  omega

theorem lastSignificant?_atAncestors : t.atAncestors.lastSignificant? = some 's' := by
  have hkeyword : " = class".toList.reverse = 's' :: "salc = ".toList := by decide
  rw [Cursor.lastSignificant?, atAncestors, Cursor.advance, List.reverseAux_eq,
    List.reverse_append, hkeyword]
  rfl

end ClassText

section Texts

variable {t : ClassText} (h : t.IsPlain)

include h

theorem madeOf_ancestorsText : MadeOf lineMarks (ancestorsText t.ancestors) := by
  have hlist : MadeOf lineMarks (listText t.ancestors) :=
    (madeOf_listText h.ancestors).mono (by decide)
  cases hnames : t.ancestors with
  | nil => exact .nil
  | cons n ns =>
    rw [hnames] at hlist
    exact (MadeOf.singleton (by decide)).append (hlist.append (.singleton (by decide)))

theorem madeOf_tail : MadeOf bodyMarks t.tail := by
  have hend : MadeOf bodyMarks "end;".toList := by decide
  have hancestors : MadeOf bodyMarks (ancestorsText t.ancestors) :=
    (madeOf_ancestorsText h).mono (by decide)
  exact hancestors.append ((madeOf_body h).append hend)

theorem head?_tail : t.tail.head?.any isNameChar = false := by
  have hparen : isNameChar '(' = false := (isNameChar_of_ascii (by decide)).1
  obtain ⟨gap, cs, hbody, -, -⟩ := exists_startsFreeOf_body h
  rw [ClassText.tail, hbody]
  cases t.ancestors with
  | nil => exact isNameChar_of_isBlank rfl
  | cons n ns => exact hparen

/-- Nothing in the text of a class is taken for a comment or a literal. -/
theorem code_text : (Masked.of .pascal t.text).code = t.text := by
  have hfront : MadeOf ('=' :: bodyMarks) "type\n  ".toList := by decide
  have hclass : MadeOf ('=' :: bodyMarks) " = class".toList := by decide
  have htail : MadeOf ('=' :: bodyMarks) t.tail :=
    (madeOf_tail h).mono fun x hx => List.mem_cons_of_mem _ hx
  have htext : MadeOf ('=' :: bodyMarks) t.text :=
    hfront.append (h.name.madeOf.append (hclass.append htail))
  have hnone : ∀ x ∈ ['/', '\x7b', '*', '\''], x ∉ t.text := by
    intro x hx
    simp only [List.mem_cons, List.not_mem_nil, or_false] at hx
    obtain rfl | rfl | rfl | rfl := hx <;> exact htext.not_mem (by decide) (by decide)
  -- whatever opens a comment or a literal has one of these characters
  have hopeners : ∀ o ∈ Syntax.pascal.openers, o.any (· ∈ ['/', '\x7b', '*', '\'']) = true := by
    decide
  refine Masked.code_eq_self fun o ho => ?_
  obtain ⟨x, hx, hmark⟩ := List.any_eq_true.mp (hopeners o ho)
  exact ⟨x, hx, hnone x (of_decide_eq_true hmark)⟩

/-- The name of the class is the one place where a class is introduced. -/
theorem classIntroducers_text :
    classIntroducers t.text = [⟨t.atName, t.name.toList, t.atAncestors⟩] := by
  have hbefore : t.atName.before.head?.any isNameChar = false := isNameChar_of_isBlank rfl
  have hread := classIntroduced?_of_after h.name rfl hbefore (head?_tail h)
  have hsplit : "type\n  ".toList ++ (t.name.toList ++ (" = class".toList ++ t.tail)) =
      ("type\n  ".toList ++ (t.name.toList ++ [' '])) ++ '=' :: (" class".toList ++ t.tail) := by
    simp
  have hfront : '=' ∉ "type\n  ".toList ++ (t.name.toList ++ [' ']) := by
    have hname := h.name.not_mem (c := '=') (by decide)
    simp [hname]
  have hback : '=' ∉ " class".toList ++ t.tail := by
    have htail := (madeOf_tail h).not_mem (c := '=') (by decide) (by decide)
    simp [htail]
  exact classIntroducers_eq (List.append_ne_nil_of_right_ne_nil _ (by simp)) hsplit hfront hback
    hread

theorem count_front : t.front.count '\n' = 1 := by
  have hname : t.name.toList.count '\n' = 0 := List.count_eq_zero.mpr (h.name.not_mem (by decide))
  have hancestors : (ancestorsText t.ancestors).count '\n' = 0 :=
    List.count_eq_zero.mpr ((madeOf_ancestorsText h).not_mem (by decide) (by decide))
  have hfirst : "type\n  ".toList.count '\n' = 1 := by decide
  have hclass : " = class".toList.count '\n' = 0 := by decide
  rw [t.front_eq, List.count_append, List.count_append, List.count_append, hname, hancestors,
    hfirst, hclass]

theorem linesUp_body : LinesUp (.of .pascal t.text) t.atBody.offset 2 t.body := by
  have hlines := linesUp_of .pascal t.front t.body "end;".toList
  rwa [← t.text_eq_append, count_front h, ← t.offset_atBody] at hlines

theorem lastSignificant?_atBody : t.atBody.lastSignificant? ≠ some '=' := by
  have hnot : '=' ∉ t.atAncestors.after := (madeOf_tail h).not_mem (by decide) (by decide)
  have hlead : t.atAncestors.Leads t.atBody := .of_advance rfl
  refine lastSignificant?_of_leads hlead hnot ?_
  rw [t.lastSignificant?_atAncestors]
  decide

theorem ParsedClass.read?_text (s : ExtractionSettings) :
    ParsedClass.read? (.of .pascal t.text) s ⟨t.atName, t.name.toList, t.atAncestors⟩ =
      some (t.parsed s) := by
  obtain ⟨gap, cs, hbody, hgap, hcs⟩ := exists_startsFreeOf_body h
  have hafter : t.atAncestors.after = ancestorsText t.ancestors ++ '\n' :: (gap ++ cs) := by
    rw [← hbody]
    rfl
  obtain ⟨hpast, hsemicolon, hancestors⟩ := ancestors_text h.ancestors hafter hgap hcs
  have hat :
      t.atAncestors.advance (ancestorsText t.ancestors) ('\n' :: (gap ++ cs)) = t.atBody := by
    rw [← hbody]
    rfl
  rw [hat] at hancestors
  have hblank : ∀ a ∈ '\n' :: gap, isBlank a = true := List.forall_mem_cons.mpr ⟨rfl, hgap⟩
  have hbodyAfter : t.atBody.after = ('\n' :: gap) ++ cs := hbody
  have hnobody := (skipBlank_of_startsFreeOf hbodyAfter hblank hcs).2
  have hin : t.atBody.StandsIn (Masked.of .pascal t.text).code := by
    rw [code_text h]
    exact t.standsIn_atBody
  rw [ParsedClass.read?_eq_ofBody t.atName t.name.toList hpast hsemicolon hancestors hnobody,
    ofBody_text h String.ofList_toList hin rfl (lastSignificant?_atBody h) (linesUp_body h),
    t.lineAt_atName, t.offset_add_width_body, String.ofList_toList]
  rfl

end Texts

/-- A class that is written out is found again, and nothing else is. -/
theorem findClasses_text {t : ClassText} (h : t.IsPlain) (s : ExtractionSettings) :
    findClasses (.of .pascal t.text) s = [t.parsed s] ∧
      ∀ path, classDiagnostics path (findClasses (.of .pascal t.text) s) = [] := by
  have hfound : findClasses (.of .pascal t.text) s = [t.parsed s] := by
    rw [findClasses_eq, code_text h, classIntroducers_text h, List.foldl_cons, List.foldl_nil,
      withIntroduced, ParsedClass.read?_text h]
    rfl
  rw [hfound]
  exact ⟨rfl, fun path => rfl⟩

/-- A class with an ancestor and an interface whose members stand under three visibilities. -/
def orderForm : ClassText where
  name := "TOrderForm"
  ancestors := ["TForm", "IOrder"]
  leading := [
    .fields ["Orders", "Lines"] "TQuery",
    .method false ⟨.procedure, none, "OnClick", [⟨"Sender", some "TObject", none⟩], none, false⟩ []]
  sections := [
    ⟨.privateAccess, []⟩,
    ⟨.protectedAccess, [
      .property "Items" [⟨"i", some "Integer", some "const"⟩] (some "TLine")
        [("read", "GetItem")]]⟩,
    ⟨.publicAccess, [
      .method true
        ⟨.function, none, "Make", [⟨"x", some "TLine", some "var"⟩, ⟨"y", none, none⟩],
          some "TOrderForm", false⟩
        ["virtual", "abstract"]]⟩]

theorem findClasses_orderForm :
    String.ofList orderForm.text =
        "type\n  TOrderForm = class(TForm, IOrder)\n    Orders, Lines: TQuery;\n" ++
        "    procedure OnClick(Sender: TObject);\n  private\n  protected\n" ++
        "    property Items[const i: Integer]: TLine read GetItem;\n  public\n" ++
        "    class function Make(var x: TLine; y): TOrderForm; virtual; abstract;\n  end;" ∧
      orderForm.IsPlain ∧
      findClasses (.of .pascal orderForm.text) {} = [orderForm.parsed {}] ∧
      ∀ path, classDiagnostics path (findClasses (.of .pascal orderForm.text) {}) = [] :=
  have hplain : orderForm.IsPlain := by decide +kernel
  ⟨by decide +kernel, hplain, findClasses_text hplain {}⟩

end MigrationAudit.Pascal
