import MigrationAudit.Proofs.Pascal.Declared

/-!
# Class bodies read back

Member by member, and section by section, reading the body of a class finds what it declares, with
the lines on which it stands.
-/

namespace MigrationAudit.Pascal

open Text Source

variable {source : Masked} {s : ExtractionSettings} {owner : String} {m : Members} {n line : Nat}
  {v : Visibility} {found : List PlacedMember} {a b rest : List Char}

/-! ## Lines -/

/-- From byte `n` on, which lies on `line`, the source has the line ends of `cs`. -/
def LinesUp (source : Masked) (n line : Nat) (cs : List Char) : Prop :=
  ∀ a b, cs = a ++ b → source.lineAt (n + width a) = line + a.count '\n'

theorem LinesUp.of_append (h : LinesUp source n line (a ++ b)) :
    LinesUp source n line a ∧ LinesUp source (n + width a) (line + a.count '\n') b := by
  constructor
  · rintro c d rfl
    exact h c (d ++ b) (by rw [List.append_assoc])
  · rintro c d rfl
    have hjoined := h (a ++ c) d (by rw [List.append_assoc])
    rwa [width_append, List.count_append, ← Nat.add_assoc, ← Nat.add_assoc] at hjoined

theorem linesUp_of (s : Syntax) (front cs rest : List Char) :
    LinesUp (.of s (front ++ (cs ++ rest))) (width front) (1 + front.count '\n') cs := by
  rintro a b rfl
  have hsplit : front ++ ((a ++ b) ++ rest) = (front ++ a) ++ (b ++ rest) := by simp
  rw [Masked.lineAt_eq, hsplit, ← width_append, takeBytes_width_append, List.count_append,
    Nat.add_assoc]

theorem count_text {m : MemberText} (h : m.IsPlain) : m.text.count '\n' = 1 := by
  obtain ⟨hfront, htrailer⟩ := madeOf_front h
  have hfront : m.front.count '\n' = 0 :=
    List.count_eq_zero.mpr (hfront.not_mem (by decide) (by decide))
  have htrailer : m.trailer.count '\n' = 0 :=
    List.count_eq_zero.mpr (htrailer.not_mem (by decide) (by decide))
  have hgap : "\n    ".toList.count '\n' = 1 := by decide
  rw [MemberText.text, List.count_append, List.count_append, List.count_cons_of_ne (by decide),
    hgap, hfront, htrailer]

/-! ## Members -/

theorem readFrom_flat (h : MadeOf flatMarks a) :
    readFrom source s owner m n (a ++ ';' :: rest) =
      readFrom source s owner (noteStatement source s owner m (n, a)) (n + width (a ++ [';']))
        rest := by
  refine readFrom_statement ?_
  rw [h.splitStatement_append]
  exact Prod.ext (List.append_nil a) rfl

theorem Holds.noteStatement_directive {classLevel : Bool} {header : Header} {done : List String}
    {d : String} (h : Holds s owner m v (found ++ [⟨v, line, .method classLevel header done⟩]))
    (hd : d ∈ directives) :
    Holds s owner (noteStatement source s owner m (n, [' '] ++ d.toList)) v
      (found ++ [⟨v, line, .method classLevel header (done ++ [d])⟩]) := by
  have hall : ∀ d ∈ directives, isIdentifier d.toList = true ∧
      lowered d.toList ∉ MemberContext.prefixWords ∧ lowered d.toList ∉ blockWords := by decide
  obtain ⟨hident, hprefix, hblock⟩ := hall d hd
  obtain ⟨hne, hchars⟩ := isIdent_of_isIdentifier hident
  have hstart : StartsFreeOf MemberContext.prefixWords d.toList :=
    ⟨d.toList, [], (List.append_nil _).symm, hident, hprefix, rfl⟩
  have hnote : noteStatement source s owner m (n, [' '] ++ d.toList) =
      Members.readDeclaration { m with context := { m.context with classLevel := false } } s owner
        0 0 d.toList (source.lineAt (n + width [' '])) :=
    noteStatement_declaration false h.recordDepth (List.all_eq_true.mp (by decide)) hstart
      (startsVisibly_of_isIdent hne hchars).2 (.of_word hident hblock)
  rw [hnote]
  exact (h.withClassLevel false).directive_text hd _

theorem readFrom_directives {classLevel : Bool} {header : Header} {done words : List String}
    (h : Holds s owner m v (found ++ [⟨v, line, .method classLevel header done⟩]))
    (hwords : ∀ d ∈ words, d ∈ directives) :
    ∃ m', readFrom source s owner m n (directivesText words ++ rest) =
        readFrom source s owner m' (n + width (directivesText words)) rest ∧
      Holds s owner m' v (found ++ [⟨v, line, .method classLevel header (done ++ words)⟩]) := by
  -- a directive is a statement of its own that belongs to the method found last
  induction words generalizing m n done with
  | nil => exact ⟨m, rfl, by rwa [List.append_nil]⟩
  | cons d words ih =>
    obtain ⟨hd, hwords⟩ := List.forall_mem_cons.mp hwords
    have hall : ∀ d ∈ directives, MadeOf flatMarks ([' '] ++ d.toList) := by decide
    obtain ⟨m', hread, hholds⟩ := ih (n := n + width ([' '] ++ d.toList ++ [';']))
      (Holds.noteStatement_directive h hd) hwords
    have hsplit : directivesText (d :: words) ++ rest =
        ([' '] ++ d.toList) ++ ';' :: (directivesText words ++ rest) := by simp [directivesText]
    have hwidth : n + width ([' '] ++ d.toList ++ [';']) + width (directivesText words) =
        n + width (directivesText (d :: words)) := by
      rw [Nat.add_assoc, ← width_append]
      simp [directivesText]
    refine ⟨m', ?_, by simpa using hholds⟩
    rw [hsplit, readFrom_flat (hall d hd), hread, hwidth]

/-- A member without its directives. -/
def MemberText.bare : MemberText → MemberText
  | .method classLevel header _ => .method classLevel header []
  | m => m

theorem Holds.noteStatement_front {t : MemberText} (h : Holds s owner m v found) (ht : t.IsPlain)
    (hlines : LinesUp source n line ("\n    ".toList ++ t.front)) :
    Holds s owner (noteStatement source s owner m (n, "\n    ".toList ++ t.front)) v
      (found ++ [⟨v, line + 1, t.bare⟩]) := by
  have hblank : ∀ c ∈ "\n    ".toList, isBlank c = true := List.all_eq_true.mp (by decide)
  have hline (classLevel : Bool) (text : List Char)
      (hfront : t.front = classWord classLevel ++ text) :
      source.lineAt (n + width "\n    ".toList + width (classWord classLevel)) = line + 1 := by
    have hat := hlines ("\n    ".toList ++ classWord classLevel) text (by
      rw [hfront, List.append_assoc])
    have hcount : ("\n    ".toList ++ classWord classLevel).count '\n' = 1 := by
      cases classLevel <;> decide
    rwa [width_append, ← Nat.add_assoc, hcount] at hat
  have htame := isTame_front ht
  cases t with
  | fields names typeName =>
    have hfront : (MemberText.fields names typeName).front =
        classWord false ++ (MemberText.fields names typeName).front := rfl
    rw [hfront, noteStatement_declaration false h.recordDepth hblank
      (startsFreeOf_fields (by decide) ht) (front_ends ht).2 htame, hline false _ rfl]
    exact (h.withClassLevel false).fields_text ht
  | property name index typeName specifiers =>
    have hfront : (MemberText.property name index typeName specifiers).front =
        classWord false ++ (MemberText.property name index typeName specifiers).front := rfl
    rw [hfront, noteStatement_declaration false h.recordDepth hblank
      (startsFreeOf_property (by decide) name index typeName specifiers) (front_ends ht).2 htame,
      hline false _ rfl]
    exact (h.withClassLevel false).property_text ht
  | method classLevel header words =>
    have hkind : lowered (tag header.kind).toList ∉ MemberContext.prefixWords := by
      cases header.kind <;> decide
    rw [MemberText.front_method, noteStatement_declaration classLevel h.recordDepth hblank
      (header.startsFreeOf hkind) ht.1.ends.2 htame, hline classLevel _ rfl]
    exact (h.withClassLevel classLevel).method_text ht.1

theorem readFrom_member {t : MemberText} (h : Holds s owner m v found) (ht : t.IsPlain)
    (hlines : LinesUp source n line t.text) (rest : List Char) :
    ∃ m', readFrom source s owner m n (t.text ++ rest) =
        readFrom source s owner m' (n + width t.text) rest ∧
      Holds s owner m' v (found ++ [⟨v, line + 1, t⟩]) := by
  have hsplit : t.text ++ rest = ("\n    ".toList ++ t.front) ++ ';' :: (t.trailer ++ rest) := by
    simp only [MemberText.text, List.append_assoc, List.cons_append]
  have hpiece : splitStatement 0 (("\n    ".toList ++ t.front) ++ ';' :: (t.trailer ++ rest)) =
      ("\n    ".toList ++ t.front, ';' :: (t.trailer ++ rest)) := by
    have hgap : MadeOf flatMarks "\n    ".toList := by decide
    rw [List.append_assoc, hgap.splitStatement_append, splitStatement_front ht]
  have hfront := h.noteStatement_front ht (LinesUp.of_append (b := ';' :: t.trailer) (by
    rwa [MemberText.text, ← List.append_assoc] at hlines)).1
  rw [hsplit, readFrom_statement hpiece]
  cases t with
  | method classLevel header words =>
    have hwidth : n + width (("\n    ".toList ++ (classWord classLevel ++ header.text)) ++ [';']) +
        width (directivesText words) =
          n + width (MemberText.method classLevel header words).text := by
      rw [Nat.add_assoc, ← width_append]
      simp only [MemberText.text, MemberText.front_method, MemberText.trailer, List.append_assoc,
        List.singleton_append]
    rw [← hwidth]
    exact readFrom_directives hfront ht.2
  | fields names typeName => exact ⟨_, rfl, hfront⟩
  | property name index typeName specifiers => exact ⟨_, rfl, hfront⟩

/-! ## Sections -/

theorem readFrom_members {ms : List MemberText} (h : Holds s owner m v found)
    (hms : ∀ t ∈ ms, t.IsPlain) (hlines : LinesUp source n line (membersText ms))
    (rest : List Char) :
    ∃ m', readFrom source s owner m n (membersText ms ++ rest) =
        readFrom source s owner m' (n + width (membersText ms)) rest ∧
      Holds s owner m' v (found ++ placeMembers v (line + 1) ms) := by
  induction ms generalizing m n line found with
  | nil => exact ⟨m, rfl, by rwa [placeMembers, List.append_nil]⟩
  | cons t ms ih =>
    obtain ⟨ht, hms⟩ := List.forall_mem_cons.mp hms
    rw [membersText_cons] at hlines ⊢
    obtain ⟨hfirst, hrest⟩ := hlines.of_append
    rw [count_text ht] at hrest
    obtain ⟨m₁, hread, hholds⟩ := readFrom_member h ht hfirst (membersText ms ++ rest)
    obtain ⟨m₂, hread', hholds'⟩ := ih hholds hms hrest
    refine ⟨m₂, ?_, by simpa [placeMembers] using hholds'⟩
    rw [List.append_assoc, hread, hread', width_append, Nat.add_assoc]

theorem count_membersText {ms : List MemberText} (h : ∀ t ∈ ms, t.IsPlain) :
    (membersText ms).count '\n' = ms.length := by
  induction ms with
  | nil => rfl
  | cons t ms ih =>
    obtain ⟨ht, hms⟩ := List.forall_mem_cons.mp h
    rw [membersText_cons, List.count_append, count_text ht, ih hms, List.length_cons, Nat.add_comm]

theorem readFrom_sections {ss : List SectionText} (h : Holds s owner m v found)
    (hss : ∀ t ∈ ss, t.IsPlain) (hlines : LinesUp source n line (sectionsText ss))
    (hrest : IsTame rest) (hhead : rest.head? = some '\n') :
    ∃ m' v', readFrom source s owner m n (sectionsText ss ++ rest) =
        readFrom source s owner m' (n + width (sectionsText ss)) rest ∧
      Holds s owner m' v' (found ++ placeSections (line + 1) ss) := by
  -- the visibility of a section holds up to the next keyword, so it is general as well
  induction ss generalizing m n line v found with
  | nil => exact ⟨m, v, rfl, by rwa [placeSections, List.append_nil]⟩
  | cons t ss ih =>
    obtain ⟨ht, hss⟩ := List.forall_mem_cons.mp hss
    rw [sectionsText_cons] at hlines ⊢
    obtain ⟨hfirst, hlater⟩ := hlines.of_append
    obtain ⟨-, hmembers⟩ := hfirst.of_append
    have hcount : (headingText t.visibility).count '\n' = 1 := by
      cases t.visibility <;> decide
    rw [hcount] at hmembers
    rw [List.count_append, hcount, count_membersText ht.members, ← Nat.add_assoc, width_append,
      ← Nat.add_assoc] at hlater
    have hhead' := head?_sectionsText ss hhead
    have htame := isTame_membersText ht.members (isTame_sectionsText hss hrest hhead) hhead'
    obtain ⟨m₁, hread, hholds⟩ :=
      readFrom_members (h.withVisibility t.visibility) ht.members hmembers (sectionsText ss ++ rest)
    obtain ⟨m₂, v₂, hread', hholds'⟩ := ih hholds hss hlater
    refine ⟨m₂, v₂, ?_, ?_⟩
    · rw [List.append_assoc, List.append_assoc, readFrom_heading ht.visibility h.recordDepth htame
        (head?_membersText t.members hhead'), hread, hread', width_append, width_append,
        ← Nat.add_assoc, ← Nat.add_assoc]
    · rw [List.append_assoc, Nat.add_right_comm (line + 1)] at hholds'
      exact hholds'

/-- The members that a class declares are found in its body. -/
theorem holds_read {c : ClassText} (hc : c.IsPlain) {body : Span}
    (hbody : body.slice source.code = c.body) (hlines : LinesUp source body.start 2 c.body) :
    ∃ v, Holds s c.name (Members.read source s c.name body) v c.placed := by
  rw [ClassText.body] at hlines
  obtain ⟨hleading, hrest⟩ := hlines.of_append
  obtain ⟨hsections, -⟩ := hrest.of_append
  have hend : IsTame "\n  ".toList := .of_isBlank (by decide)
  have hstart : Holds s c.name {} .publishedAccess [] := ⟨rfl, rfl, rfl, rfl, rfl, rfl⟩
  rw [count_membersText hc.leading] at hsections
  obtain ⟨m₁, hread, hholds⟩ :=
    readFrom_members hstart hc.leading hleading (sectionsText c.sections ++ "\n  ".toList)
  obtain ⟨m₂, v, hread', hholds'⟩ := readFrom_sections hholds hc.sections hsections hend rfl
  refine ⟨v, ?_⟩
  rw [members_read_eq, hbody, ClassText.body, hread, hread', readFrom_end]
  rwa [Nat.add_right_comm] at hholds'

end MigrationAudit.Pascal
