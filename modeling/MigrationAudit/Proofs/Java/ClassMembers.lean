import MigrationAudit.Proofs.Java.ParamText
import MigrationAudit.Proofs.Source.Continuation

/-!
# Members read back

In front of each member stands the cursor behind the one before it. Reading the member leads to the
cursor behind it and gives what it declares, so the members of a class are read one by one.
-/

namespace MigrationAudit

open Text Source
open scoped Listed

/-! ## Cursors between two parts of a text -/

namespace Text.Cursor

/-- The cursor behind the first part of a text and in front of the rest. -/
def between (front rest : List Char) : Cursor := ⟨width front, front.reverse, rest⟩

variable {front moved rest : List Char}

@[simp] theorem after_between : (between front rest).after = rest := rfl

@[simp] theorem offset_between : (between front rest).offset = width front := rfl

theorem advance_between (front moved rest rest' : List Char) :
    (between front rest').advance moved rest = between (front ++ moved) rest := by
  simp [between, advance, List.reverseAux_eq, width_append]

theorem next_between (front : List Char) (a : Char) (rest : List Char) :
    (between front (a :: rest)).next = between (front ++ [a]) rest :=
  advance_between front [a] rest _

theorem upTo_between (front moved rest : List Char) :
    (between front (moved ++ rest)).upTo (width (front ++ moved)) = between front moved := by
  rw [upTo, offset_between, width_append, Nat.add_sub_cancel_left, after_between,
    takeBytes_width_append]
  rfl

end Text.Cursor

namespace Java

open Cursor

variable {front moved rest cs : List Char} {c d : Cursor}

theorem textBetween_between (front moved rest : List Char) :
    textBetween (between front (moved ++ rest)) (between (front ++ moved) rest) = moved := by
  rw [textBetween, offset_between, offset_between, width_append, Nat.add_sub_cancel_left,
    after_between, takeBytes_width_append]

/-- What stands between paired delimiters, and the cursor behind them. -/
theorem delimited_between {opening close : Char} (hne : close ≠ opening)
    (h : IsPaired (· == opening) (· == close) cs) (front rest : List Char) :
    delimited opening close (between front (opening :: (cs ++ close :: rest))) =
      ⟨between (front ++ [opening]) cs, between (front ++ opening :: (cs ++ [close])) rest,
        true⟩ := by
  have hinside : { (between front (opening :: (cs ++ close :: rest))).next with
      after := (opening :: cs).drop 1 } = between (front ++ [opening]) cs := by
    rw [next_between]
    rfl
  rw [delimited, after_between, splitAtClose?_of_isPaired hne h]
  simp only [hinside, advance_between, List.cons_append]

theorem splitTop_append_of_free {p : Char → Bool} (h : ∀ a ∈ cs, p a = false)
    (hfree : IsBracketFree cs) : splitTop p 0 (cs ++ rest) =
      (cs ++ (splitTop p 0 rest).1, (splitTop p 0 rest).2) := by
  induction cs with
  | nil => rfl
  | cons a cs ih =>
    obtain ⟨ha, hcs⟩ := List.forall_mem_cons.mp h
    obtain ⟨⟨hopens, hcloses⟩, hfree⟩ := List.forall_mem_cons.mp hfree
    simp only [isOpening, isClosing, Bool.or_eq_false_iff] at hopens hcloses
    have hdepth : depthBehind 0 a = 0 := by simp [depthBehind, hopens, hcloses]
    rw [List.cons_append, splitTop, ha, Bool.and_false, if_neg Bool.false_ne_true, hdepth,
      ih hcs hfree]
    rfl

theorem seekTop_between {p : Char → Bool} {a : Char} (h : ∀ a ∈ cs, p a = false)
    (hfree : IsBracketFree cs) (ha : p a = true) (front rest : List Char) :
    seekTop p (between front (cs ++ a :: rest)) = between (front ++ cs) (a :: rest) := by
  have hhere : splitTop p 0 (a :: rest) = ([], a :: rest) := by
    rw [splitTop, ha]
    rfl
  rw [seekTop, after_between, splitTop_append_of_free h hfree, hhere, List.append_nil,
    advance_between]

/-! ## Declarations -/

theorem keywordKind?_eq_none {w : Word} (h : String.ofList w.text ∉ reserved) :
    keywordKind? w = none := by
  simp only [reserved, List.mem_append, List.mem_cons, List.not_mem_nil, or_false, not_or] at h
  have hkind : TypeKind.ofKeyword? (String.ofList w.text) = none := by
    unfold TypeKind.ofKeyword?
    split <;> simp_all
  rw [keywordKind?, hkind]

theorem nextItem_eq_readMember {w : Walk} {owner : Owner} {p : Prefix} {start : Cursor}
    (hread : readPrefix start = (p, c)) (hhead : c.after.head?.any isNamePart = true)
    (hword : String.ofList (c.after.takeWhile isIdent) ∉ reserved) :
    nextItem w (some owner) start = readMember w owner p start c := by
  have hmark : ∀ a cs, isNamePart a = false → c.after ≠ a :: cs := by
    intro a cs ha heq
    rw [heq, List.head?_cons, Option.any_some, ha] at hhead
    exact Bool.false_ne_true hhead
  unfold nextItem
  rw [hread]
  simp only
  split
  · next heq => simp [heq] at hhead
  · next heq => exact absurd heq (hmark _ _ (by decide))
  · next heq => exact absurd heq (hmark _ _ (by decide))
  · next heq => exact absurd heq (hmark _ _ (by decide))
  · have hkind : keywordKind? c.wordHere = none := keywordKind?_eq_none hword
    rw [hkind]

section Members

variable {w : Walk} {owner : Owner} {p : Prefix} {start : Cursor} {n : NamedText}
  {t : List Char} (h : n.IsPlain)

include h

theorem memberMark_between {a : Char} (ha : a ∈ ['(', '=', ';', '\x7b']) (front rest : List Char) :
    memberMark (between front (n.text ++ a :: rest)) = between (front ++ n.text) (a :: rest) := by
  have hhere : splitMember 0 (a :: rest) = ([], a :: rest) := by
    simp only [List.mem_cons, List.not_mem_nil, or_false] at ha
    rw [splitMember, if_pos (by simpa [or_assoc] using ha)]
  rw [memberMark, after_between, h.passesMark, hhere, List.append_nil, advance_between]

theorem declarators_text :
    declarators n.text = [some (n.type.text ++ [' '], n.name.toList)] := by
  have hne : n.text ≠ [] := List.append_ne_nil_of_right_ne_nil _ (List.cons_ne_nil _ _)
  have hpieces : splitTopLevel ',' (n.text ++ separated ',' []) = [n.text] := by
    refine splitTopLevel_separated rfl rfl (by decide) ?_ ?_ ?_ ?_
    all_goals rw [List.forall_mem_singleton]
    · exact h.isPiece
    · exact hne
    · exact h.ends.1
    · exact h.ends.2
  have hbefore : before '=' n.text = n.text := by
    refine List.takeWhile_eq_self_iff.mpr fun a ha => ?_
    rw [bne_iff_ne]
    rintro rfl
    exact h.not_mem (by decide) ha
  rw [separated, List.flatMap_nil, List.append_nil] at hpieces
  rw [declarators, hpieces, List.map_singleton, hbefore, h.trailingName?]

/-- A field that is written out is read, and the cursor stands behind it. -/
theorem readFields_between (front rest : List Char) :
    readFields w owner p (between front (n.text ++ ';' :: rest))
        (between (front ++ n.text) (';' :: rest)) =
      .members
        { fields := [
            { name := n.name
              typeName := some n.type.label
              visibility := p.visibility owner.kind.defaultVisibility
              annotations := p.labels
              line := w.source.lineAt (width front) }] }
        (between (front ++ n.text ++ [';']) rest) := by
  have hstop : seekTop (· == ';') (between (front ++ n.text) (';' :: rest)) =
      between (front ++ n.text) (';' :: rest) := by
    have hhere : splitTop (· == ';') 0 (';' :: rest) = ([], ';' :: rest) := by
      rw [splitTop]
      rfl
    rw [seekTop, after_between, hhere, advance_between, List.append_nil]
  rw [readFields, hstop, textBetween_between, declarators_text h, next_between]
  simp [h.type.squashed?]

theorem resultText_text : squashed? (resultText (n.type.text ++ [' '])) = some n.type.label := by
  have hhead : (n.type.text ++ [' ']).head?.any (· == '<') = false := by
    rw [h.type.head?_any, List.head?_eq_some_head h.type.name.ne_nil, Option.any_some,
      beq_eq_false_iff_ne]
    exact fun heq => h.type.name.not_mem (by decide) (heq ▸ List.head_mem h.type.name.ne_nil)
  unfold resultText
  split
  · next heq =>
    rw [heq] at hhead
    simp at hhead
  · exact h.type.squashed?

end Members

section Methods

variable {w : Walk} {owner : Owner} {p : Prefix} {start : Cursor} {n : NamedText}
  {params : List ParamText} {body : Option String}

/-- What ends the heading of a method: a semicolon, or the brace of its body. -/
theorem seekTop_bodyText (body : Option String) (front rest : List Char) :
    seekTop (fun a => a == '\x7b' || a == ';') (between front (bodyText body ++ rest)) =
      body.elim (between front (';' :: rest)) fun b =>
        between (front ++ [' ']) ('\x7b' :: (b.toList ++ '\x7d' :: rest)) := by
  cases body with
  | none =>
    have hseek := @seekTop_between [] (fun a => a == '\x7b' || a == ';') ';'
      (List.forall_mem_nil _) (List.forall_mem_nil _) rfl front rest
    rwa [List.append_nil] at hseek
  | some b =>
    have hseek := @seekTop_between [' '] (fun a => a == '\x7b' || a == ';') '\x7b'
      (by decide) (by decide) rfl front (b.toList ++ '\x7d' :: rest)
    have hsplit : bodyText (some b) ++ rest =
        [' '] ++ '\x7b' :: (b.toList ++ '\x7d' :: rest) := by simp [bodyText]
    rw [hsplit, hseek, Option.elim_some]

theorem readMethod_between (h : n.IsPlain) (hparams : ∀ q ∈ params, q.named.IsPlain)
    (hbody : ∀ b ∈ body, IsBody b.toList) (start : Cursor) (front rest : List Char) :
    let behind := front ++ n.text ++ '(' :: (paramsText params ++ ')' :: bodyText body)
    readMethod w owner p start
        (between front (n.text ++ '(' :: (paramsText params ++ ')' :: (bodyText body ++ rest))))
        (between (front ++ n.text) ('(' :: (paramsText params ++ ')' :: (bodyText body ++ rest)))) =
      .members
        { methods := [
            ⟨{ name := n.name
               owner := some owner.name
               kind := .method
               params := params.map ParamText.param
               returnType := if n.type.label = "void" then none else some n.type.label
               visibility := some (p.visibility owner.kind.defaultVisibility)
               complexity := body.elim 1 fun b => complexity b.toList
               callHints := body.elim [] fun b => callHints b.toList
               isClassLevel := p.has "static"
               hasBody := body.isSome
               directives := p.directives
               annotations := p.labels
               line := w.source.lineAt (width (front ++ (n.type.text ++ [' ']))) },
              p.annotations, ⟨start.offset, width behind⟩⟩] }
        (between behind rest) := by
  have hpaired : IsPaired (· == '(') (· == ')') (paramsText params) :=
    .of_not_mem (not_mem_paramsText hparams (by decide)) (not_mem_paramsText hparams (by decide))
  have hdelimited := delimited_between (by decide) hpaired (front ++ n.text) (bodyText body ++ rest)
  have hvoid : (some n.type.label).filter (· != "void") =
      if n.type.label = "void" then none else some n.type.label := by
    by_cases hlabel : n.type.label = "void" <;> simp [Option.filter, hlabel]
  unfold readMethod
  rw [textBetween_between, h.trailingName?, hdelimited]
  simp only [resultText_text h, parseParams_paramsText hparams, after_between, hvoid]
  generalize hlist : front ++ n.text ++ '(' :: (paramsText params ++ [')']) = list
  have hbehind : front ++ n.text ++ '(' :: (paramsText params ++ ')' :: bodyText body) =
      list ++ bodyText body := by simp [← hlist]
  rw [hbehind]
  rw [seekTop_bodyText]
  cases body with
  | none =>
    simp only [Option.elim_none, after_between, next_between, offset_between, String.ofList_toList,
      ← width_append]
    rfl
  | some b =>
    have hblock := delimited_between (by decide) (hbody b rfl).braces (list ++ [' ']) rest
    have hend : list ++ [' '] ++ '\x7b' :: (b.toList ++ ['\x7d']) = list ++ bodyText (some b) := by
      simp [bodyText]
    rw [hend] at hblock
    simp only [Option.elim_some, after_between, block, hblock, offset_between,
      String.ofList_toList, ← width_append]
    rfl

end Methods

/-! ## Members -/

theorem MemberText.count_margin (m : MemberText) : m.margin.count '\n' = 1 := by
  have hgap : "\n    ".toList.count '\n' = 1 := by decide
  have hwords : '\n' ∉ wordsText m.modifiers.words :=
    not_mem_wordsText m.modifiers.mem_modifierWords (by decide)
  rw [margin, List.count_append, hgap, List.count_eq_zero.mpr hwords]

theorem MemberText.lineAt_margin {t front cs : List Char} (m : MemberText)
    (h : front ++ (m.margin ++ cs) <+: t) (hcs : '\n' ∉ cs) :
    (Masked.of .java t).lineAt (width (front ++ (m.margin ++ cs))) = 2 + front.count '\n' := by
  rw [Masked.lineAt_width .java h, List.count_append, List.count_append, m.count_margin,
    List.count_eq_zero.mpr hcs]
  omega

namespace MemberText.IsPlain

variable {m : MemberText} (h : m.IsPlain)

include h

theorem readPrefix_text (front rest : List Char) :
    readPrefix (between front (m.text ++ rest)) =
      (⟨[], m.modifiers.words⟩,
        between (front ++ m.margin) (m.named.text ++ (m.form.text ++ rest))) := by
  have hafter : (between front (m.text ++ rest)).after =
      "\n    ".toList ++
        (wordsText m.modifiers.words ++ (m.named.text ++ (m.form.text ++ rest))) := by
    simp [text, margin]
  rw [readPrefix_wordsText m.modifiers.mem_modifierWords hafter (by decide)
    (h.named.startsDeclaration _), advance_between]
  rfl

theorem nextItem_eq_readMember {w : Walk} {owner : Owner} (front rest : List Char) :
    nextItem w (some owner) (between front (m.text ++ rest)) =
      readMember w owner ⟨[], m.modifiers.words⟩ (between front (m.text ++ rest))
        (between (front ++ m.margin) (m.named.text ++ (m.form.text ++ rest))) := by
  refine Java.nextItem_eq_readMember (h.readPrefix_text front rest) ?_ ?_
  · have hne := h.named.type.name.ne_nil
    rw [after_between, NamedText.text, List.append_assoc, h.named.type.head?_any,
      List.head?_eq_some_head hne]
    exact h.named.type.name.chars _ (List.head_mem hne)
  · rw [after_between, m.named.takeWhile_isIdent]
    exact h.named.type.name.not_mem_reserved

end MemberText.IsPlain

section Scopes

variable {w : Walk} {owner : Owner} {t : List Char} {m : MemberText}

/-- The step: a member that is written out is the next thing in its scope. -/
theorem nextItem_text (hsource : w.source = .of .java t) (hkind : owner.kind = .classType)
    (h : m.IsPlain) {front : List Char} (ht : front ++ m.text <+: t) (rest : List Char) :
    nextItem w (some owner) (between front (m.text ++ rest)) =
      .members (m.scope owner.name front) (between (front ++ m.text) rest) := by
  obtain ⟨hvisibility, hstatic, hdirectives⟩ := m.modifiers.prefix_words
  have hline : ∀ cs, cs <+: m.named.text → '\n' ∉ cs →
      w.source.lineAt (width (front ++ (m.margin ++ cs))) = 2 + front.count '\n' := by
    rintro cs ⟨more, hmore⟩ hcs
    have hbegins : front ++ (m.margin ++ cs) <+: front ++ m.text :=
      ⟨more ++ m.form.text, by simp [MemberText.text, ← hmore]⟩
    rw [hsource, m.lineAt_margin (hbegins.trans ht) hcs]
  have hbehind : front ++ m.text = front ++ (m.margin ++ (m.named.text ++ m.form.text)) := rfl
  rw [h.nextItem_eq_readMember, readMember, MemberText.scope, hbehind]
  cases hform : m.form with
  | field =>
    have hmark := memberMark_between h.named (by decide : ';' ∈ ['(', '=', ';', '\x7b'])
      (front ++ m.margin) rest
    have hplace := hline [] List.nil_prefix List.not_mem_nil
    have hfields := @readFields_between w owner ⟨[], m.modifiers.words⟩ m.named h.named
      (front ++ m.margin) rest
    simp only [List.append_assoc, List.append_nil] at hmark hfields hplace
    simp only [MemberForm.text, List.singleton_append, hmark, after_between, hfields, hplace, hkind,
      TypeKind.defaultVisibility, hvisibility]
    rfl
  | method params body =>
    have hplain : MemberForm.IsPlain (.method params body) := hform ▸ h.form
    have hmark := memberMark_between h.named (by decide : '(' ∈ ['(', '=', ';', '\x7b'])
      (front ++ m.margin) (paramsText params ++ ')' :: (bodyText body ++ rest))
    have hspace : '\n' ∉ [' '] := by decide
    have hplace := hline (m.named.type.text ++ [' ']) ⟨m.named.name.toList, List.append_assoc ..⟩
      (List.not_mem_append (h.named.type.not_mem (by decide)) hspace)
    have hmethod := @readMethod_between w owner ⟨[], m.modifiers.words⟩ m.named params body h.named
      hplain.1 hplain.2 (between front (m.text ++ rest)) (front ++ m.margin) rest
    simp only [List.append_assoc] at hmethod hmark
    simp only [MemberForm.text, List.cons_append, List.append_assoc, hmark, after_between, hmethod,
      hplace, hkind, TypeKind.defaultVisibility, hvisibility, hstatic, hdirectives]
    rfl

theorem readScope_of_nothing {o : Option Owner} {depth : Nat} (h : nextItem w o c = .nothing) :
    readScope w o depth c = {} := by
  rw [readScope]
  split <;> simp_all

theorem readScope_of_members {depth : Nat} {s : Scope}
    (h : nextItem w (some owner) c = .members s d) :
    readScope w (some owner) depth c = s ++ readScope w (some owner) depth d := by
  rw [readScope]
  split <;> simp_all

theorem nextItem_blank {o : Option Owner} {gap : List Char} (hgap : ∀ a ∈ gap, isBlank a = true)
    (front : List Char) : nextItem w o (between front gap) = .nothing := by
  have hafter : (between front gap).after = gap ++ (wordsText [] ++ []) := by simp [wordsText]
  have hread := readPrefix_wordsText (List.forall_mem_nil _) hafter hgap ⟨rfl, by simp, by decide⟩
  rw [nextItem, hread]
  rfl

/-- The run: the members of a class are read one by one, up to its end. -/
theorem readScope_text (hsource : w.source = .of .java t) (hkind : owner.kind = .classType)
    {ms : List MemberText} (h : ∀ m ∈ ms, m.IsPlain) {front : List Char}
    (ht : front ++ ms.flatMap MemberText.text <+: t) (depth : Nat) :
    readScope w (some owner) depth (between front (ms.flatMap MemberText.text ++ ['\n'])) =
      membersScope owner.name front ms := by
  induction ms generalizing front with
  | nil => exact readScope_of_nothing (nextItem_blank (by decide) front)
  | cons m ms ih =>
    obtain ⟨hm, hms⟩ := List.forall_mem_cons.mp h
    rw [List.flatMap_cons, ← List.append_assoc] at ht
    have hfirst := (List.prefix_append _ _).trans ht
    rw [List.flatMap_cons, List.append_assoc,
      readScope_of_members (nextItem_text hsource hkind hm hfirst _), ih hms ht]
    rfl

end Scopes

end Java

end MigrationAudit
