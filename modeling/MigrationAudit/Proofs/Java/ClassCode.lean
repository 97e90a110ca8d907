import Mathlib.Data.List.Chain
import MigrationAudit.Proofs.Java.ParamText
import MigrationAudit.Proofs.Source.Continuation

/-!
# Code and braces of classes

Only bodies have slashes, and only in them braces stand that are not those of a body or of the
class. So nothing in a class that is written out is taken for a comment or a literal, and the braces
of its members are paired.
-/

namespace MigrationAudit.Java

open Text Source
open scoped Listed

variable {a b cs rest : List Char} {c : Char}

/-! ## Nothing but code -/

/-- No comment starts with the characters. -/
def NoComment (c d : Char) : Prop := ¬(c = '/' ∧ (d = '/' ∨ d = '*'))

theorem isCode_iff : IsCode cs ↔ '"' ∉ cs ∧ '\'' ∉ cs ∧ cs.IsChain NoComment := by
  have hquote : ∀ q : Char, [q] <:+: cs ↔ q ∈ cs := fun q => List.singleton_infix_iff q cs
  constructor
  · intro h
    refine ⟨fun hmem => ?_, fun hmem => ?_, ?_⟩
    · exact h ['"'] (by decide) ((hquote '"').mpr hmem)
    · exact h ['\''] (by decide) ((hquote '\'').mpr hmem)
    · rw [List.isChain_iff_forall_rel_of_append_cons_cons]
      rintro x y front back rfl ⟨rfl, rfl | rfl⟩
      · exact h ['/', '/'] (by decide) ⟨front, back, by simp⟩
      · exact h ['/', '*'] (by decide) ⟨front, back, by simp⟩
  · rintro ⟨hdouble, hsingle, hchain⟩ o ho hpart
    have hstep := hchain.infix hpart
    simp only [Syntax.openers, List.mem_cons, List.not_mem_nil, or_false] at ho
    rcases ho with rfl | rfl | rfl | rfl
    · exact (List.isChain_cons_cons.mp hstep).1 ⟨rfl, .inl rfl⟩
    · exact (List.isChain_cons_cons.mp hstep).1 ⟨rfl, .inr rfl⟩
    · exact hdouble ((hquote '"').mp hpart)
    · exact hsingle ((hquote '\'').mp hpart)

namespace IsCode

theorem of_not_mem (h : ∀ c ∈ ['"', '\'', '/'], c ∉ cs) : IsCode cs := by
  refine isCode_iff.mpr ⟨h _ (by decide), h _ (by decide), ?_⟩
  rw [List.isChain_iff_forall_rel_of_append_cons_cons]
  rintro x y front back rfl ⟨rfl, -⟩
  exact h '/' (by decide) (by simp)

theorem append (ha : IsCode a) (hb : IsCode b)
    (hedge : ∀ x ∈ a.getLast?, ∀ y ∈ b.head?, NoComment x y) : IsCode (a ++ b) := by
  obtain ⟨hdouble, hsingle, hchain⟩ := isCode_iff.mp ha
  obtain ⟨hdouble', hsingle', hchain'⟩ := isCode_iff.mp hb
  exact isCode_iff.mpr ⟨List.not_mem_append hdouble hdouble', List.not_mem_append hsingle hsingle',
    hchain.append hchain' hedge⟩

/-- Behind a text without slashes nothing becomes a comment. -/
theorem append_left (ha : ∀ c ∈ ['"', '\'', '/'], c ∉ a) (hb : IsCode b) : IsCode (a ++ b) := by
  refine (of_not_mem ha).append hb fun x hx y _ => ?_
  rintro ⟨rfl, -⟩
  exact ha '/' (by decide) (List.mem_of_getLast? hx)

/-- In front of what is neither a slash nor a star nothing becomes a comment. -/
theorem append_right (ha : IsCode a) (hb : IsCode b)
    (hhead : ∀ y ∈ b.head?, y ≠ '/' ∧ y ≠ '*') : IsCode (a ++ b) := by
  refine ha.append hb fun x _ y hy => ?_
  rintro ⟨-, hy'⟩
  exact hy'.elim (hhead y hy).1 (hhead y hy).2

end IsCode

/-! ## Members -/

/-- What stands in a member in front of its body. -/
def MemberText.lead (m : MemberText) : List Char := m.margin ++ m.named.text

theorem MemberText.text_eq (m : MemberText) : m.text = m.lead ++ m.form.text := by
  simp [text, lead]

namespace MemberText

variable {m : MemberText} (h : m.IsPlain)

include h

theorem not_mem_lead (hc : c ∈ typeStops) (hend : c ≠ '\n') : c ∉ m.lead := by
  have hgap : ∀ c ∈ typeStops, c ≠ '\n' → c ∉ "\n    ".toList := by decide
  rw [lead, margin, List.mem_append, List.mem_append, not_or, not_or]
  exact ⟨⟨hgap c hc hend, not_mem_wordsText m.modifiers.mem_modifierWords hc⟩, h.named.not_mem hc⟩

theorem isCode_lead_append {cs : List Char} (hcs : IsCode cs) : IsCode (m.lead ++ cs) := by
  have hstops : ∀ c ∈ ['"', '\'', '/'], c ∈ typeStops ∧ c ≠ '\n' := by decide
  exact .append_left (fun c hc => not_mem_lead h (hstops c hc).1 (hstops c hc).2) hcs

theorem isPaired_lead : IsPaired (· == '\x7b') (· == '\x7d') m.lead :=
  .of_not_mem (not_mem_lead h (by decide) (by decide)) (not_mem_lead h (by decide) (by decide))

end MemberText

theorem isCode_bodyText {body : Option String} (h : ∀ b ∈ body, IsBody b.toList) :
    IsCode (bodyText body) := by
  cases body with
  | none => decide
  | some b =>
    have hend : IsCode ['\x7d'] := by decide
    have hbrace : ∀ y ∈ ['\x7d'].head?, y ≠ '/' ∧ y ≠ '*' := by
      rintro y ⟨⟩
      decide
    exact ((h b rfl).code.append_right hend hbrace).append_left (by decide)

theorem isPaired_bodyText {body : Option String} (h : ∀ b ∈ body, IsBody b.toList) :
    IsPaired (· == '\x7b') (· == '\x7d') (bodyText body) := by
  cases body with
  | none => decide
  | some b =>
    have hspace : IsPaired (· == '\x7b') (· == '\x7d') [' '] := by decide
    exact hspace.append (IsPaired.enclose rfl rfl rfl (h b rfl).braces)

theorem not_mem_parenthesized {params : List ParamText} (h : ∀ p ∈ params, p.named.IsPlain)
    (hc : c ∈ typeStops ∧ c ≠ '(' ∧ c ≠ ')') : c ∉ '(' :: (paramsText params ++ [')']) := by
  obtain ⟨hstop, hopen, hclose⟩ := hc
  rw [List.mem_cons, List.mem_append, List.mem_singleton, not_or, not_or]
  exact ⟨hopen, not_mem_paramsText h hstop, hclose⟩

theorem MemberForm.isCode_text {f : MemberForm} (h : f.IsPlain) : IsCode f.text := by
  cases f with
  | field => decide
  | method params body =>
    have hstops : ∀ c ∈ ['"', '\'', '/'], c ∈ typeStops ∧ c ≠ '(' ∧ c ≠ ')' := by decide
    have hcode := (isCode_bodyText h.2).append_left fun c hc =>
      not_mem_parenthesized h.1 (hstops c hc)
    simpa [text] using hcode

theorem MemberForm.isPaired_text {f : MemberForm} (h : f.IsPlain) :
    IsPaired (· == '\x7b') (· == '\x7d') f.text := by
  cases f with
  | field => decide
  | method params body =>
    have hlist : IsPaired (· == '\x7b') (· == '\x7d') ('(' :: (paramsText params ++ [')'])) :=
      .of_not_mem (not_mem_parenthesized h.1 (by decide)) (not_mem_parenthesized h.1 (by decide))
    have hpaired := hlist.append (isPaired_bodyText h.2)
    simpa [text] using hpaired

theorem MemberForm.getLast?_text (f : MemberForm) :
    f.text.getLast? = some ';' ∨ f.text.getLast? = some '\x7d' := by
  have hsplit : ∀ (ps : List ParamText) (cs : List Char) (a : Char),
      '(' :: (paramsText ps ++ ')' :: (cs ++ [a])) = ('(' :: (paramsText ps ++ ')' :: cs)) ++ [a] :=
    fun ps cs a => by simp
  rcases f with _ | ⟨params, _ | body⟩
  · exact .inl rfl
  · left
    exact (congrArg List.getLast? (hsplit params [] ';')).trans (List.getLast?_concat ..)
  · right
    exact (congrArg List.getLast? (hsplit params (' ' :: '\x7b' :: body.toList) '\x7d')).trans
      (List.getLast?_concat ..)

namespace MemberText

variable {ms : List MemberText} (h : ∀ m ∈ ms, m.IsPlain)

include h

theorem isCode_flatMap (hcs : IsCode cs) : IsCode (ms.flatMap text ++ cs) := by
  induction ms with
  | nil => exact hcs
  | cons m ms ih =>
    obtain ⟨hm, hms⟩ := List.forall_mem_cons.mp h
    rw [List.flatMap_cons, List.append_assoc, text_eq, List.append_assoc]
    refine isCode_lead_append hm ((m.form.isCode_text hm.form).append (ih hms) ?_)
    intro x hx y _
    rintro ⟨rfl, -⟩
    rcases m.form.getLast?_text with hlast | hlast
    all_goals
      rw [hlast] at hx
      exact absurd (Option.some.inj hx) (by decide)

theorem isPaired_flatMap : IsPaired (· == '\x7b') (· == '\x7d') (ms.flatMap text) := by
  refine .flatMap fun m hm => ?_
  rw [text_eq]
  exact (isPaired_lead (h m hm)).append (m.form.isPaired_text (h m hm).form)

end MemberText

/-! ## Classes -/

namespace ClassText

variable {t : ClassText} (h : t.IsPlain)

include h

theorem isPaired_body : IsPaired (· == '\x7b') (· == '\x7d') t.body := by
  have hend : IsPaired (· == '\x7b') (· == '\x7d') ['\n'] := by decide
  exact (MemberText.isPaired_flatMap h.members).append hend

theorem mem_front (hc : c ∈ t.front) : isNamePart c = true ∨ c = ' ' ∨ c = ',' := by
  have hwords : ∀ w ∈ ["class ", "extends", "implements"], ∀ c ∈ w.toList,
      isNamePart c = true ∨ c = ' ' ∨ c = ',' := by decide
  have hname : ∀ n : String, IsName n → ∀ c ∈ n.toList, isNamePart c = true ∨ c = ' ' ∨ c = ',' :=
    fun n hn c hc => .inl (hn.chars c hc)
  have hlist : ∀ ns : List String, (∀ n ∈ ns, IsName n) → ∀ c ∈ listText ns,
      isNamePart c = true ∨ c = ' ' ∨ c = ',' := by
    intro ns hns c hc
    cases ns with
    | nil => exact absurd hc List.not_mem_nil
    | cons n ns =>
      obtain ⟨hn, hns⟩ := List.forall_mem_cons.mp hns
      rcases List.mem_append.mp hc with hc | hc
      · exact hname n hn c hc
      · simp only [separated, List.mem_flatMap, List.mem_map, List.mem_cons] at hc
        obtain ⟨_, ⟨m, hm, rfl⟩, rfl | rfl | hc⟩ := hc
        · exact .inr (.inr rfl)
        · exact .inr (.inl rfl)
        · exact hname m (hns m hm) c hc
  have hclause : ∀ clause ∈ [("extends", t.parent.toList), ("implements", t.interfaces)],
      clause.1 ∈ ["class ", "extends", "implements"] ∧ ∀ n ∈ clause.2, IsName n := by
    simp only [List.mem_cons, List.not_mem_nil, or_false]
    rintro clause (rfl | rfl)
    · exact ⟨.inr (.inl rfl), fun n hn => h.parent n (by simpa using hn)⟩
    · exact ⟨.inr (.inr rfl), h.interfaces⟩
  simp only [front, head, List.mem_append, List.mem_cons, List.mem_flatMap] at hc
  rcases hc with hc | hc | rfl | ⟨clause, hmem, hc⟩
  · exact hwords _ (by decide) c hc
  · exact hname _ h.name c hc
  · exact .inr (.inl rfl)
  · obtain ⟨hword, hnames⟩ := hclause clause (List.mem_filter.mp hmem).1
    simp only [clauseText, List.mem_append, List.mem_cons, List.not_mem_nil, or_false] at hc
    rcases hc with hc | rfl | hc | rfl
    · exact hwords _ hword c hc
    · exact .inr (.inl rfl)
    · exact hlist _ hnames c hc
    · exact .inr (.inl rfl)

theorem not_mem_front (hc : c ∈ nameStops) (hspace : c ≠ ' ') (hcomma : c ≠ ',') : c ∉ t.front := by
  intro hmem
  rcases mem_front h hmem with hpart | rfl | rfl
  · rw [isNamePart_of_mem_nameStops c hc] at hpart
    exact Bool.false_ne_true hpart
  · exact hspace rfl
  · exact hcomma rfl

/-- Nothing in the text of a class is taken for a comment or a literal. -/
theorem code_text : (Masked.of .java t.text).code = t.text := by
  have hstops : ∀ c ∈ ['"', '\'', '/'], c ∈ nameStops ∧ c ≠ ' ' ∧ c ≠ ',' ∧ c ≠ '\x7b' := by decide
  have hend : IsCode ['\n', '\x7d'] := by decide
  have hbody : IsCode (t.body ++ ['\x7d']) := by
    rw [body, List.append_assoc]
    exact MemberText.isCode_flatMap h.members hend
  have hfront : ∀ c ∈ ['"', '\'', '/'], c ∉ t.front ++ ['\x7b'] := by
    intro c hc
    obtain ⟨hstop, hspace, hcomma, hbrace⟩ := hstops c hc
    rw [List.mem_append, List.mem_singleton, not_or]
    exact ⟨not_mem_front h hstop hspace hcomma, hbrace⟩
  have htext : IsCode t.text := by
    rw [text, List.append_cons]
    exact hbody.append_left hfront
  exact Masked.code_of_segments (segments_of_unopened htext)

end ClassText

end MigrationAudit.Java
