import MigrationAudit.Proofs.Source.Segments
import MigrationAudit.Proofs.Text.LowerCase
import MigrationAudit.Source.Masked

/-!
# Sources in lower case

No comment and no literal of Pascal starts or ends with a letter, so a source in lower case is cut
where the source itself is cut. Two sources that differ in the case of letters, but not in their
comments and literals, have one masked source in lower case.
-/

namespace MigrationAudit.Source

open Text

/-! ## Segments -/

theorem prefix_lowerLatin_iff {o cs : List Char} (ho : o.all (!·.isAlpha) = true) :
    o <+: lowerLatin cs ↔ o <+: cs := by
  induction o generalizing cs with
  | nil => simp
  | cons p o ih =>
    obtain ⟨hp, ho⟩ : p.isAlpha = false ∧ o.all (!·.isAlpha) = true := by simpa using ho
    cases cs with
    | nil => simp
    | cons a cs =>
      rw [lowerLatin_cons, List.cons_prefix_cons, List.cons_prefix_cons, ih ho, eq_comm,
        toLower_eq_iff hp, eq_comm]

theorem throughClose_lowerLatin {close : List Char} (hclose : close.all (!·.isAlpha) = true)
    (cs : List Char) :
    throughClose close (lowerLatin cs) =
      (lowerLatin (throughClose close cs).1, lowerLatin (throughClose close cs).2) := by
  induction cs with
  | nil => rfl
  | cons a cs ih =>
    have hbegins : close.isPrefixOf (lowerLatin (a :: cs)) = close.isPrefixOf (a :: cs) := by
      rw [Bool.eq_iff_iff, List.isPrefixOf_iff_prefix, List.isPrefixOf_iff_prefix,
        prefix_lowerLatin_iff hclose]
    rw [lowerLatin_cons] at hbegins
    simp only [lowerLatin_cons, throughClose, hbegins, ih]
    split
    · rw [← lowerLatin_cons, take_lowerLatin, drop_lowerLatin]
    · rfl

def Piece.lowerCase (p : Piece) : Piece := ⟨lowerLatin p.source, lowerLatin p.value⟩

def Body.lowerCase (b : Body) : Body := ⟨b.pieces.map Piece.lowerCase, b.closed, lowerLatin b.rest⟩

theorem Body.doubled_lowerLatin (cs : List Char) :
    doubled (lowerLatin cs) = (doubled cs).lowerCase := by
  fun_induction doubled cs with
  | case1 => rfl
  | case2 rest => rfl
  | case3 rest ih =>
    change doubled ('\'' :: '\'' :: lowerLatin rest) = _
    rw [doubled, ih]
    rfl
  | case4 rest hrest =>
    change doubled ('\'' :: lowerLatin rest) = _
    rw [doubled]
    · rfl
    · exact lowerLatin_ne_cons rfl hrest
  | case5 c rest hnewline hpair hquote ih =>
    have hlineEnd : c.toLower ≠ '\n' := (toLower_eq_iff rfl).not.mpr hnewline
    have hclose : c.toLower ≠ '\'' := (toLower_eq_iff rfl).not.mpr hquote
    rw [lowerLatin_cons, doubled, ih]
    · rfl
    all_goals simp_all

namespace Segment

def lowerCase : Segment → Segment
  | .code c => .code c.toLower
  | .comment text => .comment (lowerLatin text)
  | .literal quote pieces closed => .literal (lowerLatin quote) (pieces.map Piece.lowerCase) closed

def isCode : Segment → Bool
  | .code _ => true
  | _ => false

end Segment

theorem firstSegment_lowerLatin (c : Char) (cs : List Char) :
    firstSegment .pascal c.toLower (lowerLatin cs) =
      ((firstSegment .pascal c cs).1.lowerCase, lowerLatin (firstSegment .pascal c cs).2) := by
  have hletters : ∀ o ∈ Syntax.pascal.openers, o.all (!·.isAlpha) = true := by decide
  by_cases hcode : ∀ o ∈ Syntax.pascal.openers, ¬ o <+: c :: cs
  · have hlower : ∀ o ∈ Syntax.pascal.openers, ¬ o <+: c.toLower :: lowerLatin cs := fun o ho => by
      rw [← lowerLatin_cons, prefix_lowerLatin_iff (hletters o ho)]
      exact hcode o ho
    rw [firstSegment_eq_code_iff.mpr hcode, firstSegment_eq_code_iff.mpr hlower]
    rfl
  · simp only [not_forall, not_not] at hcode
    obtain ⟨o, ho, tail, hcs⟩ := hcode
    simp only [Syntax.openers, List.mem_cons, List.not_mem_nil, or_false] at ho
    rcases ho with rfl | rfl | rfl | rfl
    · obtain ⟨rfl, rfl⟩ : '/' = c ∧ '/' :: tail = cs := List.cons.inj hcs
      change lineComment '/' (lowerLatin ('/' :: tail)) = _
      rw [lineComment, takeWhile_lowerLatin (ignoresCase_bne rfl),
        dropWhile_lowerLatin (ignoresCase_bne rfl)]
      rfl
    · obtain ⟨rfl, rfl⟩ : '\x7b' = c ∧ tail = cs := List.cons.inj hcs
      change blockComment ['\x7d'] '\x7b' (lowerLatin tail) = _
      rw [blockComment, throughClose_lowerLatin rfl]
      rfl
    · obtain ⟨rfl, rfl⟩ : '(' = c ∧ '*' :: tail = cs := List.cons.inj hcs
      change blockComment ['*', ')'] '(' (lowerLatin ('*' :: tail)) = _
      rw [blockComment, throughClose_lowerLatin rfl]
      rfl
    · obtain ⟨rfl, rfl⟩ : '\'' = c ∧ tail = cs := List.cons.inj hcs
      change ((Body.doubled (lowerLatin tail)).segment ['\''],
        (Body.doubled (lowerLatin tail)).rest) = _
      rw [Body.doubled_lowerLatin]
      rfl

theorem segments_lowerLatin (cs : List Char) :
    segments .pascal (lowerLatin cs) = (segments .pascal cs).map Segment.lowerCase := by
  fun_induction segments .pascal cs with
  | case1 => rw [lowerLatin_nil, segments, List.map_nil]
  | case2 c cs ih =>
    rw [lowerLatin_cons, segments, firstSegment_lowerLatin, ih, List.map_cons]

/-! ## Sources that differ in case -/

/-- Two segments that are the same, but for the case of a letter of code. -/
inductive SameLetters : Segment → Segment → Prop
  | code {a b : Char} (h : a.toLower = b.toLower) : SameLetters (.code a) (.code b)
  | same (seg : Segment) : SameLetters seg seg

/-- Two sources that differ only in the case of letters outside comments and literals: in lower case
they are one text, and they have the same comments and literals. -/
structure SameButForCase (t t' : List Char) : Prop where
  letters : lowerLatin t = lowerLatin t'
  fixed : (segments .pascal t).filter (!·.isCode) = (segments .pascal t').filter (!·.isCode)

namespace SameLetters

variable {x y : Segment} {parts parts' : List Segment}

theorem of_lowerCase_eq (h : parts.map Segment.lowerCase = parts'.map Segment.lowerCase)
    (hfixed : parts.filter (!·.isCode) = parts'.filter (!·.isCode)) :
    List.Forall₂ SameLetters parts parts' := by
  induction parts generalizing parts' with
  | nil =>
    obtain rfl : parts' = [] := List.map_eq_nil_iff.mp h.symm
    exact .nil
  | cons x parts ih =>
    cases parts' with
    | nil => exact absurd h (List.cons_ne_nil _ _)
    | cons y parts' =>
      obtain ⟨hhead, htail⟩ := List.cons.inj h
      cases x <;> cases y <;> simp only [Segment.lowerCase, reduceCtorEq] at hhead
      case code.code a b =>
        exact .cons (.code (Segment.code.inj hhead)) (ih htail hfixed)
      all_goals
        obtain ⟨hsame, hfixed⟩ := List.cons.inj hfixed
        exact .cons (hsame ▸ .same _) (ih htail hfixed)

theorem source_eq (h : SameLetters x y) : lowerLatin x.source = lowerLatin y.source := by
  cases h with
  | code h => exact congrArg (fun a => [a]) h
  | same => rfl

theorem masked_eq (h : SameLetters x y) : lowerLatin x.masked = lowerLatin y.masked := by
  cases h with
  | code h => exact congrArg (fun a => [a]) h
  | same => rfl

theorem literalsFrom_eq (h : List.Forall₂ SameLetters parts parts') (n : Nat) :
    literalsFrom n parts = literalsFrom n parts' := by
  induction h generalizing n with
  | nil => rfl
  | @cons x y parts parts' hxy _ ih =>
    have hwidth : width x.source = width y.source := by
      rw [← width_lowerLatin, hxy.source_eq, width_lowerLatin]
    cases hxy with
    | code h => simp only [literalsFrom, hwidth, ih]
    | same => simp only [literalsFrom, ih]

theorem flatMap_eq {β : Type} {f : Segment → List β} {g : β → β}
    (hf : ∀ x y, SameLetters x y → (f x).map g = (f y).map g)
    (h : List.Forall₂ SameLetters parts parts') :
    (parts.flatMap f).map g = (parts'.flatMap f).map g := by
  induction h with
  | nil => rfl
  | cons hxy _ ih =>
    rw [List.flatMap_cons, List.flatMap_cons, List.map_append, List.map_append, hf _ _ hxy, ih]

theorem marks_eq (h : SameLetters x y) :
    x.marks.map (Prod.map Char.toLower id) = y.marks.map (Prod.map Char.toLower id) := by
  cases h with
  | @code a b h =>
    have hblank : isBlank a = isBlank b := by
      rw [← ignoresCase_isBlank a, h, ignoresCase_isBlank b]
    simp [Segment.marks, h, hblank]
  | same => rfl

end SameLetters

theorem linesFrom_lowerCase (n : Nat) (current : Line) (marks : List (Char × Mark)) :
    linesFrom n current (marks.map (Prod.map Char.toLower id)) = linesFrom n current marks := by
  induction marks generalizing n current with
  | nil => rfl
  | cons x marks ih =>
    obtain ⟨a, m⟩ := x
    simp only [List.map_cons, Prod.map_apply, id_eq, linesFrom, beq_toLower (p := '\n') rfl,
      utf8Size_toLower, ih]

theorem SameButForCase.sameLetters {t t' : List Char} (h : SameButForCase t t') :
    List.Forall₂ SameLetters (segments .pascal t) (segments .pascal t') := by
  refine SameLetters.of_lowerCase_eq ?_ h.fixed
  rw [← segments_lowerLatin, h.letters, segments_lowerLatin]

/-! ## Masked sources -/

namespace Masked

def lowerCase (m : Masked) : Masked := { m with code := lowerLatin m.code }

variable (m : Masked)

@[simp] theorem code_lowerCase : m.lowerCase.code = lowerLatin m.code := rfl

@[simp] theorem literals_lowerCase : m.lowerCase.literals = m.literals := rfl

@[simp] theorem lineAt_lowerCase (n : Nat) : m.lowerCase.lineAt n = m.lineAt n := rfl

@[simp] theorem metrics_lowerCase (depth : Nat) : m.lowerCase.metrics depth = m.metrics depth := by
  have hlast : (lowerLatin m.code).getLast?.all (· == '\n') = m.code.getLast?.all (· == '\n') := by
    rw [lowerLatin, List.getLast?_map]
    cases m.code.getLast? with
    | none => rfl
    | some a => exact beq_toLower (p := '\n') rfl
  simp only [metrics, lineCounts, countedLines, code_lowerCase, hlast]
  rfl

theorem lowerCase_of {t t' : List Char} (h : SameButForCase t t') :
    (of .pascal t).lowerCase = (of .pascal t').lowerCase := by
  have hparts := h.sameLetters
  have hcode : lowerLatin ((segments .pascal t).flatMap Segment.masked) =
      lowerLatin ((segments .pascal t').flatMap Segment.masked) :=
    SameLetters.flatMap_eq (fun _ _ => SameLetters.masked_eq) hparts
  have hmarks : ((segments .pascal t).flatMap Segment.marks).map (Prod.map Char.toLower id) =
      ((segments .pascal t').flatMap Segment.marks).map (Prod.map Char.toLower id) :=
    SameLetters.flatMap_eq (fun _ _ => SameLetters.marks_eq) hparts
  simp only [of, lowerCase, hcode, SameLetters.literalsFrom_eq hparts, mk.injEq, true_and]
  rw [← linesFrom_lowerCase, hmarks, linesFrom_lowerCase]

end Masked

/-! ## Owners -/

def OwnerSpan.lowerCase (o : OwnerSpan) : OwnerSpan := { o with name := o.name.toLower }

theorem shortest?_lowerCase (owners : List OwnerSpan) :
    shortest? (owners.map OwnerSpan.lowerCase) = (shortest? owners).map OwnerSpan.lowerCase := by
  cases owners with
  | nil => rfl
  | cons o rest =>
    simp only [List.map_cons, shortest?, Option.map_some, List.foldl_map]
    congr 1
    refine List.foldl_hom OwnerSpan.lowerCase fun a b => ?_
    rw [OwnerSpan.shorter, OwnerSpan.shorter, apply_ite OwnerSpan.lowerCase]
    rfl

theorem ownerAt?_lowerCase (owners : List OwnerSpan) (n : Nat) :
    ownerAt? (owners.map OwnerSpan.lowerCase) n = (ownerAt? owners n).map String.toLower := by
  have hspan : (fun o : OwnerSpan => o.span.contains n) ∘ OwnerSpan.lowerCase =
      fun o => o.span.contains n := rfl
  rw [ownerAt?, List.filter_map, hspan, shortest?_lowerCase, ownerAt?, Option.map_map,
    Option.map_map]
  rfl

end MigrationAudit.Source
