import MigrationAudit.Proofs.Source.Segments
import MigrationAudit.Proofs.Text.Slices
import MigrationAudit.Source.Masked
import Mathlib.Data.List.Forall2

/-!
# A mask keeps positions

Masking writes spaces over characters and leaves line ends alone. A character is hidden by as many
spaces as its UTF-8 form has bytes, so every byte of the text keeps its position. Literals are found
one behind the other, each from a quote that stays visible.
-/

namespace MigrationAudit.Text

def bytes (t : List Char) : List UInt8 := t.flatMap String.utf8EncodeChar

@[simp] theorem bytes_append (a b : List Char) : bytes (a ++ b) = bytes a ++ bytes b :=
  List.flatMap_append

theorem length_bytes (t : List Char) : (bytes t).length = width t := by
  induction t with
  | nil => rfl
  | cons c t ih =>
    rw [bytes, List.flatMap_cons, List.length_append, String.length_utf8EncodeChar, ← bytes, ih,
      width]

theorem getElem?_bytes_width (a b : List Char) :
    (bytes (a ++ b))[width a]? = (bytes b)[0]? := by
  rw [bytes_append, List.getElem?_append_right (length_bytes a ▸ Nat.le_refl _), length_bytes,
    Nat.sub_self]

theorem bytes_replicate_space (n : Nat) :
    bytes (List.replicate n ' ') = List.replicate n 32 := by
  induction n with
  | zero => rfl
  | succ n ih =>
    rw [List.replicate_succ, List.replicate_succ, ← ih]
    rfl

theorem ne_of_mem_utf8EncodeChar {c : Char} (hc : c ≠ '\n') {b : UInt8}
    (hb : b ∈ String.utf8EncodeChar c) : b ≠ 10 := by
  have hval : c.val.toNat ≠ 10 := by
    intro h
    apply hc
    exact Char.ext (UInt32.toNat_inj.mp h)
  intro h
  have h := congrArg UInt8.toNat h
  -- a single byte is the character itself, all other bytes have the highest bit
  simp only [String.utf8EncodeChar] at hb
  generalize c.val.toNat = v at hb hval
  split_ifs at hb <;> simp only [List.mem_cons, List.not_mem_nil, or_false] at hb
  · rw [hb, UInt8.toNat_ofNat'] at h
    simp at h
    omega
  all_goals
    rcases hb with rfl | rfl | rfl | rfl <;> simp at h <;> omega

end MigrationAudit.Text

namespace MigrationAudit.Source

open Text

/-- A text some of whose characters, but no line ends, are hidden behind spaces. -/
inductive Masks : List Char → List Char → Prop
  | nil : Masks [] []
  | keep (c : Char) {m t : List Char} : Masks m t → Masks (c :: m) (c :: t)
  | hide {c : Char} (hc : c ≠ '\n') {m t : List Char} :
    Masks m t → Masks (List.replicate c.utf8Size ' ' ++ m) (c :: t)

namespace Masks

variable {m m' t t' : List Char}

theorem refl (t : List Char) : Masks t t := by
  induction t with
  | nil => exact .nil
  | cons c t ih => exact .keep c ih

theorem append (h : Masks m t) (h' : Masks m' t') : Masks (m ++ m') (t ++ t') := by
  induction h with
  | nil => exact h'
  | keep c _ ih => exact .keep c ih
  | hide hc _ ih =>
    rw [List.append_assoc]
    exact .hide hc ih

theorem flatMap_blank (t : List Char) : Masks (t.flatMap blank) t := by
  induction t with
  | nil => exact .nil
  | cons c t ih =>
    rw [List.flatMap_cons, blank]
    split
    · rename_i hc
      rw [beq_iff_eq.mp hc]
      exact .keep '\n' ih
    · rename_i hc
      exact .hide (fun h => hc (beq_iff_eq.mpr h)) ih

/-- What can be read in the masked text without spaces stands in the text itself. -/
theorem prefix_of_visible (h : Masks m t) {p : List Char} (hp : p <+: m) (hvisible : ' ' ∉ p) :
    p <+: t := by
  induction h generalizing p with
  | nil => exact hp
  | keep c _ ih =>
    cases p with
    | nil => exact List.nil_prefix
    | cons d p =>
      obtain ⟨rfl, hp'⟩ := List.cons_prefix_cons.mp hp
      exact List.cons_prefix_cons.mpr ⟨rfl, ih hp' (List.not_mem_of_not_mem_cons hvisible)⟩
  | @hide c hc m t _ ih =>
    cases p with
    | nil => exact List.nil_prefix
    | cons d p =>
      -- the first character of the masked text is a space here
      obtain ⟨n, hn⟩ := Nat.exists_eq_succ_of_ne_zero (Nat.pos_iff_ne_zero.mp c.utf8Size_pos)
      rw [hn, List.replicate_succ, List.cons_append] at hp
      exact absurd (List.cons_prefix_cons.mp hp).1 (List.ne_of_not_mem_cons hvisible).symm

/-! ## Bytes -/

/-- A byte of the masked text is that of the text, or a space that does not stand for a line end. -/
def ByteMasks (b b' : UInt8) : Prop := b = b' ∨ b = 32 ∧ b' ≠ 10

theorem forall₂_replicate {bs : List UInt8} (h : ∀ b ∈ bs, b ≠ 10) :
    List.Forall₂ ByteMasks (List.replicate bs.length 32) bs := by
  induction bs with
  | nil => exact .nil
  | cons b bs ih =>
    rw [List.forall_mem_cons] at h
    exact .cons (.inr ⟨rfl, h.1⟩) (ih h.2)

theorem forall₂_bytes (h : Masks m t) : List.Forall₂ ByteMasks (bytes m) (bytes t) := by
  induction h with
  | nil => exact .nil
  | keep c _ ih => exact List.rel_append (List.forall₂_same.mpr fun b _ => .inl rfl) ih
  | @hide c hc m t _ ih =>
    rw [bytes_append, bytes_replicate_space, ← String.length_utf8EncodeChar]
    exact List.rel_append (forall₂_replicate fun b hb => ne_of_mem_utf8EncodeChar hc hb) ih

theorem length_bytes_eq (h : Masks m t) : (bytes m).length = (bytes t).length :=
  h.forall₂_bytes.length_eq

theorem width_eq (h : Masks m t) : width m = width t := by
  rw [← length_bytes, ← length_bytes, h.length_bytes_eq]

theorem getElem?_bytes (h : Masks m t) (n : Nat) :
    (bytes m)[n]? = (bytes t)[n]? ∨ (bytes m)[n]? = some 32 ∧ (bytes t)[n]? ≠ some 10 := by
  obtain ⟨hlength, hbytes⟩ := List.forall₂_iff_get.mp h.forall₂_bytes
  by_cases hn : n < (bytes m).length
  · rw [List.getElem?_eq_getElem hn, List.getElem?_eq_getElem (hlength ▸ hn)]
    rcases hbytes n hn (hlength ▸ hn) with heq | ⟨hspace, hne⟩
    · exact .inl (congrArg some heq)
    · refine .inr ⟨congrArg some hspace, ?_⟩
      intro h
      exact hne (Option.some.inj h)
  · left
    rw [List.getElem?_eq_none (Nat.not_lt.mp hn), List.getElem?_eq_none (hlength ▸ Nat.not_lt.mp hn)]

end Masks

/-! ## The mask of a source -/

theorem Segment.masks (seg : Segment) : Masks seg.masked seg.source := by
  cases seg with
  | code c => exact .refl _
  | comment text => exact .flatMap_blank text
  | literal quote pieces closed =>
    apply Masks.append
    · apply Masks.append (.refl quote)
      rw [← List.flatMap_assoc]
      exact .flatMap_blank _
    · exact .refl _

theorem masks_flatMap (parts : List Segment) :
    Masks (parts.flatMap Segment.masked) (parts.flatMap Segment.source) := by
  induction parts with
  | nil => exact .nil
  | cons seg parts ih => exact seg.masks.append ih

theorem masks_segments (s : Syntax) (t : List Char) :
    Masks ((segments s t).flatMap Segment.masked) t := by
  have h := masks_flatMap (segments s t)
  rwa [source_segments] at h

/-! ## Literals -/

/-- The characters that literals start with. -/
def Syntax.quotes : Syntax → List Char
  | .pascal => ['\'']
  | .java => ['"', '\'']

theorem Opens.exists_quote {s : Syntax} {quote : List Char} {read : List Char → Body}
    (h : Opens s quote read) : ∃ q ∈ s.quotes, ∃ rest, quote = q :: rest := by
  cases h with
  | doubled => exact ⟨'\'', by simp [Syntax.quotes], [], rfl⟩
  | escaped hq => exact ⟨_, by simpa [Syntax.quotes] using hq, [], rfl⟩
  | block => exact ⟨'"', by simp [Syntax.quotes], _, rfl⟩

theorem exists_quote_of_mem_segments {s : Syntax} {t quote : List Char} {pieces : List Piece}
    {closed : Bool} (h : .literal quote pieces closed ∈ segments s t) :
    ∃ q ∈ s.quotes, ∃ rest, quote = q :: rest := by
  obtain ⟨c, cs, hfirst⟩ := exists_firstSegment_of_mem h
  obtain ⟨read, inner, hopens, _⟩ := exists_opensAt hfirst
  exact hopens.opens.exists_quote

theorem literalsFrom_code {n : Nat} {t : List Char} {parts : List Segment} :
    literalsFrom n (t.map .code ++ parts) = literalsFrom (n + width t) parts := by
  induction t generalizing n with
  | nil => rfl
  | cons c t ih =>
    have hc : width [c] + width t = width (c :: t) := (width_append [c] t).symm
    rw [List.map_cons, List.cons_append, ← hc, ← Nat.add_assoc, ← ih]
    rfl

theorem literalsFrom_append (n : Nat) (parts parts' : List Segment) :
    literalsFrom n (parts ++ parts') =
      literalsFrom n parts ++ literalsFrom (n + width (parts.flatMap Segment.source)) parts' := by
  induction parts generalizing n with
  | nil => rfl
  | cons seg parts ih =>
    rw [List.flatMap_cons, width_append, ← Nat.add_assoc, List.cons_append]
    cases seg with
    | code c => exact ih _
    | comment text => exact ih _
    | literal quote pieces closed => exact congrArg (_ :: ·) (ih _)

/-- A literal is a segment, and its span is where that segment stands. -/
theorem exists_of_mem_literalsFrom {n : Nat} {parts : List Segment} {l : Literal}
    (h : l ∈ literalsFrom n parts) :
    ∃ before quote pieces closed after, parts = before ++ .literal quote pieces closed :: after ∧
      l.span.start = n + width (before.flatMap Segment.source) ∧
      l.span.stop = l.span.start + width (Segment.literal quote pieces closed).source := by
  induction parts generalizing n with
  | nil => simp [literalsFrom] at h
  | cons seg parts ih =>
    have hbehind : l ∈ literalsFrom (n + width seg.source) parts → ∃ before quote pieces closed after,
        seg :: parts = before ++ .literal quote pieces closed :: after ∧
        l.span.start = n + width (before.flatMap Segment.source) ∧
        l.span.stop = l.span.start + width (Segment.literal quote pieces closed).source := by
      intro h
      obtain ⟨before, quote, pieces, closed, after, rfl, hstart, hstop⟩ := ih h
      refine ⟨seg :: before, quote, pieces, closed, after, rfl, ?_, hstop⟩
      rw [hstart, List.flatMap_cons, width_append, Nat.add_assoc]
    cases seg with
    | code c => exact hbehind h
    | comment text => exact hbehind h
    | literal quote pieces closed =>
      rcases List.mem_cons.mp h with rfl | h
      · exact ⟨[], quote, pieces, closed, parts, rfl, by simp [width], rfl⟩
      · exact hbehind h

theorem le_start_of_mem_literalsFrom {n : Nat} {parts : List Segment} {l : Literal}
    (h : l ∈ literalsFrom n parts) : n ≤ l.span.start := by
  obtain ⟨before, _, _, _, _, _, hstart, _⟩ := exists_of_mem_literalsFrom h
  omega

theorem literalsFrom_apart (n : Nat) (parts : List Segment) :
    (literalsFrom n parts).Pairwise fun a b => a.span.stop ≤ b.span.start := by
  induction parts generalizing n with
  | nil => exact .nil
  | cons seg parts ih =>
    cases seg with
    | code c => exact ih _
    | comment text => exact ih _
    | literal quote pieces closed =>
      exact .cons (fun l hl => le_start_of_mem_literalsFrom hl) (ih _)

/-! ## Positions -/

theorem Masks.lineEnd_iff {m t : List Char} (h : Masks m t) (n : Nat) :
    (bytes m)[n]? = some 10 ↔ (bytes t)[n]? = some 10 := by
  rcases h.getElem?_bytes n with heq | ⟨hspace, hne⟩
  · rw [heq]
  · rw [hspace]
    exact iff_of_false (by decide) hne

/-- A cut between segments is a boundary of the text, and the same one of the code. -/
theorem boundaries_of_append {s : Syntax} {t : List Char} {before after : List Segment}
    (h : segments s t = before ++ after) :
    IsBoundary t (width (before.flatMap Segment.source)) ∧
      IsBoundary (Masked.of s t).code (width (before.flatMap Segment.source)) := by
  have ht := source_segments s t
  have hcode : (Masked.of s t).code = (segments s t).flatMap Segment.masked := rfl
  rw [h, List.flatMap_append] at ht hcode
  exact ⟨⟨_, _, ht.symm, rfl⟩, ⟨_, _, hcode, (masks_flatMap before).width_eq⟩⟩

theorem Masked.exists_of_mem_literals {s : Syntax} {t : List Char} {l : Literal}
    (h : l ∈ (of s t).literals) :
    ∃ before q rest pieces closed after, q ∈ s.quotes ∧
      segments s t = before ++ .literal (q :: rest) pieces closed :: after ∧
      l.span.start = width (before.flatMap Segment.source) ∧
      l.span.stop = width ((before ++ [.literal (q :: rest) pieces closed]).flatMap
        Segment.source) := by
  obtain ⟨before, quote, pieces, closed, after, hparts, hstart, hstop⟩ :=
    exists_of_mem_literalsFrom h
  have hmem : Segment.literal quote pieces closed ∈ segments s t := by
    rw [hparts]
    exact List.mem_append_right _ List.mem_cons_self
  obtain ⟨q, hq, rest, rfl⟩ := exists_quote_of_mem_segments hmem
  rw [Nat.zero_add] at hstart
  refine ⟨before, q, rest, pieces, closed, after, hq, hparts, hstart, ?_⟩
  rw [hstop, hstart, List.flatMap_append, List.flatMap_singleton, width_append]

theorem getElem?_bytes_quote {s : Syntax} {q : Char} (hq : q ∈ s.quotes) (t : List Char) :
    (bytes (q :: t))[0]? = some q.toUInt8 := by
  cases s <;> simp only [Syntax.quotes, List.mem_cons, List.not_mem_nil, or_false] at hq
  · rw [hq]
    rfl
  · rcases hq with rfl | rfl <;> rfl

/-- Code and text have the same positions, and literals stand one behind the other in both. -/
structure KeepsPositions (s : Syntax) (t : List Char) (m : Masked) : Prop where
  length_eq : (bytes m.code).length = (bytes t).length
  byte_eq : ∀ n : Nat, (bytes m.code)[n]? = (bytes t)[n]? ∨ (bytes m.code)[n]? = some 32
  lineEnd_iff : ∀ n : Nat, (bytes m.code)[n]? = some 10 ↔ (bytes t)[n]? = some 10
  literal_inside : ∀ l ∈ m.literals,
    l.span.start < l.span.stop ∧ l.span.stop ≤ (bytes t).length
  literal_boundaries : ∀ l ∈ m.literals,
    (IsBoundary t l.span.start ∧ IsBoundary t l.span.stop) ∧
      IsBoundary m.code l.span.start ∧ IsBoundary m.code l.span.stop
  literal_quote : ∀ l ∈ m.literals, ∃ q ∈ s.quotes,
    (bytes m.code)[l.span.start]? = some q.toUInt8 ∧ (bytes t)[l.span.start]? = some q.toUInt8
  literals_increasing : m.literals.Pairwise fun a b => a.span.start < b.span.start
  literals_apart : m.literals.Pairwise fun a b => a.span.stop ≤ b.span.start

namespace Masked

variable {s : Syntax} {t : List Char} {l : Literal}

theorem boundaries_of_mem_literals (h : l ∈ (of s t).literals) :
    (IsBoundary t l.span.start ∧ IsBoundary t l.span.stop) ∧
      IsBoundary (of s t).code l.span.start ∧ IsBoundary (of s t).code l.span.stop := by
  obtain ⟨before, q, rest, pieces, closed, after, _, hparts, hstart, hstop⟩ :=
    exists_of_mem_literals h
  have hbefore := boundaries_of_append hparts
  have hbehind := boundaries_of_append (hparts.trans (List.append_cons _ _ _))
  rw [hstart, hstop]
  exact ⟨⟨hbefore.1, hbehind.1⟩, hbefore.2, hbehind.2⟩

theorem quote_of_mem_literals (h : l ∈ (of s t).literals) :
    ∃ q ∈ s.quotes, (bytes (of s t).code)[l.span.start]? = some q.toUInt8 ∧
      (bytes t)[l.span.start]? = some q.toUInt8 := by
  obtain ⟨before, q, rest, pieces, closed, after, hq, hparts, hstart, _⟩ :=
    exists_of_mem_literals h
  have ht := source_segments s t
  have hcode : (of s t).code = (segments s t).flatMap Segment.masked := rfl
  rw [hparts, List.flatMap_append] at ht hcode
  refine ⟨q, hq, ?_, ?_⟩
  · rw [hcode, hstart, ← (masks_flatMap before).width_eq, getElem?_bytes_width]
    exact getElem?_bytes_quote hq _
  · rw [← ht, hstart, getElem?_bytes_width]
    exact getElem?_bytes_quote hq _

theorem start_lt_stop_of_mem_literals (h : l ∈ (of s t).literals) :
    l.span.start < l.span.stop := by
  obtain ⟨before, q, rest, pieces, closed, after, _, _, hstart, hstop⟩ := exists_of_mem_literals h
  rw [hstart, hstop, List.flatMap_append, width_append, List.flatMap_singleton]
  apply Nat.lt_add_of_pos_right
  apply width_pos
  simp [Segment.source]

theorem keepsPositions (s : Syntax) (t : List Char) : KeepsPositions s t (of s t) := by
  have hmasks : Masks (of s t).code t := masks_segments s t
  have hapart : (of s t).literals.Pairwise fun a b => a.span.stop ≤ b.span.start :=
    literalsFrom_apart 0 _
  constructor
  case length_eq => exact hmasks.length_bytes_eq
  case byte_eq =>
    intro n
    exact (hmasks.getElem?_bytes n).imp_right And.left
  case lineEnd_iff => exact hmasks.lineEnd_iff
  case literal_inside =>
    intro l hl
    refine ⟨start_lt_stop_of_mem_literals hl, ?_⟩
    rw [length_bytes]
    exact (boundaries_of_mem_literals hl).1.2.le_width
  case literal_boundaries => exact fun l hl => boundaries_of_mem_literals hl
  case literal_quote => exact fun l hl => quote_of_mem_literals hl
  case literals_increasing =>
    apply hapart.imp_of_mem
    intro a b ha _ hab
    exact Nat.lt_of_lt_of_le (start_lt_stop_of_mem_literals ha) hab
  case literals_apart => exact hapart

end Masked

end MigrationAudit.Source
