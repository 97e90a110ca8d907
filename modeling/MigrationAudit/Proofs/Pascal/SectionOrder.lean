import MigrationAudit.Pascal.Section
import MigrationAudit.Proofs.Text.Ahead
import MigrationAudit.Proofs.Text.Blocks

/-!
# The order of the sections of a unit

Three marks are kept while the words behind the header go by. The first word `implementation` is
what parts the others: the interface is marked only in front of it, and the tail only behind it. So
the marks are first occurrences in the words in front, and in the words behind, and the sections
between them stand one behind the other.
-/

namespace MigrationAudit.Text

variable {c : Cursor} {cs : List Char} {u w : Word} {front back : List Word}

theorem Word.IsWhole.stop_eq (h : w.IsWhole) : w.stop = w.start + width w.text := by
  rw [Word.stop, h.behind_eq, Cursor.offset_advance, Word.start]

theorem Word.width_text {name : String} (h : w.lower = name) :
    width w.text = width name.toList := by
  rw [← h, lower, String.toList_ofList, width_lowerLatin]

theorem Word.IsWhole.start_lt_stop (h : w.IsWhole) : w.start < w.stop := by
  rw [h.stop_eq]
  exact Nat.lt_add_of_pos_right (width_pos h.ne_nil)

def Word.Precedes (v w : Word) : Prop := v.start < v.stop ∧ v.stop ≤ w.start

theorem Cursor.words_pairwise (c : Cursor) : c.words.Pairwise Word.Precedes := by
  fun_induction Cursor.words c with
  | case1 => exact .nil
  | case2 c v hv ih =>
    refine List.pairwise_cons.mpr ⟨fun w hw => ?_, ih⟩
    exact ⟨(isWhole_of_nextWord? hv).start_lt_stop, (leadsWhole_of_mem_words hw).1.offset_le⟩

/-- What starts before a word is among the words in front of it. -/
theorem mem_of_start_lt (h : (front ++ w :: back).Pairwise Word.Precedes)
    (hu : u ∈ front ++ w :: back) (hlt : u.start < w.start) : u ∈ front := by
  rw [List.pairwise_append, List.pairwise_cons] at h
  rcases List.mem_append.mp hu with hu | hu
  · exact hu
  · rcases List.mem_cons.mp hu with rfl | hu
    · exact absurd hlt (lt_irrefl _)
    · obtain ⟨hword, hle⟩ := h.2.1.1 u hu
      omega

/-- What starts behind a word is among the words behind it. -/
theorem mem_of_stop_le (h : (front ++ w :: back).Pairwise Word.Precedes) (hw : w.start < w.stop)
    (hu : u ∈ front ++ w :: back) (hle : w.stop ≤ u.start) : u ∈ back := by
  rw [List.pairwise_append] at h
  rcases List.mem_append.mp hu with hu | hu
  · obtain ⟨hword, hbefore⟩ := h.2.2 u hu w List.mem_cons_self
    omega
  · rcases List.mem_cons.mp hu with rfl | hu
    · omega
    · exact hu

theorem Cursor.StandsIn.isBoundary (h : c.StandsIn cs) : IsBoundary cs c.offset := by
  obtain ⟨beyond, hcs, hwidth⟩ := h.exists_eq
  exact ⟨_, _, hcs, hwidth⟩

/-- The words of a text behind a byte, of which the first may start inside another word. -/
def wordsBehind (cs : List Char) (n : Nat) : List Word := ((Cursor.ofText cs).seek n).words

theorem offset_seek_ofText {n : Nat} (h : IsBoundary cs n) :
    ((Cursor.ofText cs).seek n).offset = n := by
  obtain ⟨a, b, rfl, rfl⟩ := h
  rw [Cursor.seek_ofText]

theorem mem_wordsBehind {n : Nat} (h : IsBoundary cs n) (hw : w ∈ words cs) (hle : n ≤ w.start) :
    w ∈ wordsBehind cs n :=
  Cursor.mem_words_of_leads hw (Cursor.leads_seek _ n) ((offset_seek_ofText h).le.trans hle)

end MigrationAudit.Text

namespace MigrationAudit.Pascal

open Text

variable {code : List Char} {start : Nat} {w : Word} {ws front back : List Word}

/-! ## Marks -/

def startsImplementation (w : Word) : Bool := w.lower == "implementation"

theorem stop_of_startsImplementation (hw : w ∈ wordsBehind code start)
    (h : startsImplementation w = true) : w.stop = w.start + 14 := by
  rw [(Cursor.isWhole_of_mem_words hw).stop_eq, Word.width_text (eq_of_beq h)]
  rfl

/-- Whether a word starts an interface: it stands at the start of a statement. -/
def startsInterface (w : Word) : Bool :=
  w.lower == "interface" && w.first.lastSignificant?.all (· == ';')

def startsTail (w : Word) : Bool := w.lower == "initialization" || w.lower == "finalization"

theorem startsTail_eq_false_iff :
    startsTail w = false ↔ w.lower ≠ "initialization" ∧ w.lower ≠ "finalization" := by
  simp [startsTail]

namespace SectionMarks

variable {m : SectionMarks}

/-- The mark of a first occurrence stays as it is. -/
theorem or_find?_cons {α : Type} (p : Word → Bool) (f : Word → α) (mark : Option α) (w : Word)
    (ws : List Word) :
    (mark.or (if p w then some (f w) else none)).or ((ws.find? p).map f) =
      mark.or (((w :: ws).find? p).map f) := by
  cases hp : p w <;> cases mark <;> simp [hp]

theorem note_of_none (hm : m.implementation = none) (hw : startsImplementation w = false) :
    m.note w =
      { m with interface := m.interface.or (if startsInterface w then some w.stop else none) } := by
  obtain ⟨interface, implementation, tail⟩ := m
  obtain rfl : implementation = none := hm
  unfold note
  split
  · next hlower =>
    cases interface with
    | none =>
      by_cases hstatement : w.first.lastSignificant?.all (· == ';') <;>
        simp [startsInterface, hlower, hstatement]
    | some n => simp
  · next hlower => simp [startsImplementation, hlower] at hw
  all_goals simp_all [startsInterface]

theorem note_of_isSome (hm : m.implementation.isSome = true) :
    m.note w = { m with tail := m.tail.or (if startsTail w then some w.start else none) } := by
  obtain ⟨interface, implementation, tail⟩ := m
  obtain ⟨n, rfl⟩ : ∃ n, implementation = some n := Option.isSome_iff_exists.mp hm
  unfold note
  split <;> cases tail <;> simp_all [startsTail]

theorem foldl_note_of_none (hm : m.implementation = none)
    (h : ∀ w ∈ ws, startsImplementation w = false) :
    ws.foldl note m =
      { m with interface := m.interface.or ((ws.find? startsInterface).map Word.stop) } := by
  induction ws generalizing m with
  | nil => simp
  | cons w ws ih =>
    obtain ⟨hw, hws⟩ := List.forall_mem_cons.mp h
    rw [List.foldl_cons, note_of_none hm hw, ih (by exact hm) hws, or_find?_cons]

theorem foldl_note_of_isSome (hm : m.implementation.isSome = true) :
    ws.foldl note m = { m with tail := m.tail.or ((ws.find? startsTail).map Word.start) } := by
  induction ws generalizing m with
  | nil => simp
  | cons w ws ih => rw [List.foldl_cons, note_of_isSome hm, ih (by exact hm), or_find?_cons]

/-- The marks behind words of which one starts the implementation. -/
theorem foldl_note_append (hfront : ∀ v ∈ front, startsImplementation v = false)
    (hw : startsImplementation w = true) :
    (front ++ w :: back).foldl note {} =
      { interface := (front.find? startsInterface).map Word.stop
        implementation := some w.start
        tail := (back.find? startsTail).map Word.start } := by
  have hnote : ∀ i : Option Nat, note { interface := i } w =
      { interface := i, implementation := some w.start } := by
    intro i
    have hlower : w.lower = "implementation" := eq_of_beq hw
    simp [note, hlower]
  rw [List.foldl_append, foldl_note_of_none rfl hfront, List.foldl_cons, Option.none_or, hnote,
    foldl_note_of_isSome rfl, Option.none_or]

end SectionMarks

/-! ## Sections -/

namespace Sections

def spans (s : Sections) : List Span :=
  s.interface.toList ++ (s.implementation.toList ++ s.tail.toList)

/-- Without a word that starts an implementation there is an interface alone, or all behind the
header is implementation. -/
theorem find_of_none (h : (wordsBehind code start).find? startsImplementation = none) :
    find code start =
      match (wordsBehind code start).find? startsInterface with
      | some v => { interface := some ⟨v.stop, width code⟩ }
      | none => { implementation := some ⟨start, width code⟩ } := by
  rw [find, ← wordsBehind, SectionMarks.foldl_note_of_none rfl (by simpa using h)]
  cases (wordsBehind code start).find? startsInterface <;> rfl

/-- The words behind a header are parted by the first one that starts an implementation. -/
structure IsParted (code : List Char) (start : Nat) (front : List Word) (w : Word)
    (back : List Word) : Prop where
  words_eq : wordsBehind code start = front ++ w :: back
  front_eq_false : ∀ v ∈ front, startsImplementation v = false
  keyword : startsImplementation w = true

theorem IsParted.mem (h : IsParted code start front w back) : w ∈ wordsBehind code start := by
  rw [h.words_eq]
  exact List.mem_append_right _ List.mem_cons_self

theorem find?_eq_some_iff :
    (wordsBehind code start).find? startsImplementation = some w ↔
      ∃ front back, IsParted code start front w back := by
  rw [List.find?_eq_some_iff_append]
  constructor
  · rintro ⟨hw, front, back, hwords, hfront⟩
    exact ⟨front, back, hwords, fun v hv => by simpa using hfront v hv, hw⟩
  · rintro ⟨front, back, hwords, hfront, hw⟩
    exact ⟨hw, front, back, hwords, fun v hv => by simp [hfront v hv]⟩

/-- Where an implementation ends: at the first word that starts a tail, or with the text. -/
def tailStart (code : List Char) (back : List Word) : Nat :=
  ((back.find? startsTail).map Word.start).getD (width code)

/-- The interface starts in front of the word that parts the others, the tail behind it. -/
theorem find_of_isParted (h : IsParted code start front w back) :
    find code start =
      { interface := (front.find? startsInterface).map fun v => ⟨v.stop, w.start⟩
        implementation := some ⟨w.stop, tailStart code back⟩
        tail := (back.find? startsTail).map fun t => ⟨t.start, width code⟩ } := by
  have hstop : w.start + 14 = w.stop := (stop_of_startsImplementation h.mem h.keyword).symm
  rw [find, ← wordsBehind, h.words_eq, SectionMarks.foldl_note_append h.front_eq_false h.keyword]
  simp [SectionMarks.sections, tailStart, hstop, Function.comp_def]

/-- A span of a text, between characters, behind byte `n`. -/
structure IsSpanBehind (cs : List Char) (n : Nat) (span : Span) : Prop where
  le_start : n ≤ span.start
  start_le_stop : span.start ≤ span.stop
  stop_le : span.stop ≤ width cs
  boundary_start : IsBoundary cs span.start
  boundary_stop : IsBoundary cs span.stop

/-- The sections stand in a text in their order, behind a header that ends at byte `start`: the
interface first, then the implementation, and the tail only behind an implementation. None of them
has a word in it by which the next one would start. -/
structure AreOrdered (s : Sections) (code : List Char) (start : Nat) : Prop where
  stands : ∀ span ∈ s.spans, IsSpanBehind code start span
  interface_start : s.interface.map Span.start =
    (((wordsBehind code start).takeWhile (!startsImplementation ·)).find? startsInterface).map
      Word.stop
  implementation_start : ∀ w ∈ (wordsBehind code start).find? startsImplementation,
    ∃ m ∈ s.implementation, m.start = w.stop
  implementation_of_none : (wordsBehind code start).find? startsImplementation = none →
    s.implementation = if s.interface.isSome then none else some ⟨start, width code⟩
  tail_start : s.tail.map Span.start =
    (((wordsBehind code start).dropWhile (!startsImplementation ·)).find? startsTail).map Word.start
  interface_le : ∀ i ∈ s.interface, ∀ m ∈ s.implementation, i.stop ≤ m.start
  implementation_stop : ∀ m ∈ s.implementation, m.stop = (s.tail.map Span.start).getD (width code)
  tail_stop : ∀ t ∈ s.tail, t.stop = width code
  implementation_of_tail : s.tail.isSome = true → s.implementation.isSome = true
  interface_words : ∀ i ∈ s.interface, ∀ w ∈ words code, i.contains w.start = true →
    w.lower ≠ "implementation"
  implementation_words : (∃ w ∈ wordsBehind code start, w.lower = "implementation") →
    ∀ m ∈ s.implementation, ∀ w ∈ words code, m.contains w.start = true →
      w.lower ≠ "initialization" ∧ w.lower ≠ "finalization"

theorem isSpanBehind_of_mem (h : IsBoundary code start) (hw : w ∈ wordsBehind code start) :
    IsSpanBehind code start ⟨w.start, w.stop⟩ := by
  obtain ⟨hfirst, hbehind⟩ := Cursor.leadsWhole_of_mem_words hw
  have hstands := (Cursor.standsIn_ofText code).of_leads
    ((Cursor.leads_seek (Cursor.ofText code) start).trans hfirst.leads)
  have hstands' := hstands.of_leads hbehind.leads
  exact ⟨(offset_seek_ofText h).symm.le.trans hfirst.offset_le, hbehind.offset_le,
    hstands'.offset_le, hstands.isBoundary, hstands'.isBoundary⟩

theorem IsSpanBehind.between {a b : Span} (ha : IsSpanBehind code start a)
    (hb : IsSpanBehind code start b) (hle : a.stop ≤ b.start) :
    IsSpanBehind code start ⟨a.stop, b.start⟩ :=
  ⟨ha.le_start.trans ha.start_le_stop, hle, hb.start_le_stop.trans hb.stop_le, ha.boundary_stop,
    hb.boundary_start⟩

theorem isSpanBehind_width (h : IsBoundary code start) :
    IsSpanBehind code start ⟨width code, width code⟩ :=
  ⟨h.le_width, le_rfl, le_rfl, ⟨code, [], by simp, rfl⟩, ⟨code, [], by simp, rfl⟩⟩

theorem areOrdered_of_none (h : IsBoundary code start)
    (hfind : (wordsBehind code start).find? startsImplementation = none) :
    (find code start).AreOrdered code start := by
  have hend := isSpanBehind_width h
  have hnone : ∀ w ∈ wordsBehind code start, startsImplementation w = false := by simpa using hfind
  have hfront : (wordsBehind code start).takeWhile (!startsImplementation ·) =
      wordsBehind code start := List.takeWhile_eq_self_iff.mpr fun w hw => by simp [hnone w hw]
  have hback : (wordsBehind code start).dropWhile (!startsImplementation ·) = [] :=
    List.dropWhile_eq_nil_iff.mpr fun w hw => by simp [hnone w hw]
  have hno : ¬∃ w ∈ wordsBehind code start, w.lower = "implementation" := fun ⟨w, hw, hlower⟩ => by
    have := hnone w hw
    simp [startsImplementation, hlower] at this
  rw [find_of_none hfind]
  cases hi : (wordsBehind code start).find? startsInterface with
  | none =>
    have hspan : IsSpanBehind code start ⟨start, width code⟩ :=
      ⟨le_rfl, h.le_width, le_rfl, h, hend.boundary_stop⟩
    constructor <;> simp [spans, hfind, hfront, hback, hi, hspan]
    exact fun w hw hlower => absurd ⟨w, hw, hlower⟩ hno
  | some v =>
    have hv := List.mem_of_find?_eq_some hi
    have hspan := (isSpanBehind_of_mem h hv).between hend (isSpanBehind_of_mem h hv).stop_le
    constructor <;> simp [spans, hfind, hfront, hback, hi, hspan]
    exact fun u hu hin hlower =>
      hno ⟨u, mem_wordsBehind h hu (hspan.le_start.trans (of_decide_eq_true hin).1), hlower⟩

namespace IsParted

variable (h : IsParted code start front w back) (hstart : IsBoundary code start)
include h

theorem pairwise : (front ++ w :: back).Pairwise Word.Precedes := by
  rw [← h.words_eq]
  exact Cursor.words_pairwise _

theorem takeWhile_eq : (wordsBehind code start).takeWhile (!startsImplementation ·) = front := by
  rw [h.words_eq, List.takeWhile_append_of_pos fun v hv => by simp [h.front_eq_false v hv]]
  simp [h.keyword]

theorem dropWhile_eq :
    (wordsBehind code start).dropWhile (!startsImplementation ·) = w :: back := by
  rw [h.words_eq, List.dropWhile_append_of_pos fun v hv => by simp [h.front_eq_false v hv]]
  simp [h.keyword]

include hstart

theorem isSpanBehind {v : Word} (hv : v ∈ front ++ w :: back) :
    IsSpanBehind code start ⟨v.start, v.stop⟩ :=
  isSpanBehind_of_mem hstart (h.words_eq ▸ hv)

/-- The interface ends at the word, so its words are among those in front. -/
theorem of_interface {v : Word} (hv : front.find? startsInterface = some v) :
    IsSpanBehind code start ⟨v.stop, w.start⟩ ∧
      ∀ u ∈ words code, Span.contains ⟨v.stop, w.start⟩ u.start = true →
        u.lower ≠ "implementation" := by
  have hmem := List.mem_of_find?_eq_some hv
  have hspan := (h.isSpanBehind hstart (List.mem_append_left _ hmem)).between
    (h.isSpanBehind hstart (by simp))
    ((List.pairwise_append.mp h.pairwise).2.2 v hmem w List.mem_cons_self).2
  refine ⟨hspan, fun u hu hin hlower => ?_⟩
  obtain ⟨hle, hlt⟩ := of_decide_eq_true hin
  have hmem := mem_wordsBehind hstart hu (hspan.le_start.trans hle)
  have hfront := mem_of_start_lt h.pairwise (h.words_eq ▸ hmem) hlt
  simpa [startsImplementation, hlower] using h.front_eq_false u hfront

/-- The tail starts at one of the words behind. -/
theorem of_tail {t : Word} (ht : back.find? startsTail = some t) :
    IsSpanBehind code start ⟨t.start, width code⟩ := by
  have hmem : t ∈ front ++ w :: back :=
    List.mem_append_right _ (List.mem_cons_of_mem w (List.mem_of_find?_eq_some ht))
  have hspan := h.isSpanBehind hstart hmem
  have hend := isSpanBehind_width hstart
  exact ⟨hspan.le_start, hspan.start_le_stop.trans hspan.stop_le, le_rfl, hspan.boundary_start,
    hend.boundary_stop⟩

/-- The implementation starts behind the word, so its words are among those behind, in front of the
first one by which a tail starts. -/
theorem of_implementation :
    IsSpanBehind code start ⟨w.stop, tailStart code back⟩ ∧
      ∀ u ∈ words code, Span.contains ⟨w.stop, tailStart code back⟩ u.start = true →
        u.lower ≠ "initialization" ∧ u.lower ≠ "finalization" := by
  have hword : IsSpanBehind code start ⟨w.start, w.stop⟩ := h.isSpanBehind hstart (by simp)
  have hback := (List.pairwise_cons.mp (List.pairwise_append.mp h.pairwise).2.1).2
  have hbehind : ∀ u ∈ words code, w.stop ≤ u.start → u ∈ back := fun u hu hle =>
    mem_of_stop_le h.pairwise (Cursor.isWhole_of_mem_words h.mem).start_lt_stop
      (h.words_eq ▸ mem_wordsBehind hstart hu
        ((hword.le_start.trans hword.start_le_stop).trans hle)) hle
  cases ht : back.find? startsTail with
  | none =>
    have hstop : tailStart code back = width code := by simp [tailStart, ht]
    rw [hstop]
    refine ⟨hword.between (isSpanBehind_width hstart) hword.stop_le, fun u hu hin => ?_⟩
    have := List.find?_eq_none.mp ht u (hbehind u hu (of_decide_eq_true hin).1)
    exact startsTail_eq_false_iff.mp (by simpa using this)
  | some t =>
    have hstop : tailStart code back = t.start := by simp [tailStart, ht]
    have hmem := List.mem_of_find?_eq_some ht
    obtain ⟨-, as, bs, rfl, has⟩ := List.find?_eq_some_iff_append.mp ht
    rw [hstop]
    refine ⟨hword.between (h.isSpanBehind hstart (by simp))
      ((List.pairwise_cons.mp (List.pairwise_append.mp h.pairwise).2.1).1 t hmem).2,
      fun u hu hin => ?_⟩
    obtain ⟨hle, hlt⟩ := of_decide_eq_true hin
    have := has u (mem_of_start_lt hback (hbehind u hu hle) hlt)
    exact startsTail_eq_false_iff.mp (by simpa using this)

end IsParted

theorem areOrdered_of_isParted (h : IsBoundary code start)
    (hparted : IsParted code start front w back) : (find code start).AreOrdered code start := by
  have hfind := find?_eq_some_iff.mpr ⟨front, back, hparted⟩
  have hword : IsSpanBehind code start ⟨w.start, w.stop⟩ := hparted.isSpanBehind h (by simp)
  obtain ⟨hspan, hwords⟩ := hparted.of_implementation h
  rw [find_of_isParted hparted]
  constructor <;> simp [spans, hfind, hparted.takeWhile_eq, hparted.dropWhile_eq, Function.comp_def]
  case stands =>
    rintro span (⟨v, hv, rfl⟩ | rfl | ⟨t, ht, rfl⟩)
    · exact (hparted.of_interface h hv).1
    · exact hspan
    · exact hparted.of_tail h ht
  case tail_start =>
    have htail : startsTail w = false := by simp [startsTail, eq_of_beq hparted.keyword]
    rw [List.find?_cons_of_neg (by simp [htail])]
  case interface_le => exact fun _ _ => hword.start_le_stop
  case implementation_stop => rfl
  case interface_words => exact fun v hv => (hparted.of_interface h hv).2
  case implementation_words => exact fun _ _ _ => hwords

/-- The sections of a text stand in it in their order, wherever its header ends. -/
theorem areOrdered_find (h : IsBoundary code start) : (find code start).AreOrdered code start := by
  cases hfind : (wordsBehind code start).find? startsImplementation with
  | none => exact areOrdered_of_none h hfind
  | some w =>
    obtain ⟨front, back, hparted⟩ := find?_eq_some_iff.mp hfind
    exact areOrdered_of_isParted h hparted

/-- A unit that declares an interface type, with its keywords in other case. -/
def unitWithInterfaceType : List Char :=
  "unit ü;".toList ++
    "\nInterface\ntype I = interface end;\nIMPLEMENTATION\nFinalization\nx;\nend.".toList

theorem areOrdered_unitWithInterfaceType :
    IsBoundary unitWithInterfaceType 8 ∧
      find unitWithInterfaceType 8 = ⟨some ⟨18, 43⟩, some ⟨57, 58⟩, some ⟨58, 78⟩⟩ ∧
      (find unitWithInterfaceType 8).AreOrdered unitWithInterfaceType 8 := by
  have hstart : IsBoundary unitWithInterfaceType 8 := ⟨_, _, rfl, by decide⟩
  exact ⟨hstart, by decide +kernel, areOrdered_find hstart⟩

end Sections

end MigrationAudit.Pascal
