import MigrationAudit.Pascal.Unit
import MigrationAudit.Proofs.Pascal.Layout
import MigrationAudit.Proofs.Text.Ahead

/-!
# The walk over the headers of an interface

The routines of an interface are found by a walk over its words that leaves out given spans. A header
is reported exactly when it stands outside these spans and not between an earlier reported header
and the end of that header's directives.
-/

namespace MigrationAudit.Pascal

open Text Source

variable {source : Masked} {skipped : List Span} {c d : Cursor}

/-- A routine header stands at the cursor. -/
structure StartsRoutine (c : Cursor) : Prop where
  keyword : (routineKind? (lowered (c.after.takeWhile isIdent))).isSome = true
  start : isRoutineStart c = true
  parses : (Header.parse? (statementText c)).isSome = true

instance (c : Cursor) : Decidable (StartsRoutine c) :=
  decidable_of_iff (_ ∧ _ ∧ _) ⟨fun ⟨h, k, l⟩ => ⟨h, k, l⟩, fun h => ⟨h.keyword, h.start, h.parses⟩⟩

/-- The position behind the header at the cursor and its directives. -/
def headerStop (c : Cursor) : Nat := (readDirectives (pastStatement c)).2.offset

def IsOutside (spans : List Span) (n : Nat) : Prop := ∀ span ∈ spans, span.contains n = false

instance (spans : List Span) (n : Nat) : Decidable (IsOutside spans n) := List.decidableBAll _ _

theorem spanAt?_eq_none_iff {n : Nat} : spanAt? skipped n = none ↔ IsOutside skipped n := by
  simp [spanAt?, IsOutside]

theorem exists_of_walkStep_skipTo {w : Word} {n : Nat} (h : walkStep skipped w = .skipTo n) :
    ∃ span ∈ skipped, span.contains w.start = true ∧ span.stop = n := by
  unfold walkStep at h
  split at h
  · next span hat =>
    have hcontains := List.find?_some (p := (Span.contains · w.start)) hat
    exact ⟨span, List.mem_of_find?_eq_some hat, hcontains, by simpa using h⟩
  · split at h <;> simp at h

theorem walkStep_eq_routine_iff {w : Word} :
    walkStep skipped w = .routine ↔ IsOutside skipped w.start ∧
      (routineKind? w.lower).isSome = true ∧ isRoutineStart w.first = true := by
  rw [← spanAt?_eq_none_iff, walkStep]
  cases spanAt? skipped w.start with
  | some span => simp
  | none => simp

/-- The headers that a walk reports from a cursor on. -/
structure IsWalked (skipped : List Span) (c : Cursor) (headers : List Cursor) : Prop where
  ahead : ∀ d ∈ headers, c.Leads d
  starts : ∀ d ∈ headers, StartsRoutine d
  outside : ∀ d ∈ headers, IsOutside skipped d.offset
  apart : headers.Pairwise fun d e => headerStop d ≤ e.offset
  complete : ∀ w ∈ c.words, StartsRoutine w.first → IsOutside skipped w.start →
    ∃ d ∈ headers, d.offset ≤ w.start ∧ w.start < headerStop d

def IsDeclaredAt (source : Masked) (d : Cursor) (r : Routine) : Prop :=
  ∃ h, Header.parse? (statementText d) = some h ∧
    r = interfaceRoutine source d h (readDirectives (pastStatement d)).1

theorem lower_of_nextWord? {w : Word} (hw : c.nextWord? = some w) :
    w.lower = lowered (w.first.after.takeWhile isIdent) := by
  simp only [Cursor.nextWord?] at hw
  split at hw
  · simp at hw
  · obtain rfl := Option.some.inj hw
    rfl

theorem offset_lt_headerStop (h : StartsRoutine d) : d.offset < headerStop d := by
  obtain ⟨header, hparse⟩ := Option.isSome_iff_exists.mp h.parses
  have hpast := offset_lt_pastStatement (statementText_ne_nil hparse)
  exact Nat.lt_of_lt_of_le hpast (leadsWhole_readDirectives (pastStatement d)).offset_le

theorem offset_seek_le {n : Nat} {w : Word} (hlead : c.Leads w.first) (hc : c.offset ≤ w.start)
    (hn : n ≤ w.start) : (c.seek n).offset ≤ w.start := by
  obtain ⟨m, hm, hfirst⟩ := hlead
  have hwidth : w.start = c.offset + width m := by rw [Word.start, hfirst]; rfl
  have htake : takeBytes (n - c.offset) c.after = takeBytes (n - c.offset) m := by
    rw [hm, takeBytes_append_of_le (by omega)]
  have hle := congrArg width (takeBytes_append_dropBytes (n - c.offset) m)
  rw [width_append] at hle
  rw [Cursor.seek, htake, Cursor.offset_advance]
  omega

namespace IsWalked

variable {headers : List Cursor} {w : Word}

theorem none (hw : c.nextWord? = none) : IsWalked skipped c [] := by
  refine ⟨by simp, by simp, by simp, .nil, ?_⟩
  rw [Cursor.words_of_nextWord?_eq_none hw]
  simp

/-- Behind a word at which no header is reported the walk goes on at any later place, when the words
passed over are covered by the spans. -/
theorem pass (h : IsWalked skipped d headers) (hw : c.nextWord? = some w)
    (hlead : w.behind.Leads d) (hfirst : ¬(StartsRoutine w.first ∧ IsOutside skipped w.start))
    (hpassed : ∀ v ∈ w.behind.words, v.start < d.offset → ¬ IsOutside skipped v.start) :
    IsWalked skipped c headers := by
  obtain ⟨hfirst', hbehind⟩ := Cursor.leads_nextWord? hw
  refine ⟨fun e he => ((hfirst'.trans hbehind).trans hlead).trans (h.ahead e he), h.starts,
    h.outside, h.apart, fun v hv hstarts hout => ?_⟩
  rw [Cursor.words_of_nextWord? hw] at hv
  rcases List.mem_cons.mp hv with rfl | hv
  · exact absurd ⟨hstarts, hout⟩ hfirst
  · by_cases hlt : v.start < d.offset
    · exact absurd hout (hpassed v hv hlt)
    · exact h.complete v (Cursor.mem_words_of_leads hv hlead (Nat.not_lt.mp hlt)) hstarts hout

/-- Behind a reported header the walk goes on where its directives end. -/
theorem report (hw : c.nextWord? = some w) (hstarts : StartsRoutine w.first)
    (hout : IsOutside skipped w.start)
    (h : IsWalked skipped (readDirectives (pastStatement w.first)).2 headers) :
    IsWalked skipped c (w.first :: headers) := by
  obtain ⟨hfirst, hbehind⟩ := Cursor.leads_nextWord? hw
  have hstop : w.first.Leads (readDirectives (pastStatement w.first)).2 :=
    (leads_pastStatement _).trans (leads_readDirectives _)
  refine ⟨List.forall_mem_cons.mpr ⟨hfirst, fun e he => (hfirst.trans hstop).trans (h.ahead e he)⟩,
    List.forall_mem_cons.mpr ⟨hstarts, h.starts⟩, List.forall_mem_cons.mpr ⟨hout, h.outside⟩,
    .cons (fun e he => (h.ahead e he).offset_le) h.apart, fun v hv hv' hvout => ?_⟩
  have hlt := offset_lt_headerStop hstarts
  rw [Cursor.words_of_nextWord? hw] at hv
  rcases List.mem_cons.mp hv with rfl | hv
  · exact ⟨v.first, List.mem_cons_self, le_rfl, hlt⟩
  · have hbehind' := (Cursor.leadsWhole_of_mem_words hv).1.leads
    by_cases hinside : v.start < headerStop w.first
    · exact ⟨w.first, List.mem_cons_self, (hbehind.trans hbehind').offset_le, hinside⟩
    · have hmem : v ∈ (readDirectives (pastStatement w.first)).2.words :=
        Cursor.mem_words_of_leads (by rw [Cursor.words_of_nextWord? hw]; exact .tail _ hv)
          (hfirst.trans hstop) (Nat.not_lt.mp hinside)
      obtain ⟨e, he, hspan⟩ := h.complete v hmem hv' hvout
      exact ⟨e, List.mem_cons_of_mem _ he, hspan⟩

end IsWalked

/-- The routines of an interface are declared by the headers that the walk reports, one by one. -/
theorem exists_headers (source : Masked) (skipped : List Span) (c : Cursor) :
    ∃ headers, List.Forall₂ (IsDeclaredAt source) headers (interfaceRoutines source skipped c) ∧
      IsWalked skipped c headers := by
  fun_induction interfaceRoutines source skipped c with
  | case1 c hw => exact ⟨[], .nil, .none hw⟩
  | case2 c w hw n hstep ih =>
    obtain ⟨headers, hdeclared, hwalked⟩ := ih
    obtain ⟨span, hspan, hcontains, rfl⟩ := exists_of_walkStep_skipTo hstep
    refine ⟨headers, hdeclared, hwalked.pass hw (Cursor.leads_seek ..) (fun h => ?_)
      fun v hv hlt hout => ?_⟩
    · exact absurd hcontains (by simp [h.2 span hspan])
    · -- a word in front of the place that is looked for lies in the span
      have hlead := (Cursor.leadsWhole_of_mem_words hv).1.leads
      have hle := (Cursor.leads_nextWord? hw).2.offset_le.trans hlead.offset_le
      have hstop : v.start < span.stop := by
        by_contra hnot
        exact absurd hlt (Nat.not_lt.mpr (offset_seek_le hlead hlead.offset_le (Nat.not_lt.mp hnot)))
      have hnot := hout span hspan
      simp only [Span.contains, decide_eq_true_eq, decide_eq_false_iff_not] at hcontains hnot
      exact hnot ⟨hcontains.1.trans hle, hstop⟩
  | case3 c w hw hstep ih =>
    obtain ⟨headers, hdeclared, hwalked⟩ := ih
    refine ⟨headers, hdeclared, hwalked.pass hw (.refl _) (fun h => ?_) fun v hv hlt => ?_⟩
    · have hkeyword := h.1.keyword
      rw [← lower_of_nextWord? hw] at hkeyword
      have hroutine := walkStep_eq_routine_iff.mpr ⟨h.2, hkeyword, h.1.start⟩
      simp [hstep] at hroutine
    · exact absurd hlt (Nat.not_lt.mpr (Cursor.leadsWhole_of_mem_words hv).1.offset_le)
  | case4 c w hw hstep hparse ih =>
    obtain ⟨headers, hdeclared, hwalked⟩ := ih
    refine ⟨headers, hdeclared, hwalked.pass hw (.refl _) (fun h => ?_) fun v hv hlt => ?_⟩
    · simpa [hparse] using h.1.parses
    · exact absurd hlt (Nat.not_lt.mpr (Cursor.leadsWhole_of_mem_words hv).1.offset_le)
  | case5 c w hw hstep h hparse ih =>
    obtain ⟨headers, hdeclared, hwalked⟩ := ih
    obtain ⟨hout, hkeyword, hstart⟩ := walkStep_eq_routine_iff.mp hstep
    rw [lower_of_nextWord? hw] at hkeyword
    exact ⟨w.first :: headers, .cons ⟨h, hparse, rfl⟩ hdeclared,
      .report hw ⟨hkeyword, hstart, by simp [hparse]⟩ hout hwalked⟩

end MigrationAudit.Pascal
