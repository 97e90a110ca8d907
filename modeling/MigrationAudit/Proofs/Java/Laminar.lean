import MigrationAudit.Proofs.Java.Steps
import MigrationAudit.Proofs.Source.Mask
import Mathlib.Data.List.Pairwise
import Mathlib.Order.Nat

/-!
# Types in each other

The types of a file are in the order of their starts, and any two of them are apart or one lies in
the other. A method lies in its type, apart from the other methods of the type and from the types
nested in it. So the types outside all others are those that the file itself declares.
-/

namespace MigrationAudit

namespace Text.Span

/-- One span lies in another one. -/
def Encloses (a b : Span) : Prop := a.start ≤ b.start ∧ b.stop ≤ a.stop

/-- One of two spans ends before the other one starts. -/
def Apart (a b : Span) : Prop := a.stop ≤ b.start ∨ b.stop ≤ a.start

end Text.Span

namespace Java

open Text Source

/-- Types in the order of their starts that are apart or in each other, with methods that lie in
their own type and outside the types in it. -/
structure IsLaminar (limit : Nat) (types : List ParsedType) : Prop where
  starts_lt : types.Pairwise fun t u => t.span.start < u.span.start
  bounds : ∀ t ∈ types, t.span.start < t.span.stop ∧ t.span.stop ≤ limit
  nested_or_apart : ∀ t ∈ types, ∀ u ∈ types,
    t.span.Apart u.span ∨ t.span.Encloses u.span ∨ u.span.Encloses t.span
  topLevel_iff : ∀ t ∈ types, t.topLevel = true ↔ ∀ u ∈ types, u ≠ t → ¬ u.span.Encloses t.span
  methods_length : ∀ t ∈ types, t.facts.methods.length = t.methods.length
  methods_inside : ∀ t ∈ types, ∀ m ∈ t.methods,
    m.span.start < m.span.stop ∧ t.span.Encloses m.span
  methods_apart : ∀ t ∈ types, t.methods.Pairwise fun m n => m.span.stop ≤ n.span.start
  methods_apart_nested : ∀ t ∈ types, ∀ u ∈ types, u ≠ t → t.span.Encloses u.span →
    ∀ m ∈ t.methods, m.span.Apart u.span

/-! ## Scopes -/

structure MethodsFit (start limit : Nat) (methods : List ParsedMethod) : Prop where
  bounds : ∀ m ∈ methods,
    start ≤ m.span.start ∧ m.span.start < m.span.stop ∧ m.span.stop ≤ limit
  apart : methods.Pairwise fun m n => m.span.stop ≤ n.span.start

/-- How a type stands to one that is listed behind it: it ends before that starts, or has it inside
and apart from its own methods. -/
def ParsedType.Precedes (t u : ParsedType) : Prop :=
  t.span.stop ≤ u.span.start ∨
    (t.span.start < u.span.start ∧ u.span.stop ≤ t.span.stop ∧
      ∀ m ∈ t.methods, m.span.Apart u.span)

/-- A scope between two positions. -/
structure Scope.Fits (start limit : Nat) (s : Scope) : Prop where
  methods : MethodsFit start limit s.methods
  types_bounds : ∀ t ∈ s.types,
    start ≤ t.span.start ∧ t.span.start < t.span.stop ∧ t.span.stop ≤ limit
  types_methods : ∀ t ∈ s.types, MethodsFit t.span.start t.span.stop t.methods
  precedes : s.types.Pairwise ParsedType.Precedes
  methods_apart : ∀ m ∈ s.methods, ∀ t ∈ s.types, m.span.Apart t.span

namespace MethodsFit

variable {start middle limit : Nat} {methods methods' : List ParsedMethod}

theorem nil : MethodsFit start limit [] := ⟨by simp, .nil⟩

theorem mono {start' limit' : Nat} (h : MethodsFit start limit methods) (hstart : start' ≤ start)
    (hlimit : limit ≤ limit') : MethodsFit start' limit' methods := by
  refine ⟨fun m hm => ?_, h.apart⟩
  have := h.bounds m hm
  omega

theorem append (h : MethodsFit start middle methods) (h' : MethodsFit middle limit methods')
    (hstart : start ≤ middle) (hlimit : middle ≤ limit) :
    MethodsFit start limit (methods ++ methods') := by
  constructor
  case bounds =>
    exact List.forall_mem_append.mpr
      ⟨(h.mono le_rfl hlimit).bounds, (h'.mono hstart le_rfl).bounds⟩
  case apart =>
    refine List.pairwise_append.mpr ⟨h.apart, h'.apart, fun m hm n hn => ?_⟩
    exact (h.bounds m hm).2.2.trans (h'.bounds n hn).1

end MethodsFit

namespace Scope

variable {start middle limit : Nat} {s s' : Scope}

@[simp] theorem methods_append (s s' : Scope) : (s ++ s').methods = s.methods ++ s'.methods := rfl

@[simp] theorem types_append (s s' : Scope) : (s ++ s').types = s.types ++ s'.types := rfl

@[simp] theorem diagnostics_append (s s' : Scope) :
    (s ++ s').diagnostics = s.diagnostics ++ s'.diagnostics := rfl

namespace Fits

theorem mono {start' limit' : Nat} (h : s.Fits start limit) (hstart : start' ≤ start)
    (hlimit : limit ≤ limit') : s.Fits start' limit' := by
  refine ⟨h.methods.mono hstart hlimit, fun t ht => ?_, h.types_methods, h.precedes,
    h.methods_apart⟩
  have := h.types_bounds t ht
  omega

theorem of_types_eq_nil (hmethods : MethodsFit start limit s.methods) (htypes : s.types = []) :
    s.Fits start limit := by
  refine ⟨hmethods, ?_, ?_, ?_, ?_⟩ <;> simp [htypes]

theorem append (h : s.Fits start middle) (h' : s'.Fits middle limit) (hstart : start ≤ middle)
    (hlimit : middle ≤ limit) : (s ++ s').Fits start limit := by
  constructor
  case methods => exact h.methods.append h'.methods hstart hlimit
  case types_bounds =>
    exact List.forall_mem_append.mpr
      ⟨(h.mono le_rfl hlimit).types_bounds, (h'.mono hstart le_rfl).types_bounds⟩
  case types_methods => exact List.forall_mem_append.mpr ⟨h.types_methods, h'.types_methods⟩
  case precedes =>
    refine List.pairwise_append.mpr ⟨h.precedes, h'.precedes, fun t ht u hu => ?_⟩
    exact .inl ((h.types_bounds t ht).2.2.trans (h'.types_bounds u hu).1)
  case methods_apart =>
    -- what the two scopes hold lies on different sides of the position between them
    refine List.forall_mem_append.mpr ⟨fun m hm => ?_, fun m hm => ?_⟩
    · refine List.forall_mem_append.mpr ⟨h.methods_apart m hm, fun t ht => ?_⟩
      exact .inl ((h.methods.bounds m hm).2.2.trans (h'.types_bounds t ht).1)
    · refine List.forall_mem_append.mpr ⟨fun t ht => ?_, h'.methods_apart m hm⟩
      exact .inr ((h.types_bounds t ht).2.2.trans (h'.methods.bounds m hm).1)

end Fits

end Scope

def OpenType.withMembers (t : OpenType) (inner : Scope) : ParsedType :=
  { t.parsed with fields := t.parsed.fields ++ inner.fields, methods := inner.methods }

/-- The scope of a type goes into the scope around it, with the type in front. -/
theorem Scope.Fits.close {t : OpenType} {topLevel : Bool} {c behind : Cursor} {inner : Scope}
    (ht : t.Fits topLevel c behind) (h : inner.Fits t.body.offset t.body.limit) (w : Walk) :
    (t.close w inner).Fits c.offset behind.offset := by
  have hstart := ht.start_lt_body
  have hstop := ht.body_le_stop
  have hle : t.body.offset ≤ t.body.limit := Nat.le_add_right _ _
  constructor
  case methods => exact .nil
  case types_bounds =>
    have hlt : t.parsed.span.start < t.parsed.span.stop := by omega
    refine List.forall_mem_cons.mpr ⟨⟨ht.le_start, hlt, ht.stop_eq.le⟩, fun u hu => ?_⟩
    have hu := h.types_bounds u hu
    have := ht.le_start
    have := ht.stop_eq
    omega
  case types_methods =>
    exact List.forall_mem_cons.mpr ⟨h.methods.mono hstart.le hstop, h.types_methods⟩
  case precedes =>
    refine List.pairwise_cons.mpr ⟨fun u hu => .inr ?_, h.precedes⟩
    have hbounds := h.types_bounds u hu
    exact ⟨hstart.trans_le hbounds.1, hbounds.2.2.trans hstop,
      fun m hm => h.methods_apart m hm u hu⟩
  case methods_apart => exact fun m hm => absurd hm List.not_mem_nil

/-- What is read from a cursor on lies between the cursor and the end of its text. -/
theorem fits_readScope (w : Walk) (owner : Option Owner) (depth : Nat) (c : Cursor) :
    (readScope w owner depth c).Fits c.offset c.limit := by
  fun_induction readScope w owner depth c with
  | case1 owner depth c hitem => exact .of_types_eq_nil .nil rfl
  | case2 owner depth c behind hitem ih =>
    have hlead : c.Leads behind := by
      have hfits := fits_nextItem w owner c
      rwa [hitem] at hfits
    exact ih.mono hlead.offset_le hlead.limit_eq.le
  | case3 owner depth c s behind hitem ih =>
    have hfits := fits_nextItem w owner c
    have hadvances := advances_nextItem w owner c
    rw [hitem] at hfits hadvances
    obtain ⟨hlead, htypes, hmethods⟩ := hfits
    have hmethods : MethodsFit c.offset behind.offset s.methods := by
      -- a member is one method or declares fields only
      rcases hmethods with hnil | ⟨m, hone, hspan⟩
      · rw [hnil]
        exact .nil
      · rw [hone]
        refine ⟨List.forall_mem_singleton.mpr ?_, List.pairwise_singleton _ m⟩
        rw [hspan]
        exact ⟨le_rfl, hlead.offset_lt hadvances, le_rfl⟩
    exact (Scope.Fits.of_types_eq_nil hmethods htypes).append (hlead.limit_eq ▸ ih)
      hlead.offset_le hlead.offset_le_limit
  | case4 owner depth c t behind hitem inner ih ih' =>
    have hfits := fits_nextItem w owner c
    rw [hitem] at hfits
    obtain ⟨hlead, ht⟩ := hfits
    have hmembers := t.leads_members
    have hinner : inner.Fits t.body.offset t.body.limit := by
      unfold inner
      split
      · exact .of_types_eq_nil .nil rfl
      · exact ih.mono hmembers.offset_le hmembers.limit_eq.le
    exact (Scope.Fits.close ht hinner w).append (hlead.limit_eq ▸ ih') hlead.offset_le
      hlead.offset_le_limit

/-! ## Types of the file itself -/

/-- The types that lie in no other type are those that are marked. -/
def Scope.MarksTopLevel (s : Scope) : Prop :=
  ∀ t ∈ s.types, t.topLevel = true ↔ ∀ u ∈ s.types, u ≠ t → ¬ u.span.Encloses t.span

namespace Scope.MarksTopLevel

theorem append {start middle limit : Nat} {s s' : Scope} (h : s.MarksTopLevel)
    (h' : s'.MarksTopLevel) (hs : s.Fits start middle) (hs' : s'.Fits middle limit) :
    (s ++ s').MarksTopLevel := by
  -- no type of one scope lies in one of the other
  have hapart : ∀ t ∈ s.types, ∀ u ∈ s'.types,
      ¬ t.span.Encloses u.span ∧ ¬ u.span.Encloses t.span := by
    intro t ht u hu
    have ht := hs.types_bounds t ht
    have hu := hs'.types_bounds u hu
    unfold Span.Encloses
    omega
  intro t ht
  rw [types_append, List.mem_append] at ht
  simp only [types_append, List.forall_mem_append]
  rcases ht with ht | ht
  · rw [h t ht]
    exact ⟨fun hown => ⟨hown, fun u hu _ => (hapart t ht u hu).2⟩, fun hall => hall.1⟩
  · rw [h' t ht]
    exact ⟨fun hown => ⟨fun u hu _ => (hapart u hu t ht).1, hown⟩, fun hall => hall.2⟩

theorem close {t : OpenType} {c behind : Cursor} {inner : Scope} (ht : t.Fits true c behind)
    (h : inner.Fits t.body.offset t.body.limit) (hinner : ∀ u ∈ inner.types, u.topLevel = false)
    (w : Walk) : (t.close w inner).MarksTopLevel := by
  have hstart := ht.start_lt_body
  have hstop := ht.body_le_stop
  refine List.forall_mem_cons.mpr ⟨?_, fun u hu => ?_⟩
  · refine ⟨fun _ => List.forall_mem_cons.mpr ⟨fun hne => absurd rfl hne, fun u hu _ henc => ?_⟩,
      fun _ => ht.topLevel_eq⟩
    have hbounds := h.types_bounds u hu
    exact absurd (hbounds.1.trans henc.1) (Nat.not_le.mpr hstart)
  · have hbounds := h.types_bounds u hu
    rw [hinner u hu]
    refine ⟨fun hfalse => absurd hfalse Bool.false_ne_true, fun hall => ?_⟩
    -- the type itself has `u` inside
    have henc : (t.withMembers inner).span.Encloses u.span :=
      ⟨(hstart.trans_le hbounds.1).le, hbounds.2.2.trans hstop⟩
    refine absurd henc (hall (t.withMembers inner) List.mem_cons_self ?_)
    rintro rfl
    exact absurd hbounds.1 (Nat.not_le.mpr hstart)

end Scope.MarksTopLevel

theorem topLevel_readScope (w : Walk) (owner : Option Owner) (depth : Nat) (c : Cursor)
    (howner : owner.isNone = false) :
    ∀ t ∈ (readScope w owner depth c).types, t.topLevel = false := by
  fun_induction readScope w owner depth c with
  | case1 => exact fun t ht => absurd ht List.not_mem_nil
  | case2 owner depth c behind hitem ih => exact ih howner
  | case3 owner depth c s behind hitem ih =>
    have hfits := fits_nextItem w owner c
    rw [hitem] at hfits
    rw [Scope.types_append, hfits.2.1, List.nil_append]
    exact ih howner
  | case4 owner depth c t behind hitem inner ih ih' =>
    have hfits := fits_nextItem w owner c
    rw [hitem, howner] at hfits
    have hinner : ∀ u ∈ inner.types, u.topLevel = false := by
      unfold inner
      split
      · exact fun t ht => absurd ht List.not_mem_nil
      · exact ih rfl
    rw [Scope.types_append]
    refine List.forall_mem_append.mpr ⟨?_, ih' howner⟩
    exact List.forall_mem_cons.mpr ⟨hfits.2.topLevel_eq, hinner⟩

theorem marksTopLevel_readScope (w : Walk) (owner : Option Owner) (depth : Nat) (c : Cursor)
    (howner : owner = none) : (readScope w owner depth c).MarksTopLevel := by
  fun_induction readScope w owner depth c with
  | case1 => exact fun t ht => absurd ht List.not_mem_nil
  | case2 owner depth c behind hitem ih => exact ih howner
  | case3 owner depth c s behind hitem ih =>
    have hfits := fits_nextItem w owner c
    rw [hitem] at hfits
    unfold Scope.MarksTopLevel
    rw [Scope.types_append, hfits.2.1, List.nil_append]
    exact ih howner
  | case4 owner depth c t behind hitem inner _ ih =>
    have hfits := fits_nextItem w owner c
    rw [hitem, howner] at hfits
    obtain ⟨hlead, ht⟩ := hfits
    have hmembers := t.leads_members
    have hinner : inner.Fits t.body.offset t.body.limit ∧
        ∀ u ∈ inner.types, u.topLevel = false := by
      unfold inner
      split
      · exact ⟨.of_types_eq_nil .nil rfl, fun t ht => absurd ht List.not_mem_nil⟩
      · exact ⟨(fits_readScope ..).mono hmembers.offset_le hmembers.limit_eq.le,
          topLevel_readScope _ _ _ _ rfl⟩
    exact (Scope.MarksTopLevel.close ht hinner.1 hinner.2 w).append (ih howner)
      (Scope.Fits.close ht hinner.1 w) (fits_readScope ..)

/-! ## Files -/

theorem precedes_or_precedes {start limit : Nat} {s : Scope} (h : s.Fits start limit) :
    ∀ t ∈ s.types, ∀ u ∈ s.types, t = u ∨ t.Precedes u ∨ u.Precedes t := by
  have hsymm : Std.Symm fun t u : ParsedType => t = u ∨ t.Precedes u ∨ u.Precedes t :=
    ⟨fun _ _ htu => htu.imp Eq.symm Or.symm⟩
  apply List.Pairwise.forall_of_forall
  · exact fun t _ => .inl rfl
  · exact h.precedes.imp fun htu => .inr (.inl htu)

theorem Scope.Fits.isLaminar {start limit : Nat} {s : Scope} (h : s.Fits start limit)
    (hmarks : s.MarksTopLevel) : IsLaminar limit s.types := by
  have hcases := precedes_or_precedes h
  constructor
  case starts_lt =>
    refine h.precedes.imp_of_mem fun {t u} ht _ htu => ?_
    have := h.types_bounds t ht
    rcases htu with happart | ⟨hlt, _⟩
    · omega
    · exact hlt
  case bounds => exact fun t ht => (h.types_bounds t ht).2
  case nested_or_apart =>
    intro t ht u hu
    have henc : t.span.Encloses t.span := ⟨le_rfl, le_rfl⟩
    rcases hcases t ht u hu with rfl | (happart | ⟨hlt, hle, _⟩) | (happart | ⟨hlt, hle, _⟩)
    · exact .inr (.inl henc)
    · exact .inl (.inl happart)
    · exact .inr (.inl ⟨hlt.le, hle⟩)
    · exact .inl (.inr happart)
    · exact .inr (.inr ⟨hlt.le, hle⟩)
  case topLevel_iff => exact hmarks
  case methods_length => exact fun t _ => List.length_map _
  case methods_inside =>
    intro t ht m hm
    have hbounds := (h.types_methods t ht).bounds m hm
    exact ⟨hbounds.2.1, hbounds.1, hbounds.2.2⟩
  case methods_apart => exact fun t ht => (h.types_methods t ht).apart
  case methods_apart_nested =>
    intro t ht u hu hne henc m hm
    have hbounds := h.types_bounds u hu
    rcases hcases t ht u hu with heq | (happart | hnested) | hprecedes
    · exact absurd heq.symm hne
    · -- a type that starts behind another one does not lie in it
      have hstop := henc.2
      omega
    · exact hnested.2.2 m hm
    · have hstart := henc.1
      rcases hprecedes with happart | ⟨hlt, _⟩ <;> omega

/-- The types of a file are laminar, with their methods, however deep types are read. Each step of
the walk that finds them, in the file or in a type, ends strictly behind where it began and not past
the end of its text, and the members of a type that it finds are read inside its span. -/
theorem isLaminar_readTypes (text : List Char) (path : String) (maxDepth : Nat) :
    IsLaminar (width text) (readTypes (.of .java text) path maxDepth).1 ∧
      (∀ (w : Walk) (owner : Option Owner) (c : Cursor), ∀ d ∈ (nextItem w owner c).behind?,
        c.offset < d.offset ∧ d.offset ≤ c.limit) ∧
      ∀ (w : Walk) (owner : Option Owner) (c : Cursor) (t : OpenType) (d : Cursor),
        nextItem w owner c = .type t d →
          c.offset ≤ t.parsed.span.start ∧ t.parsed.span.start < t.members.offset ∧
            t.members.limit ≤ t.parsed.span.stop ∧ t.parsed.span.stop = d.offset := by
  refine ⟨?_, fun w owner c d hd => offset_lt_of_behind? hd, fun w owner c t d hitem => ?_⟩
  · have hmasks : Masks (Masked.of .java text).code text := masks_segments .java text
    have hfits := fits_readScope ⟨.of .java text, path, max 1 maxDepth⟩ none 0
      (.ofText (Masked.of .java text).code)
    have hlimit : (Cursor.ofText (Masked.of .java text).code).limit = width text :=
      (Nat.zero_add _).trans hmasks.width_eq
    rw [hlimit] at hfits
    exact hfits.isLaminar (marksTopLevel_readScope _ _ _ _ rfl)
  · have hfits := fits_nextItem w owner c
    rw [hitem] at hfits
    have ht := hfits.2
    have hmembers := t.leads_members
    exact ⟨ht.le_start, ht.start_lt_body.trans_le hmembers.offset_le,
      hmembers.limit_eq.le.trans ht.body_le_stop, ht.stop_eq⟩

end Java

end MigrationAudit
