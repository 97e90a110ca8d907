import MigrationAudit.Java.Declaration
import MigrationAudit.Proofs.Text.Slices

/-!
# Steps of a walk over declarations

Whatever stands next in a scope, the walk goes on strictly behind where it was and stays in the text
of the scope. A method covers what the step moves over, and a type ends where the step ends, with
its body strictly inside.
-/

namespace MigrationAudit

namespace Text.Cursor

def limit (c : Cursor) : Nat := c.offset + width c.after

variable {c d : Cursor}

theorem Leads.limit_eq (h : c.Leads d) : d.limit = c.limit := offset_add_width_after h

theorem Leads.offset_le_limit (h : c.Leads d) : d.offset ≤ c.limit :=
  h.limit_eq ▸ Nat.le_add_right _ _

theorem Leads.offset_lt (h : c.Leads d) (hlt : d.after.length < c.after.length) :
    c.offset < d.offset := by
  obtain ⟨moved, hafter, hd⟩ := h
  have hmoved : moved ≠ [] := by
    rintro rfl
    rw [hafter] at hlt
    exact absurd hlt (Nat.lt_irrefl _)
  rw [hd, offset_advance]
  exact Nat.lt_add_of_pos_right (width_pos hmoved)

end Text.Cursor

namespace Java

open Text Source

theorem delimited_inside (opening close : Char) {c : Cursor} (h : c.after ≠ []) :
    c.offset < (delimited opening close c).inside.offset ∧
      (delimited opening close c).inside.limit ≤ (delimited opening close c).behind.offset := by
  have hnext : c.offset < c.next.offset :=
    (Cursor.leads_next c).offset_lt (Cursor.length_next_lt h)
  unfold delimited
  split
  · next inside rest hsplit =>
    refine ⟨hnext, ?_⟩
    have hafter : c.after = inside ++ close :: rest := (append_of_splitAtClose? hsplit).symm
    cases inside with
    | nil => simp [Cursor.limit, Cursor.next, hafter, width]
    | cons a inside => simp [Cursor.limit, Cursor.next, hafter, width, Nat.add_assoc]
  · exact ⟨hnext, Nat.le_of_eq (Cursor.leads_next c).limit_eq⟩

/-- A type that a step from `c` to `behind` finds. -/
structure OpenType.Fits (t : OpenType) (topLevel : Bool) (c behind : Cursor) : Prop where
  le_start : c.offset ≤ t.parsed.span.start
  start_lt_body : t.parsed.span.start < t.body.offset
  body_le_stop : t.body.limit ≤ t.parsed.span.stop
  stop_eq : t.parsed.span.stop = behind.offset
  topLevel_eq : t.parsed.topLevel = topLevel

/-- What a step from `c` finds fits between the cursors. -/
def Item.Fits (topLevel : Bool) (c : Cursor) : Item → Prop
  | .nothing => True
  | .skipped behind => c.Leads behind
  | .members s behind => c.Leads behind ∧ s.types = [] ∧
      (s.methods = [] ∨ ∃ m, s.methods = [m] ∧ m.span = ⟨c.offset, behind.offset⟩)
  | .type t behind => c.Leads behind ∧ t.Fits topLevel c behind

/-- The cursor at which the walk goes on behind an item. -/
def Item.behind? : Item → Option Cursor
  | .nothing => none
  | .skipped behind | .members _ behind | .type _ behind => some behind

variable {w : Walk} {topLevel : Bool} {start c : Cursor}

theorem fits_readType {p : Prefix} {kind : TypeKind} {behind : Cursor} (hs : start.Leads c)
    (h : c.Leads behind) : (readType w p kind topLevel c behind).Fits topLevel start := by
  unfold readType
  split
  · exact hs.trans (Cursor.leads_toEnd c)
  · next name hname =>
    obtain ⟨hfirst, hword⟩ := Cursor.leads_adjacentWord? hname
    have hbrace := ((h.trans hfirst).trans hword).trans
      (leads_seekTop (fun a => a == '\x7b' || a == ';') name.behind)
    simp only
    split
    · exact hs.trans (Cursor.leads_toEnd c)
    · exact (hs.trans hbrace).trans (Cursor.leads_next _)
    · next hne _ =>
      obtain ⟨hinside, hbody⟩ := delimited_inside '\x7b' '\x7d' hne
      refine ⟨(hs.trans hbrace).trans (leads_delimited ..), ?_⟩
      constructor
      case le_start => exact hs.offset_le
      case start_lt_body => exact Nat.lt_of_le_of_lt hbrace.offset_le hinside
      case body_le_stop => exact hbody
      case stop_eq => rfl
      case topLevel_eq => rfl

theorem fits_readMethod {owner : Owner} {p : Prefix} {paren : Cursor} (hs : start.Leads c)
    (hparen : c.Leads paren) : (readMethod w owner p start c paren).Fits topLevel start := by
  have hmark := leads_seekTop (fun a => a == '\x7b' || a == ';') (delimited '(' ')' paren).behind
  have hclose := (hs.trans hparen).trans (leads_delimited '(' ')' paren)
  unfold readMethod
  split
  · exact (hs.trans hparen).trans (leads_pastTop ..)
  · simp only
    split
    · exact ⟨hs.trans (Cursor.leads_toEnd c), rfl, .inl rfl⟩
    · split
      · exact ⟨(hclose.trans hmark).trans (leads_delimited ..), rfl, .inr ⟨_, rfl, rfl⟩⟩
      · exact ⟨(hclose.trans hmark).trans (Cursor.leads_next _), rfl, .inr ⟨_, rfl, rfl⟩⟩

theorem fits_readMember {owner : Owner} {p : Prefix} (hs : start.Leads c) :
    (readMember w owner p start c).Fits topLevel start := by
  have hmark := leads_memberMark c
  unfold readMember
  simp only
  split
  · exact hs.trans (Cursor.leads_toEnd c)
  · exact fits_readMethod hs hmark
  · exact (hs.trans hmark).trans (leads_delimited ..)
  · exact ⟨(hs.trans hmark).trans (leads_pastTop (· == ';') _), rfl, .inl rfl⟩

theorem fits_nextItem (w : Walk) (owner : Option Owner) (start : Cursor) :
    (nextItem w owner start).Fits owner.isNone start := by
  have hs := leads_readPrefix start
  unfold nextItem
  simp only
  split
  · trivial
  · exact hs.trans (Cursor.leads_next _)
  · exact hs.trans (leads_delimited ..)
  · split
    · exact fits_readType ((hs.trans (Cursor.leads_next _)).trans (Cursor.leads_skipWhile ..))
        (Cursor.leads_seek ..)
    · exact hs.trans (Cursor.leads_next _)
  · split
    · exact fits_readType hs (Cursor.leads_skipWhile ..)
    · split
      · exact fits_readMember hs
      · exact hs.trans (leads_pastTop ..)

/-- A step of the walk ends strictly behind where it began and never past the end of its text. -/
theorem offset_lt_of_behind? {owner : Option Owner} {d : Cursor}
    (h : d ∈ (nextItem w owner c).behind?) : c.offset < d.offset ∧ d.offset ≤ c.limit := by
  have hadvances := advances_nextItem w owner c
  have hfits := fits_nextItem w owner c
  have hmoved : c.Leads d ∧ d.after.length < c.after.length := by
    cases hitem : nextItem w owner c with
    | nothing => simp [hitem, Item.behind?] at h
    | skipped behind =>
      rw [hitem] at hadvances hfits h
      obtain rfl := Option.some.inj h
      exact ⟨hfits, hadvances⟩
    | members s behind =>
      rw [hitem] at hadvances hfits h
      obtain rfl := Option.some.inj h
      exact ⟨hfits.1, hadvances⟩
    | type t behind =>
      rw [hitem] at hadvances hfits h
      obtain rfl := Option.some.inj h
      exact ⟨hfits.1, hadvances.1⟩
  exact ⟨hmoved.1.offset_lt hmoved.2, hmoved.1.offset_le_limit⟩

end Java

end MigrationAudit
