import MigrationAudit.Proofs.Java.Laminar

/-!
# What holds of everything that is declared

A walk over declarations stays in the text, also inside the bodies of types. So what each step
guarantees of what it finds, from any cursor that stands in the text, holds of everything that a
scope declares, at every depth.
-/

namespace MigrationAudit

namespace Java

open Text Source

variable {c : Cursor} {cs : List Char}

theorem standsIn_inside (h : c.StandsIn cs) (opening close : Char) :
    (delimited opening close c).inside.StandsIn cs := by
  have hnext := h.of_leads (Cursor.leads_next c)
  unfold delimited
  split
  · next inside rest hsplit =>
    refine ⟨hnext.offset_eq, List.IsPrefix.trans ?_ hnext.text_prefix⟩
    have hafter : c.after = inside ++ close :: rest := (append_of_splitAtClose? hsplit).symm
    refine (List.prefix_append_right_inj c.next.before.reverse).mpr ?_
    cases inside with
    | nil => exact List.nil_prefix
    | cons a inside => simp [Cursor.next, hafter]
  · exact hnext

/-! ## Steps -/

/-- A property for each kind of thing that is declared. -/
structure Traits where
  field : Field → Prop := fun _ => True
  method : ParsedMethod → Prop := fun _ => True
  type : ParsedType → Prop := fun _ => True
  diagnostic : Diagnostic → Prop := fun _ => True

/-- Everything in a scope has its property. -/
structure Scope.Has (P : Traits) (s : Scope) : Prop where
  fields : ∀ f ∈ s.fields, P.field f
  methods : ∀ m ∈ s.methods, P.method m
  types : ∀ t ∈ s.types, P.type t ∧ (∀ f ∈ t.fields, P.field f) ∧ ∀ m ∈ t.methods, P.method m
  diagnostics : ∀ d ∈ s.diagnostics, P.diagnostic d

/-- A type whose members are still to be read has its property whatever they are. -/
structure OpenType.Has (P : Traits) (w : Walk) (t : OpenType) : Prop where
  type : ∀ fields methods, P.type { t.parsed with fields, methods }
  fields : ∀ f ∈ t.parsed.fields, P.field f
  unclosed : ∀ d ∈ t.unclosed w, P.diagnostic d
  tooDeep : P.diagnostic (t.tooDeep w)

def Item.Has (P : Traits) (w : Walk) : Item → Prop
  | .nothing | .skipped _ => True
  | .members s _ => s.Has P
  | .type t _ => t.Has P w

variable {P : Traits} {w : Walk}

namespace Scope.Has

theorem empty : Scope.Has P {} :=
  ⟨by simp, by simp, by simp, by simp⟩

theorem append {s s' : Scope} (h : s.Has P) (h' : s'.Has P) : (s ++ s').Has P where
  fields := List.forall_mem_append.mpr ⟨h.fields, h'.fields⟩
  methods := List.forall_mem_append.mpr ⟨h.methods, h'.methods⟩
  types := List.forall_mem_append.mpr ⟨h.types, h'.types⟩
  diagnostics := List.forall_mem_append.mpr ⟨h.diagnostics, h'.diagnostics⟩

theorem close {t : OpenType} {inner : Scope} (ht : t.Has P w) (h : inner.Has P) :
    (t.close w inner).Has P where
  fields := by simp [OpenType.close]
  methods := by simp [OpenType.close]
  types := List.forall_mem_cons.mpr
    ⟨⟨ht.type _ _, List.forall_mem_append.mpr ⟨ht.fields, h.fields⟩, h.methods⟩, h.types⟩
  diagnostics := List.forall_mem_append.mpr ⟨ht.unclosed, h.diagnostics⟩

end Scope.Has

/-- The body of a type that is found stands in the text. -/
def Item.BodyStandsIn (cs : List Char) : Item → Prop
  | .type t _ => t.body.StandsIn cs
  | _ => True

theorem bodyStandsIn_readType {p : Prefix} {kind : TypeKind} {topLevel : Bool} {behind : Cursor}
    (h : behind.StandsIn cs) : (readType w p kind topLevel c behind).BodyStandsIn cs := by
  unfold readType
  split
  · trivial
  · next name hname =>
    obtain ⟨hfirst, hword⟩ := Cursor.leads_adjacentWord? hname
    have hbrace := h.of_leads ((hfirst.trans hword).trans
      (leads_seekTop (fun a => a == '\x7b' || a == ';') name.behind))
    simp only
    split
    · trivial
    · trivial
    · exact standsIn_inside hbrace ..

theorem readMember_ne_type {owner : Owner} {p : Prefix} {start d : Cursor} {t : OpenType} :
    readMember w owner p start c ≠ .type t d := by
  unfold readMember
  simp only
  split
  · simp
  · unfold readMethod
    split
    · simp
    · simp only
      split
      · simp
      · split <;> simp
  · simp
  · simp [readFields]

/-- A type that is found is read behind the prefix, from its keyword on. -/
theorem nextItem_eq_type {owner : Option Owner} {start behind : Cursor} {t : OpenType}
    (h : nextItem w owner start = .type t behind) :
    ∃ kind topLevel keyword d, start.Leads keyword ∧ keyword.Leads d ∧
      readType w (readPrefix start).1 kind topLevel keyword d = .type t behind := by
  have hs := leads_readPrefix start
  unfold nextItem at h
  simp only at h
  split at h
  · cases h
  · cases h
  · cases h
  · split at h
    · exact ⟨_, _, _, _, (hs.trans (Cursor.leads_next _)).trans (Cursor.leads_skipWhile ..),
        Cursor.leads_seek .., h⟩
    · cases h
  · split at h
    · exact ⟨_, _, _, _, hs, Cursor.leads_skipWhile .., h⟩
    · split at h
      · exact absurd h readMember_ne_type
      · cases h

theorem bodyStandsIn_nextItem (owner : Option Owner) (h : c.StandsIn cs) :
    (nextItem w owner c).BodyStandsIn cs := by
  cases hitem : nextItem w owner c with
  | type t behind =>
    obtain ⟨kind, topLevel, keyword, d, hkeyword, hd, hread⟩ := nextItem_eq_type hitem
    rw [← hread]
    exact bodyStandsIn_readType (h.of_leads (hkeyword.trans hd))
  | _ => trivial

/-! ## Runs -/

/-- What each step from a cursor in the text guarantees holds of all that is declared. -/
theorem has_readScope
    (hstep : ∀ (owner : Option Owner) (c : Cursor), c.StandsIn cs → (nextItem w owner c).Has P w)
    (owner : Option Owner) (depth : Nat) (hc : c.StandsIn cs) :
    (readScope w owner depth c).Has P := by
  fun_induction readScope w owner depth c with
  | case1 owner depth c => exact .empty
  | case2 owner depth c behind hitem ih =>
    have hfits := fits_nextItem w owner c
    rw [hitem] at hfits
    exact ih (hc.of_leads hfits)
  | case3 owner depth c s behind hitem ih =>
    have hfits := fits_nextItem w owner c
    have hfound := hstep owner c hc
    rw [hitem] at hfits hfound
    exact hfound.append (ih (hc.of_leads hfits.1))
  | case4 owner depth c t behind hitem inner ih ih' =>
    have hfits := fits_nextItem w owner c
    have hfound := hstep owner c hc
    have hbody := bodyStandsIn_nextItem (w := w) owner hc
    rw [hitem] at hfits hfound hbody
    have hinner : inner.Has P := by
      unfold inner
      split
      · exact { Scope.Has.empty with diagnostics := List.forall_mem_singleton.mpr hfound.tooDeep }
      · exact ih (hbody.of_leads t.leads_members)
    exact (Scope.Has.close hfound hinner).append (ih' (hc.of_leads hfits.1))

end Java

end MigrationAudit
