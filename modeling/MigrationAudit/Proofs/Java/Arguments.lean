import MigrationAudit.Proofs.Java.Laminar

/-!
# Arguments of annotations

The annotations of a method stand in front of it, so what their arguments cover is part of the
method. The methods of a file are apart from each other, whichever types they belong to, and so no
two methods have a position of their arguments in common.
-/

namespace MigrationAudit

open Text

theorem Text.Cursor.Leads.offset_le_of_length_le {start c d : Cursor} (hc : start.Leads c)
    (hd : start.Leads d) (h : d.after.length ≤ c.after.length) : c.offset ≤ d.offset := by
  have hlimit : c.offset + width c.after = d.offset + width d.after :=
    hc.limit_eq.trans hd.limit_eq.symm
  obtain ⟨moved, hmoved, -⟩ := hc
  obtain ⟨moved', hmoved', -⟩ := hd
  have hsuffix : d.after <:+ c.after :=
    List.suffix_of_suffix_length_le ⟨moved', hmoved'.symm⟩ ⟨moved, hmoved.symm⟩ h
  obtain ⟨between, hbetween⟩ := hsuffix
  rw [← hbetween, width_append] at hlimit
  omega

theorem Text.Span.Encloses.contains {a b : Span} {n : Nat} (h : a.Encloses b)
    (hn : b.contains n = true) : a.contains n = true := by
  simp only [Span.contains, decide_eq_true_eq, Span.Encloses] at *
  omega

theorem Text.Span.Apart.not_contains {a b : Span} {n : Nat} (h : a.Apart b)
    (hn : a.contains n = true) : b.contains n = false := by
  simp only [Span.contains, decide_eq_true_eq, decide_eq_false_iff_not, Span.Apart] at *
  omega

namespace Java

open Source

/-! ## Prefixes -/

theorem args_of_readAnnotation? {c d : Cursor} {a : Annotation}
    (h : readAnnotation? searchClosing c = some (a, d)) :
    ∀ args ∈ a.args, c.offset ≤ args.start ∧ args.stop ≤ d.offset := by
  have hname : c.Leads (pastDotted c.next.skipBlank).skipBlank :=
    (leads_annotationName c).trans (Cursor.leads_skipWhile ..)
  unfold readAnnotation? at h
  simp only at h
  split at h
  · simp at h
  · split at h
    · split at h
      · next close hclose =>
        obtain ⟨rfl, rfl⟩ := Prod.mk.inj (Option.some.inj h)
        rintro args ⟨⟩
        exact ⟨(hname.trans (Cursor.leads_next _)).offset_le, (Cursor.leads_next close).offset_le⟩
      · obtain ⟨rfl, -⟩ := Prod.mk.inj (Option.some.inj h)
        simp
    · obtain ⟨rfl, -⟩ := Prod.mk.inj (Option.some.inj h)
      simp

theorem args_of_readPrefixWith (fuel : Nat) (c : Cursor) :
    ∀ a ∈ (readPrefixWith searchClosing fuel c).1.annotations, ∀ args ∈ a.args,
      c.offset ≤ args.start ∧ args.stop ≤ (readPrefixWith searchClosing fuel c).2.offset := by
  induction fuel generalizing c with
  | zero => simp [readPrefixWith]
  | succ fuel ih =>
    have hblank : c.Leads c.skipBlank := Cursor.leads_skipWhile ..
    unfold readPrefixWith
    simp only
    split
    · split
      · next a behind hread =>
        have hbehind := hblank.trans (leads_readAnnotation? leads_searchClosing hread)
        have hrest := leads_readPrefixWith leads_searchClosing fuel behind
        refine List.forall_mem_cons.mpr ⟨fun args hargs => ?_, fun b hb args hargs => ?_⟩
        · have hown := args_of_readAnnotation? hread args hargs
          exact ⟨hblank.offset_le.trans hown.1, hown.2.trans hrest.offset_le⟩
        · have hlater := ih behind b hb args hargs
          exact ⟨hbehind.offset_le.trans hlater.1, hlater.2⟩
      · simp
    · split
      · have hword := hblank.trans (Cursor.leads_skipWhile isIdent c.skipBlank)
        intro a ha args hargs
        have hlater := ih _ a ha args hargs
        exact ⟨hword.offset_le.trans hlater.1, hlater.2⟩
      · simp

/-! ## Methods -/

def ParsedMethod.HoldsArguments (m : ParsedMethod) : Prop :=
  ∀ a ∈ m.annotations, ∀ args ∈ a.args, m.span.Encloses args

theorem annotations_of_readMethod {w : Walk} {owner : Owner} {p : Prefix}
    {start c paren behind : Cursor} {s : Scope}
    (h : readMethod w owner p start c paren = .members s behind) :
    ∀ m ∈ s.methods, m.annotations = p.annotations := by
  unfold readMethod at h
  split at h
  · cases h
  · simp only at h
    split at h
    · cases h
      simp
    · split at h <;> cases h <;> simp

theorem annotations_of_readMember {w : Walk} {owner : Owner} {p : Prefix}
    {start c behind : Cursor} {s : Scope}
    (h : readMember w owner p start c = .members s behind) :
    ∀ m ∈ s.methods, m.annotations = p.annotations := by
  unfold readMember at h
  simp only at h
  split at h
  · cases h
  · exact annotations_of_readMethod h
  · cases h
  · cases h
    simp

theorem nextItem_eq_members {w : Walk} {owner : Option Owner} {start behind : Cursor} {s : Scope}
    (h : nextItem w owner start = .members s behind) :
    ∃ o, (readPrefix start).2.after ≠ [] ∧
      readMember w o (readPrefix start).1 start (readPrefix start).2 = .members s behind := by
  have hreadType : ∀ p kind top c d, readType w p kind top c d ≠ .members s behind := by
    intro p kind top c d
    unfold readType
    split
    · simp
    · simp only
      split <;> simp
  unfold nextItem at h
  simp only at h
  split at h
  · cases h
  · cases h
  · cases h
  · split at h
    · exact (hreadType _ _ _ _ _ h).elim
    · cases h
  · next hne _ _ _ =>
    split at h
    · exact (hreadType _ _ _ _ _ h).elim
    · split at h
      · exact ⟨_, hne, h⟩
      · cases h

theorem holdsArguments_of_nextItem {w : Walk} {owner : Option Owner} {start behind : Cursor}
    {s : Scope} (h : nextItem w owner start = .members s behind) :
    ∀ m ∈ s.methods, m.HoldsArguments := by
  obtain ⟨o, hne, hread⟩ := nextItem_eq_members h
  have hfits := fits_nextItem w owner start
  rw [h] at hfits
  obtain ⟨hbehind, -, hspan⟩ := hfits
  have hadvances :
      (readMember w o (readPrefix start).1 start (readPrefix start).2).Advances (readPrefix start).2 :=
    advances_readMember (.refl _) hne
  rw [hread] at hadvances
  have hle : (readPrefix start).2.offset ≤ behind.offset :=
    (leads_readPrefix start).offset_le_of_length_le hbehind (Nat.le_of_lt hadvances)
  intro m hm a ha args hargs
  rw [annotations_of_readMember hread m hm] at ha
  have hread := args_of_readPrefixWith _ start a ha args hargs
  rcases hspan with hnil | ⟨n, hone, hn⟩
  · simp [hnil] at hm
  · rw [hone, List.mem_singleton] at hm
    rw [hm, hn]
    exact ⟨hread.1, hread.2.trans hle⟩

theorem holdsArguments_readScope (w : Walk) (owner : Option Owner) (depth : Nat) (c : Cursor) :
    (∀ m ∈ (readScope w owner depth c).methods, m.HoldsArguments) ∧
      ∀ t ∈ (readScope w owner depth c).types, ∀ m ∈ t.methods, m.HoldsArguments := by
  fun_induction readScope w owner depth c with
  | case1 => exact ⟨by simp, by simp⟩
  | case2 owner depth c behind hitem ih => exact ih
  | case3 owner depth c s behind hitem ih =>
    have hfits := fits_nextItem w owner c
    rw [hitem] at hfits
    rw [Scope.methods_append, Scope.types_append, hfits.2.1, List.nil_append]
    exact ⟨List.forall_mem_append.mpr ⟨holdsArguments_of_nextItem hitem, ih.1⟩, ih.2⟩
  | case4 owner depth c t behind hitem inner ih ih' =>
    have hinner : (∀ m ∈ inner.methods, m.HoldsArguments) ∧
        ∀ u ∈ inner.types, ∀ m ∈ u.methods, m.HoldsArguments := by
      unfold inner
      split
      · exact ⟨by simp, by simp⟩
      · exact ih
    rw [Scope.methods_append, Scope.types_append]
    refine ⟨ih'.1, List.forall_mem_append.mpr ⟨?_, ih'.2⟩⟩
    exact List.forall_mem_cons.mpr hinner

/-- No two methods of a scope overlap, whichever of its types they belong to. -/
theorem Scope.Fits.methods_of_types_apart {start limit : Nat} {s : Scope}
    (h : s.Fits start limit) :
    (s.types.flatMap (·.methods)).Pairwise fun m n => m.span.Apart n.span := by
  rw [List.pairwise_flatMap]
  refine ⟨fun t ht => (h.types_methods t ht).apart.imp .inl, ?_⟩
  refine h.precedes.imp_of_mem fun {t u} ht hu htu m hm n hn => ?_
  have hmt := (h.types_methods t ht).bounds m hm
  have hnu := (h.types_methods u hu).bounds n hn
  rcases htu with happart | ⟨-, -, hnested⟩
  · exact .inl (hmt.2.2.trans (happart.trans hnu.1))
  · exact (hnested m hm).imp (fun hle => hle.trans hnu.1) (fun hle => hnu.2.2.trans hle)

end Java

end MigrationAudit
