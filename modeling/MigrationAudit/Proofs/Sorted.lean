import MigrationAudit.Proofs.Lists

/-!
# Sorted lists

Members that compare as equal keep their order when a list is sorted. So a sorted list is made by
its members together with the order of those that tie, and lists that have no ties between them may
be put one behind the other in any order before they are sorted together. Where only equal members
tie, these stand together, so nothing is left there twice when repetitions are left out.
-/

namespace MigrationAudit

theorem sortBy_eq_self {γ : Type} {cmp : γ → γ → Ordering} {l : List γ}
    (h : l.Pairwise fun a b => (cmp a b).isLE) : sortBy cmp l = l :=
  List.mergeSort_of_pairwise h

/-! ## Ties -/

section Ties

variable {β γ : Type} {cmp : γ → γ → Ordering} [Std.TransCmp cmp]

theorem filter_sortBy {p : γ → Bool} (hp : ∀ a b, p a → p b → (cmp a b).isLE) (l : List γ) :
    (sortBy cmp l).filter p = l.filter p := by
  have hsorted : (l.filter p).Pairwise fun a b => (cmp a b).isLE := by
    apply List.pairwise_of_forall_mem_list
    intro a ha b hb
    exact hp a b (List.mem_filter.mp ha).2 (List.mem_filter.mp hb).2
  have hsublist : (l.filter p).Sublist (sortBy cmp l) :=
    List.sublist_mergeSort (fun _ _ _ => Std.TransCmp.isLE_trans) (isLE_or_isLE cmp) hsorted
      List.filter_sublist
  have hfilter := hsublist.filter p
  simp only [List.filter_filter, Bool.and_self] at hfilter
  exact (hfilter.eq_of_length ((sortBy_perm cmp l).filter p).length_eq.symm).symm

/-- Sorted lists are equal when each member has the same ties in both, in the same order. -/
theorem eq_of_pairwise_of_ties {l l' : List γ} (hl : l.Pairwise fun a b => (cmp a b).isLE)
    (hl' : l'.Pairwise fun a b => (cmp a b).isLE)
    (hties : ∀ a, l.filter (fun b => cmp a b == .eq) = l'.filter fun b => cmp a b == .eq) :
    l = l' := by
  have hself (a : γ) : cmp a a = .eq := Std.ReflCmp.compare_self
  induction l generalizing l' with
  | nil =>
    cases l' with
    | nil => rfl
    | cons b l' =>
      have hb := hties b
      simp [hself] at hb
  | cons a l ih =>
    cases l' with
    | nil =>
      have ha := hties a
      simp [hself] at ha
    | cons b l' =>
      have mem_ties {m m' : List γ} {x : γ}
          (h : m.filter (fun y => cmp x y == .eq) = m'.filter fun y => cmp x y == .eq)
          (hx : x ∈ m) : x ∈ m' := by
        have hmem : x ∈ m.filter fun y => cmp x y == .eq := by
          simpa [hself] using hx
        rw [h] at hmem
        exact List.mem_of_mem_filter hmem
      -- each head is a member of the other list, so neither is smaller
      have hab : (cmp a b).isLE := by
        rcases List.mem_cons.mp (mem_ties (hties b).symm List.mem_cons_self) with rfl | hb
        · simp [hself]
        · exact List.rel_of_pairwise_cons hl hb
      have hba : (cmp b a).isLE := by
        rcases List.mem_cons.mp (mem_ties (hties a) List.mem_cons_self) with rfl | ha
        · simp [hself]
        · exact List.rel_of_pairwise_cons hl' ha
      have heq : cmp a b = .eq := Std.OrientedCmp.isLE_antisymm hab hba
      have hhead := hties a
      simp only [List.filter_cons, hself, heq] at hhead
      obtain ⟨rfl, -⟩ := List.cons.inj hhead
      rw [ih (List.pairwise_cons.mp hl).2 (List.pairwise_cons.mp hl').2]
      intro c
      have hc := hties c
      by_cases hca : cmp c a = .eq
      · simpa [hca] using hc
      · simpa [hca] using hc

/-- What ties with a member keeps its order. -/
theorem filter_ties_sortBy (a : γ) (l : List γ) :
    (sortBy cmp l).filter (fun b => cmp a b == .eq) = l.filter fun b => cmp a b == .eq := by
  refine filter_sortBy (fun b c hb hc => ?_) l
  have hab := Std.OrientedCmp.eq_symm (eq_of_beq hb)
  rw [Std.TransCmp.eq_trans hab (eq_of_beq hc)]
  rfl

theorem sortBy_eq_sortBy_iff {l l' : List γ} :
    sortBy cmp l = sortBy cmp l' ↔
      ∀ a, l.filter (fun b => cmp a b == .eq) = l'.filter fun b => cmp a b == .eq := by
  constructor
  · intro h a
    rw [← filter_ties_sortBy, h, filter_ties_sortBy]
  · intro h
    apply eq_of_pairwise_of_ties (pairwise_sortBy cmp l) (pairwise_sortBy cmp l')
    intro a
    rw [filter_ties_sortBy, filter_ties_sortBy, h a]

/-- When the same members are kept of two lists, they are kept in the same order once the lists are
sorted. -/
theorem filter_sortBy_eq_of_filter_eq {p : γ → Bool} {l l' : List γ} (h : l.filter p = l'.filter p) :
    (sortBy cmp l).filter p = (sortBy cmp l').filter p := by
  have hkept (a : γ) (m : List γ) : ((sortBy cmp m).filter p).filter (fun b => cmp a b == .eq) =
      (m.filter p).filter fun b => cmp a b == .eq := by
    rw [List.filter_comm, filter_ties_sortBy, List.filter_comm]
  apply eq_of_pairwise_of_ties ((pairwise_sortBy cmp l).filter _) ((pairwise_sortBy cmp l').filter _)
  intro a
  rw [hkept, hkept, h]

/-! ## Blocks -/

theorem filter_flatMap_of_perm {f : β → List γ} {p : γ → Bool} {l l' : List β} (h : l.Perm l')
    (hl : l.Pairwise fun b c => (f b).filter p = [] ∨ (f c).filter p = []) :
    (l.flatMap f).filter p = (l'.flatMap f).filter p := by
  induction h with
  | nil => rfl
  | cons b _ ih =>
    simp only [List.flatMap_cons, List.filter_append]
    rw [ih (List.pairwise_cons.mp hl).2]
  | swap b c l =>
    simp only [List.flatMap_cons, List.filter_append]
    rcases List.rel_of_pairwise_cons hl List.mem_cons_self with hnil | hnil <;> simp [hnil]
  | trans h _ ih ih' => exact (ih hl).trans (ih' ((h.pairwise_iff Or.symm).mp hl))

/-- Blocks between which there are no ties may come in any order. -/
theorem sortBy_flatMap_append_of_perm {f : β → List γ} {l l' : List β} (h : l.Perm l')
    (hapart : l.Pairwise fun b c => ∀ x ∈ f b, ∀ y ∈ f c, cmp x y ≠ .eq) (rest : List γ) :
    sortBy cmp (l.flatMap f ++ rest) = sortBy cmp (l'.flatMap f ++ rest) := by
  apply sortBy_eq_sortBy_iff.mpr
  intro a
  rw [List.filter_append, List.filter_append]
  congr 1
  apply filter_flatMap_of_perm h
  apply hapart.imp
  intro b c hbc
  -- what ties with `a` in both blocks would tie with each other
  by_contra! hboth
  obtain ⟨x, hx⟩ := List.exists_mem_of_ne_nil _ hboth.1
  obtain ⟨y, hy⟩ := List.exists_mem_of_ne_nil _ hboth.2
  obtain ⟨hx, hax⟩ := List.mem_filter.mp hx
  obtain ⟨hy, hay⟩ := List.mem_filter.mp hy
  exact hbc x hx y hy
    (Std.TransCmp.eq_trans (Std.OrientedCmp.eq_symm (eq_of_beq hax)) (eq_of_beq hay))

end Ties

/-! ## Repetitions -/

section Repetitions

variable {β : Type} [BEq β]

theorem eraseReps_loop_eq_append (a : β) (l acc : List β) :
    List.eraseRepsBy.loop (· == ·) a l acc =
      acc.reverse ++ List.eraseRepsBy.loop (· == ·) a l [] := by
  induction l generalizing a acc with
  | nil => simp [List.eraseRepsBy.loop]
  | cons b l ih =>
    unfold List.eraseRepsBy.loop
    cases a == b
    · simp only [ih b (a :: acc), ih b [a], List.reverse_cons, List.reverse_nil, List.nil_append,
        List.append_assoc]
    · simp only [ih a acc]

variable [LawfulBEq β]

theorem eraseDups_eq_self {l : List β} (h : l.Nodup) : l.eraseDups = l := by
  induction l with
  | nil => rfl
  | cons a l ih =>
    obtain ⟨ha, hl⟩ := List.nodup_cons.mp h
    have hfilter : l.filter (fun b => !b == a) = l := by
      refine List.filter_eq_self.mpr fun b hb => ?_
      rw [Bool.not_eq_true', beq_eq_false_iff_ne]
      rintro rfl
      exact ha hb
    rw [List.eraseDups_cons, hfilter, ih hl]

theorem eraseReps_cons_self (a : β) (l : List β) :
    (a :: a :: l).eraseReps = (a :: l).eraseReps := by
  simp [List.eraseReps, List.eraseRepsBy, List.eraseRepsBy.loop]

theorem eraseReps_cons_of_ne {a b : β} (h : a ≠ b) (l : List β) :
    (a :: b :: l).eraseReps = a :: (b :: l).eraseReps := by
  simp only [List.eraseReps, List.eraseRepsBy, List.eraseRepsBy.loop, beq_false_of_ne h]
  exact eraseReps_loop_eq_append b l [a]

@[simp] theorem mem_eraseReps {b : β} (l : List β) : b ∈ l.eraseReps ↔ b ∈ l := by
  match l with
  | [] => rfl
  | [a] => rfl
  | a :: c :: l =>
    have ih := mem_eraseReps (b := b) (c :: l)
    by_cases hac : a = c
    · subst hac
      rw [eraseReps_cons_self, ih]
      simp
    · rw [eraseReps_cons_of_ne hac, List.mem_cons, ih, ← List.mem_cons]

theorem eraseReps_sublist (l : List β) : l.eraseReps.Sublist l := by
  match l with
  | [] => exact List.Sublist.refl []
  | [a] => exact List.Sublist.refl [a]
  | a :: c :: l =>
    have ih := eraseReps_sublist (c :: l)
    by_cases hac : a = c
    · subst hac
      rw [eraseReps_cons_self]
      exact ih.cons a
    · rw [eraseReps_cons_of_ne hac]
      exact ih.cons_cons a

variable {cmp : β → β → Ordering} [Std.TransCmp cmp] [Std.LawfulEqCmp cmp]

theorem nodup_eraseReps {l : List β} (hl : l.Pairwise fun a b => (cmp a b).isLE) :
    l.eraseReps.Nodup := by
  match l with
  | [] => exact List.nodup_nil
  | [a] => exact List.pairwise_singleton _ a
  | a :: c :: l =>
    obtain ⟨ha, htail⟩ := List.pairwise_cons.mp hl
    have ih := nodup_eraseReps htail
    by_cases hac : a = c
    · subst hac
      rwa [eraseReps_cons_self]
    · rw [eraseReps_cons_of_ne hac, List.nodup_cons, mem_eraseReps, List.mem_cons]
      refine ⟨?_, ih⟩
      rintro (rfl | hmem)
      · exact hac rfl
      · -- `c` would stand between two `a`
        have hca := List.rel_of_pairwise_cons htail hmem
        have hac' := Std.OrientedCmp.isLE_antisymm (ha c List.mem_cons_self) hca
        exact hac (Std.LawfulEqCmp.eq_of_compare hac')

theorem nodup_eraseReps_sortBy (l : List β) : (sortBy cmp l).eraseReps.Nodup :=
  nodup_eraseReps (pairwise_sortBy cmp l)

/-- Once sorted and without repetitions, lists are the same when their members are. -/
theorem eraseReps_sortBy_eq_of_mem_iff {l l' : List β} (h : ∀ b, b ∈ l ↔ b ∈ l') :
    (sortBy cmp l).eraseReps = (sortBy cmp l').eraseReps := by
  have hperm : (sortBy cmp l).eraseReps.Perm (sortBy cmp l').eraseReps := by
    refine (List.perm_ext_iff_of_nodup (nodup_eraseReps_sortBy l) (nodup_eraseReps_sortBy l')).mpr
      fun b => ?_
    rw [mem_eraseReps, mem_eraseReps, mem_sortBy, mem_sortBy, h]
  refine hperm.eq_of_pairwise ?_ ((pairwise_sortBy cmp l).sublist (eraseReps_sublist _))
    ((pairwise_sortBy cmp l').sublist (eraseReps_sublist _))
  intro a b _ _ hab hba
  exact Std.LawfulEqCmp.eq_of_compare (Std.OrientedCmp.isLE_antisymm hab hba)

end Repetitions

end MigrationAudit
