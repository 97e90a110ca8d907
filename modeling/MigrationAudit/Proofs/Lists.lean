import MigrationAudit.Facts.Lists
import Mathlib.Algebra.GroupWithZero.Nat
import Mathlib.Data.List.Basic

/-!
# Lists taken apart and put in order

Members of a list that go several ways are all there when the ways are taken together, and lists
that were put one behind the other by a tag can be told apart by it again.
-/

namespace MigrationAudit

theorem sortBy_perm {β : Type} (cmp : β → β → Ordering) (l : List β) : (sortBy cmp l).Perm l :=
  List.mergeSort_perm l _

@[simp] theorem mem_sortBy {β : Type} {cmp : β → β → Ordering} {b : β} {l : List β} :
    b ∈ sortBy cmp l ↔ b ∈ l :=
  (sortBy_perm cmp l).mem_iff

/-- Whether an entry is kept is told by its key alone, so looking up goes on as before, or fails. -/
theorem lookup_filter {β γ : Type} [BEq β] [LawfulBEq β] (p : β → Bool) (b : β) (l : List (β × γ)) :
    (l.filter fun e => p e.1).lookup b = if p b then l.lookup b else none := by
  induction l with
  | nil => simp
  | cons e l ih =>
    obtain ⟨key, value⟩ := e
    by_cases hb : b = key
    · subst hb
      by_cases hp : p b <;> simp [hp, ih]
    · by_cases hp : p key <;> simp [hp, ih, List.lookup_cons, beq_false_of_ne hb]

theorem isLE_or_isLE {β : Type} (cmp : β → β → Ordering) [Std.OrientedCmp cmp] (a b : β) :
    (cmp a b).isLE || (cmp b a).isLE := by
  rw [@Std.OrientedCmp.eq_swap β cmp _ b a]
  cases cmp a b <;> rfl

theorem pairwise_sortBy {β : Type} (cmp : β → β → Ordering) [Std.TransCmp cmp] (l : List β) :
    (sortBy cmp l).Pairwise fun a b => (cmp a b).isLE := by
  apply List.pairwise_mergeSort
  · intro a b c hab hbc
    exact Std.TransCmp.isLE_trans hab hbc
  · exact isLE_or_isLE cmp

theorem sortBy_eq_of_perm {β : Type} {cmp : β → β → Ordering} [Std.TransCmp cmp] {l l' : List β}
    (h : l.Perm l') (heq : ∀ a ∈ l, ∀ b ∈ l, cmp a b = .eq → a = b) :
    sortBy cmp l = sortBy cmp l' := by
  have hperm : (sortBy cmp l).Perm (sortBy cmp l') :=
    (sortBy_perm cmp l).trans (h.trans (sortBy_perm cmp l').symm)
  refine List.Perm.eq_of_pairwise ?_ (pairwise_sortBy cmp l) (pairwise_sortBy cmp l') hperm
  intro a b ha hb hab hba
  have hb : b ∈ l := h.mem_iff.mpr (mem_sortBy.mp hb)
  exact heq a (mem_sortBy.mp ha) b hb (Std.OrientedCmp.isLE_antisymm hab hba)

theorem sortBy_eq_of_perm_of_lawful {β : Type} {cmp : β → β → Ordering} [Std.TransCmp cmp]
    [Std.LawfulEqCmp cmp] {l l' : List β} (h : l.Perm l') : sortBy cmp l = sortBy cmp l' := by
  apply sortBy_eq_of_perm h
  intro a _ b _ heq
  exact Std.LawfulEqCmp.eq_of_compare heq

theorem findSome?_eq_of_perm {β γ : Type} {f : β → Option γ} {l l' : List β} (h : l.Perm l')
    (hagree : ∀ u ∈ l, ∀ v ∈ l, ∀ a ∈ f u, ∀ b ∈ f v, a = b) :
    l.findSome? f = l'.findSome? f := by
  cases hl : l.findSome? f with
  | none =>
    rw [List.findSome?_eq_none_iff] at hl
    symm
    rw [List.findSome?_eq_none_iff]
    intro u hu
    exact hl u (h.mem_iff.mpr hu)
  | some a =>
    obtain ⟨u, hu, hua⟩ := List.exists_of_findSome?_eq_some hl
    cases hl' : l'.findSome? f with
    | none =>
      rw [List.findSome?_eq_none_iff] at hl'
      simp [hl' u (h.mem_iff.mp hu)] at hua
    | some b =>
      obtain ⟨v, hv, hvb⟩ := List.exists_of_findSome?_eq_some hl'
      rw [hagree u hu v (h.mem_iff.mpr hv) a hua b hvb]

theorem exists_perm_cons_cons {β : Type} [DecidableEq β] {l : List β} {u v : β} (hu : u ∈ l)
    (hv : v ∈ l) (h : u ≠ v) : ∃ rest, l.Perm (u :: v :: rest) := by
  have hrest : v ∈ l.erase u := (List.mem_erase_of_ne (Ne.symm h)).mpr hv
  exact ⟨(l.erase u).erase v,
    (List.perm_cons_erase hu).trans ((List.perm_cons_erase hrest).cons u)⟩

theorem map_modify_of_comm {β γ : Type} {f : β → γ} {g : β → β} {g' : γ → γ}
    (h : ∀ b, g' (f b) = f (g b)) (l : List β) (n : Nat) :
    (l.map f).modify n g' = (l.modify n g).map f := by
  induction l generalizing n with
  | nil => simp
  | cons b l ih => cases n <;> simp [h, ih]

theorem map_getLeft?_append_perm {β γ δ : Type} (f : β → δ) (g : γ → δ) (l : List (β ⊕ γ)) :
    ((l.filterMap Sum.getLeft?).map f ++ (l.filterMap Sum.getRight?).map g).Perm
      (l.map (Sum.elim f g)) := by
  induction l with
  | nil => exact List.Perm.refl _
  | cons x l ih =>
      cases x with
      | inl b => simpa [List.filterMap_cons] using ih
      | inr c => simpa [List.filterMap_cons] using List.perm_middle.trans (ih.cons (g c))

/-- Lists whose members carry the tag they are listed under: those with one tag are one list. -/
theorem filter_flatMap_tag {β γ : Type} [DecidableEq β] {f : β → List γ} {tag : γ → β}
    (htag : ∀ b, ∀ x ∈ f b, tag x = b) {l : List β} (hl : l.Nodup) (b : β) :
    (l.flatMap f).filter (fun x => tag x = b) = if b ∈ l then f b else [] := by
  induction l with
  | nil => rfl
  | cons a l ih =>
      obtain ⟨hal, hl⟩ := List.nodup_cons.mp hl
      rw [List.flatMap_cons, List.filter_append, ih hl]
      by_cases hab : a = b
      · subst hab
        have hself : (f a).filter (fun x => tag x = a) = f a :=
          List.filter_eq_self.mpr fun x hx => by simpa using htag a x hx
        simp [hself, hal]
      · have hother : (f a).filter (fun x => tag x = b) = [] :=
          List.filter_eq_nil_iff.mpr fun x hx => by simpa [htag a x hx] using hab
        simp [hother, Ne.symm hab]

/-- Members that are sorted into boxes by a key are all there, each once, when the boxes are emptied
one after another. -/
theorem flatMap_filter_perm {β κ : Type} [DecidableEq κ] {key : β → κ} {keys : List κ}
    (hkeys : keys.Nodup) {l : List β} (h : ∀ b ∈ l, key b ∈ keys) :
    (keys.flatMap fun k => l.filter (key · == k)).Perm l := by
  induction keys generalizing l with
  | nil =>
    rw [List.eq_nil_iff_forall_not_mem.mpr fun b hb => List.not_mem_nil (h b hb)]
    exact List.Perm.refl _
  | cons k keys ih =>
    obtain ⟨hk, hkeys⟩ := List.nodup_cons.mp hkeys
    -- the other boxes hold what is not in the first one
    have hothers : (keys.flatMap fun k' => l.filter (key · == k')) =
        keys.flatMap fun k' => (l.filter fun b => !key b == k).filter (key · == k') := by
      apply List.flatMap_congr
      intro k' hk'
      rw [List.filter_filter]
      apply List.filter_congr
      intro b _
      grind
    rw [List.flatMap_cons, hothers]
    refine ((ih hkeys ?_).append_left _).trans (List.filter_append_perm _ l)
    intro b hb
    obtain ⟨hb, hne⟩ := List.mem_filter.mp hb
    exact (List.mem_cons.mp (h b hb)).resolve_left (by simpa using hne)

theorem sum_countP_key {β κ : Type} [DecidableEq κ] {key : β → κ} {keys : List κ}
    (hkeys : keys.Nodup) {l : List β} (h : ∀ b ∈ l, key b ∈ keys) :
    (keys.map fun k => l.countP (key · == k)).sum = l.length := by
  simp only [List.countP_eq_length_filter]
  rw [← List.length_flatMap, (flatMap_filter_perm hkeys h).length_eq]

/-! ## Members that cover others -/

section Uncovered

variable {β γ : Type} {covers : β → γ → Bool} {read : β → Option γ}

/-- What has been found, with what is read from one more member unless it is covered already. -/
def addUncovered (covers : β → γ → Bool) (read : β → Option γ) (found : List γ) (b : β) : List γ :=
  if found.any (covers b) then found else found ++ (read b).toList

theorem exists_foldl_addUncovered (covers : β → γ → Bool) (read : β → Option γ) (found : List γ)
    (l : List β) :
    ∃ rest, l.foldl (addUncovered covers read) found = found ++ rest ∧
      ∀ c ∈ rest, ∃ b ∈ l, read b = some c := by
  induction l generalizing found with
  | nil => exact ⟨[], (List.append_nil found).symm, by simp⟩
  | cons b l ih =>
    obtain ⟨rest, hrest, hread⟩ := ih (addUncovered covers read found b)
    have hread : ∀ c ∈ rest, ∃ e ∈ b :: l, read e = some c :=
      fun c hc => (hread c hc).imp fun e he => ⟨List.mem_cons_of_mem b he.1, he.2⟩
    rw [List.foldl_cons, hrest, addUncovered]
    split
    · exact ⟨rest, rfl, hread⟩
    · refine ⟨(read b).toList ++ rest, List.append_assoc .., ?_⟩
      refine List.forall_mem_append.mpr ⟨fun c hc => ?_, hread⟩
      exact ⟨b, List.mem_cons_self, Option.mem_toList.mp hc⟩

/-- What is read from a member is found when nothing read from another one covers it. -/
theorem mem_foldl_addUncovered {l : List β} {b : β} {c : γ} (hb : b ∈ l) (hread : read b = some c)
    (hself : ∀ d ∈ l.foldl (addUncovered covers read) [], covers b d = true →
      ∀ e ∈ l, read e = some d → e = b) :
    c ∈ l.foldl (addUncovered covers read) [] := by
  obtain ⟨us, vs, hsplit⟩ := List.append_of_mem hb
  obtain ⟨found, hfound, hbefore⟩ := exists_foldl_addUncovered covers read [] us
  obtain ⟨rest, hrest, -⟩ := exists_foldl_addUncovered covers read
    (addUncovered covers read (us.foldl (addUncovered covers read) []) b) vs
  rw [hsplit, List.foldl_append, List.foldl_cons, hrest, hfound, List.nil_append] at hself ⊢
  rw [addUncovered] at hself ⊢
  split at hself
  · next hany =>
    -- what covers the member has been read from itself, so it is what is looked for
    obtain ⟨d, hd, hcovers⟩ := List.any_eq_true.mp hany
    obtain ⟨e, he, hedread⟩ := hbefore d hd
    obtain rfl := hself d (List.mem_append_left _ hd) hcovers e (List.mem_append_left _ he) hedread
    obtain rfl := Option.some.inj (hread.symm.trans hedread)
    rw [if_pos hany]
    exact List.mem_append_left _ hd
  · next hany =>
    rw [if_neg hany, hread]
    exact List.mem_append_left _ (List.mem_append_right _ List.mem_cons_self)

end Uncovered

end MigrationAudit
