import MigrationAudit.Proofs.Pascal.Layout
import Mathlib.Algebra.GroupWithZero.Nat
import Mathlib.Data.List.Perm.Subperm

/-!
# Routines in each other

The routines read at a cursor form a laminar forest: any two of them are apart or one lies in the
other, and the bodies are all apart. So no word is counted for two routines, and the shortest
routine around a position is the innermost one.
-/

/-! ## The shortest owner -/

namespace MigrationAudit.Source

open Text

namespace OwnerSpan

theorem shorter_eq_or (o p : OwnerSpan) : o.shorter p = o ∨ o.shorter p = p := by
  unfold shorter
  split
  · exact .inr rfl
  · exact .inl rfl

theorem shorter_le (o p : OwnerSpan) :
    (o.shorter p).span.length ≤ o.span.length ∧ (o.shorter p).span.length ≤ p.span.length := by
  unfold shorter
  split
  · omega
  · omega

theorem foldl_shorter_mem (o : OwnerSpan) (rest : List OwnerSpan) :
    rest.foldl shorter o ∈ o :: rest := by
  induction rest generalizing o with
  | nil => exact List.mem_cons_self
  | cons p rest ih =>
    rw [List.foldl_cons]
    rcases o.shorter_eq_or p with heq | heq
    · rw [heq]
      exact List.cons_subset_cons o (List.subset_cons_self p rest) (ih o)
    · rw [heq]
      exact List.mem_cons_of_mem o (ih p)

theorem foldl_shorter_le (o : OwnerSpan) (rest : List OwnerSpan) :
    ∀ p ∈ o :: rest, (rest.foldl shorter o).span.length ≤ p.span.length := by
  induction rest generalizing o with
  | nil => simp
  | cons q rest ih =>
    have hleast := ih (o.shorter q)
    rw [List.forall_mem_cons] at hleast
    have hle := o.shorter_le q
    rw [List.foldl_cons, List.forall_mem_cons, List.forall_mem_cons]
    exact ⟨Nat.le_trans hleast.1 hle.1, Nat.le_trans hleast.1 hle.2, hleast.2⟩

end OwnerSpan

variable {owners : List OwnerSpan} {n : Nat}

/-- The owner covers the position, and no other one that does is shorter. -/
structure IsShortestAt (owners : List OwnerSpan) (n : Nat) (o : OwnerSpan) : Prop where
  mem : o ∈ owners
  covers : o.span.contains n
  le : ∀ p ∈ owners, p.span.contains n → o.span.length ≤ p.span.length

theorem isShortestAt_of_shortest? {o : OwnerSpan}
    (h : shortest? (owners.filter (·.span.contains n)) = some o) : IsShortestAt owners n o := by
  generalize hcover : owners.filter (·.span.contains n) = covering at h
  have hmem : ∀ p, p ∈ covering ↔ p ∈ owners ∧ p.span.contains n :=
    fun p => hcover ▸ List.mem_filter
  cases covering with
  | nil => exact nomatch h
  | cons q rest =>
    obtain rfl := Option.some.inj h
    obtain ⟨howner, hcovers⟩ := (hmem _).mp (OwnerSpan.foldl_shorter_mem q rest)
    exact ⟨howner, hcovers, fun p hp hn =>
      OwnerSpan.foldl_shorter_le q rest p ((hmem p).mpr ⟨hp, hn⟩)⟩

theorem exists_isShortestAt_of_ownerAt? {s : String} (h : ownerAt? owners n = some s) :
    ∃ o, IsShortestAt owners n o ∧ o.name = s := by
  obtain ⟨o, ho, hname⟩ := Option.map_eq_some_iff.mp h
  exact ⟨o, isShortestAt_of_shortest? ho, hname⟩

theorem exists_ownerAt? {p : OwnerSpan} (hp : p ∈ owners) (hn : p.span.contains n) :
    ∃ o, IsShortestAt owners n o ∧ ownerAt? owners n = some o.name := by
  cases hshortest : shortest? (owners.filter (·.span.contains n)) with
  | none =>
    have hcovering : p ∈ owners.filter (·.span.contains n) := List.mem_filter.mpr ⟨hp, hn⟩
    generalize owners.filter (·.span.contains n) = covering at hshortest hcovering
    cases covering with
    | nil => exact nomatch hcovering
    | cons q rest => exact nomatch hshortest
  | some o => exact ⟨o, isShortestAt_of_shortest? hshortest, by rw [ownerAt?, hshortest]; rfl⟩

end MigrationAudit.Source

namespace MigrationAudit.Pascal

open Text Source

namespace RoutineNode

def span (r : RoutineNode) : Span := ⟨r.start, r.stop⟩

theorem span_contains_iff {r : RoutineNode} {n : Nat} :
    r.span.contains n = true ↔ r.start ≤ n ∧ n < r.stop :=
  decide_eq_true_iff

/-- Nothing that is nested in the routine covers the position, which the routine itself does. -/
structure IsInnermostAt (r : RoutineNode) (n : Nat) : Prop where
  covers : r.span.contains n
  nested : ∀ m ∈ r.nested, ¬ m.span.contains n

theorem descendants_eq (r : RoutineNode) : r.descendants = descendantsOf r.nested := by
  cases r
  rw [descendants]

@[simp] theorem descendantsOf_nil : descendantsOf [] = [] := by rw [descendantsOf]

@[simp] theorem descendantsOf_cons (r : RoutineNode) (rest : List RoutineNode) :
    descendantsOf (r :: rest) = r :: (descendantsOf r.nested ++ descendantsOf rest) := by
  rw [descendantsOf, descendants_eq, List.cons_append]

theorem mem_descendantsOf_of_mem {r : RoutineNode} {forest : List RoutineNode} (h : r ∈ forest) :
    r ∈ descendantsOf forest := by
  induction forest with
  | nil => simp at h
  | cons m rest ih =>
    rw [descendantsOf_cons, List.mem_cons, List.mem_append]
    rcases List.mem_cons.mp h with rfl | h
    · exact .inl rfl
    · exact .inr (.inr (ih h))

mutual

theorem nested_subset_descendants : (r : RoutineNode) →
    ∀ m ∈ descendants r, m.nested ⊆ descendants r
  | ⟨_, _, _, _, _, _, _, _, nested⟩ => by
    rw [descendants]
    exact nested_subset_descendantsOf nested

theorem nested_subset_descendantsOf : (forest : List RoutineNode) →
    ∀ m ∈ descendantsOf forest, m.nested ⊆ descendantsOf forest
  | [] => by simp
  | r :: rest => by
    have hr := nested_subset_descendants r
    have hrest := nested_subset_descendantsOf rest
    rw [descendants_eq] at hr
    intro m hm n hn
    rw [descendantsOf_cons, List.mem_cons, List.mem_append] at hm ⊢
    rcases hm with rfl | hm | hm
    · exact .inr (.inl (mem_descendantsOf_of_mem hn))
    · exact .inr (.inl (hr m hm hn))
    · exact .inr (.inr (hrest m hm hn))

end

/-- What is nested in the routine and its body stand in it, one behind the other. -/
structure Sound (r : RoutineNode) : Prop where
  start_lt_stop : r.start < r.stop
  nested_inside : ∀ m ∈ descendantsOf r.nested, r.start < m.start ∧ m.stop ≤ r.stop
  nested_apart : r.nested.Pairwise fun a b => a.stop ≤ b.start
  nested_of_body : r.body = none → r.nested = []
  body_inside : ∀ b ∈ r.body, r.start ≤ b.start ∧ b.start ≤ b.stop ∧ b.stop ≤ r.stop ∧
    ∀ m ∈ r.nested, m.stop ≤ b.start

/-- The bodies of routines at every depth. -/
def bodies (forest : List RoutineNode) : List Span := (descendantsOf forest).filterMap (·.body)

/-- The words of all bodies, each with its position. -/
def bodySpots (code : List Char) (forest : List RoutineNode) : List (Nat × List Char) :=
  (bodies forest).flatMap fun b => spots b.start (b.slice code)

end RoutineNode

open RoutineNode

namespace Laid

variable {c d : Cursor} {forest : List RoutineNode}

/-! ## Where routines stand -/

theorem offsets_of_mem_descendantsOf (h : Laid c forest d) :
    ∀ r ∈ descendantsOf forest, c.offset ≤ r.start ∧ r.stop ≤ d.offset := by
  induction h with
  | nil => simp
  | declaration before header nested behind ih =>
    have hbefore := before.offset_le
    have hheader := header.leadsWhole.offset_le
    have hbehind := behind.leadsWhole.offset_le
    rw [descendantsOf_cons, nested, descendantsOf_nil, List.nil_append]
    refine List.forall_mem_cons.mpr ⟨?_, fun m hm => ?_⟩
    · rw [header.start_eq, header.stop_eq]
      omega
    · have := ih m hm
      omega
  | implementation before start_eq header offset_lt nested body_eq body closing stop_eq behind
      ihnested ih =>
    have hbefore := before.offset_le
    have hbody := body.offset_le
    have hnested := nested.leadsWhole.offset_le
    have hclosing := closing.offset_le
    have hbehind := behind.leadsWhole.offset_le
    rw [descendantsOf_cons, List.forall_mem_cons, List.forall_mem_append]
    refine ⟨by omega, fun m hm => ?_, fun m hm => ?_⟩
    · have := ihnested m hm
      omega
    · have := ih m hm
      omega

theorem offsets_of_mem (h : Laid c forest d) :
    ∀ r ∈ forest, c.offset ≤ r.start ∧ r.stop ≤ d.offset :=
  fun r hr => h.offsets_of_mem_descendantsOf r (mem_descendantsOf_of_mem hr)

theorem apart (h : Laid c forest d) : forest.Pairwise fun a b => a.stop ≤ b.start := by
  induction h with
  | nil => exact .nil
  | declaration before header nested behind ih =>
    refine .cons (fun m hm => ?_) ih
    rw [header.stop_eq]
    exact (behind.offsets_of_mem m hm).1
  | implementation before start_eq header offset_lt nested body_eq body closing stop_eq behind
      _ ih =>
    refine .cons (fun m hm => ?_) ih
    rw [stop_eq]
    exact (behind.offsets_of_mem m hm).1

theorem sound (h : Laid c forest d) : ∀ r ∈ descendantsOf forest, Sound r := by
  induction h with
  | nil => simp
  | declaration before header nested behind ih =>
    rw [descendantsOf_cons, nested, descendantsOf_nil, List.nil_append]
    refine List.forall_mem_cons.mpr ⟨⟨?_, ?_, ?_, ?_, ?_⟩, ih⟩
    · rw [header.start_eq, header.stop_eq]
      exact header.offset_lt
    · simp [nested]
    · simp [nested]
    · exact fun _ => nested
    · simp [header.body_eq]
  | implementation before start_eq header offset_lt nested body_eq body closing stop_eq behind
      ihnested ih =>
    rw [descendantsOf_cons, List.forall_mem_cons, List.forall_mem_append]
    have hnested := nested.leadsWhole.offset_le
    have hbody := body.offset_le
    have hclosing := closing.offset_le
    refine ⟨⟨?_, ?_, nested.apart, ?_, ?_⟩, ihnested, ih⟩
    · omega
    · intro m hm
      have := nested.offsets_of_mem_descendantsOf m hm
      omega
    · simp [body_eq]
    · simp only [body_eq, Option.mem_def, Option.some.injEq, forall_eq']
      exact ⟨by omega, hbody, by omega, fun m hm => (nested.offsets_of_mem m hm).2⟩

/-- From one routine to the next in order, what is nested included, the starts grow. -/
theorem starts_lt (h : Laid c forest d) :
    (descendantsOf forest).Pairwise fun a b => a.start < b.start := by
  induction h with
  | nil => simp
  | declaration before header nested behind ih =>
    rw [descendantsOf_cons, nested, descendantsOf_nil, List.nil_append]
    refine .cons (fun m hm => ?_) ih
    have := (behind.offsets_of_mem_descendantsOf m hm).1
    have := header.offset_lt
    rw [header.start_eq]
    omega
  | implementation before start_eq header offset_lt nested body_eq body closing stop_eq behind
      ihnested ih =>
    have hbody := body.offset_le
    have hnested := nested.leadsWhole.offset_le
    have hclosing := closing.offset_le
    rw [descendantsOf_cons]
    refine .cons (fun m hm => ?_) (List.pairwise_append.mpr ⟨ihnested, ih, fun m hm n hn => ?_⟩)
    · rcases List.mem_append.mp hm with hm | hm
      · have := nested.offsets_of_mem_descendantsOf m hm
        omega
      · have := behind.offsets_of_mem_descendantsOf m hm
        omega
    · have hm' := nested.offsets_of_mem_descendantsOf m hm
      have hn' := behind.offsets_of_mem_descendantsOf n hn
      have hlt := (nested.sound m hm).start_lt_stop
      omega

/-! ## Bodies -/

theorem offsets_of_mem_bodies (h : Laid c forest d) {b : Span} (hb : b ∈ bodies forest) :
    c.offset ≤ b.start ∧ b.stop ≤ d.offset := by
  obtain ⟨r, hr, hbody⟩ := List.mem_filterMap.mp hb
  have hinside := (h.sound r hr).body_inside b hbody
  have hoffsets := h.offsets_of_mem_descendantsOf r hr
  omega

theorem bodies_declaration {r : RoutineNode} {rest : List RoutineNode} (hbody : r.body = none)
    (hnested : r.nested = []) : bodies (r :: rest) = bodies rest := by
  simp [bodies, hbody, hnested]

theorem bodies_implementation {r : RoutineNode} {rest : List RoutineNode} {b : Span}
    (hbody : r.body = some b) :
    bodies (r :: rest) = b :: (bodies r.nested ++ bodies rest) := by
  simp [bodies, hbody]

theorem bodies_apart (h : Laid c forest d) :
    (bodies forest).Pairwise fun a b => a.stop ≤ b.start ∨ b.stop ≤ a.start := by
  induction h with
  | nil => simp [bodies]
  | declaration before header nested behind ih => rwa [bodies_declaration header.body_eq nested]
  | implementation before start_eq header offset_lt nested body_eq body closing stop_eq behind
      ihnested ih =>
    have hbody := body.offset_le
    have hclosing := closing.offset_le
    rw [bodies_implementation body_eq]
    refine .cons (fun b hb => ?_) (List.pairwise_append.mpr ⟨ihnested, ih, fun a ha b hb => ?_⟩)
    · rcases List.mem_append.mp hb with hb | hb
      · exact .inr (nested.offsets_of_mem_bodies hb).2
      · have := (behind.offsets_of_mem_bodies hb).1
        exact .inl (by simp only; omega)
    · have ha' := (nested.offsets_of_mem_bodies ha).2
      have hb' := (behind.offsets_of_mem_bodies hb).1
      exact .inl (by omega)

/-- The words of the bodies and those behind the routines are among the words behind the first
cursor. -/
theorem bodySpots_subperm {code : List Char} (h : Laid c forest d) (hin : c.StandsIn code) :
    (bodySpots code forest ++ spots d.offset d.after).Subperm (spots c.offset c.after) := by
  induction h with
  | nil h => exact h.sublist_spots.subperm
  | declaration before header nested behind ih =>
    rw [bodySpots, bodies_declaration header.body_eq nested]
    have hlead := before.trans header.leadsWhole
    exact (ih (hin.of_leads hlead.leads)).trans hlead.sublist_spots.subperm
  | @implementation c d e f g h i r rest before start_eq header offset_lt nested body_eq body
      closing stop_eq behind ihnested ih =>
    have hheader := before.trans header
    have hin' := hin.of_leads hheader.leads
    have hinbody := hin'.of_leads nested.leadsWhole.leads
    obtain ⟨moved, hafter, hmoved, hspots⟩ := body.exists_spots
    have hrest : (bodySpots code rest ++ spots i.offset i.after).Subperm (spots g.offset g.after) :=
      (ih (hinbody.of_leads (body.trans closing).leads)).trans closing.sublist_spots.subperm
    have hown : bodySpots code (r :: rest) =
        spots f.offset moved ++ (bodySpots code r.nested ++ bodySpots code rest) := by
      rw [bodySpots, bodies_implementation body_eq, List.flatMap_cons, List.flatMap_append,
        hinbody.slice_eq hafter hmoved]
      rfl
    -- The words of the body stand behind those of the nested routines.
    have hswap : (bodySpots code (r :: rest) ++ spots i.offset i.after).Perm
        (bodySpots code r.nested ++
          (spots f.offset moved ++ (bodySpots code rest ++ spots i.offset i.after))) := by
      rw [hown, List.append_assoc, List.append_assoc]
      exact List.perm_append_comm_assoc ..
    have hnested : (bodySpots code r.nested ++
        (spots f.offset moved ++ (bodySpots code rest ++ spots i.offset i.after))).Subperm
          (bodySpots code r.nested ++ spots f.offset f.after) := by
      rw [hspots]
      exact (List.subperm_append_left _).mpr ((List.subperm_append_left _).mpr hrest)
    exact (hswap.subperm.trans hnested).trans ((ihnested hin').trans hheader.sublist_spots.subperm)

/-- All branching words that are counted for bodies are branching words of the text. -/
theorem sum_complexity_le {code : List Char} (h : Laid c forest d) (hin : c.StandsIn code) :
    ((bodies forest).map fun b => complexity (b.slice code) - 1).sum ≤
      countKeywords c.after branchKeywords false := by
  have hsub := (List.sublist_append_left _ _).subperm.trans (h.bodySpots_subperm hin)
  rw [countKeywords_eq c.offset]
  refine le_trans (le_of_eq ?_) (hsub.countP_le _)
  rw [bodySpots, List.countP_flatMap]
  congr 1
  refine List.map_congr_left fun b _ => ?_
  rw [complexity, Nat.add_sub_cancel_left, countKeywords_eq b.start]
  rfl

/-! ## Owners -/

theorem exists_covers (h : Laid c forest d) {r : RoutineNode} {n : Nat}
    (hr : r ∈ descendantsOf forest) (hn : r.span.contains n) : ∃ m ∈ forest, m.span.contains n := by
  induction h with
  | nil => simp at hr
  | declaration before header nested behind ih =>
    rw [descendantsOf_cons, nested, descendantsOf_nil, List.nil_append] at hr
    rcases List.mem_cons.mp hr with rfl | hr
    · exact ⟨_, List.mem_cons_self, hn⟩
    · obtain ⟨m, hm, hcovers⟩ := ih hr
      exact ⟨m, List.mem_cons_of_mem _ hm, hcovers⟩
  | @implementation c d e f g h i r' rest before start_eq header offset_lt nested body_eq body
      closing stop_eq behind ihnested ih =>
    rw [descendantsOf_cons, List.mem_cons, List.mem_append] at hr
    rcases hr with rfl | hr | hr
    · exact ⟨_, List.mem_cons_self, hn⟩
    · refine ⟨r', List.mem_cons_self, ?_⟩
      have hoffsets := nested.offsets_of_mem_descendantsOf r hr
      have hbody := body.offset_le
      have hclosing := closing.offset_le
      rw [span_contains_iff] at hn ⊢
      omega
    · obtain ⟨m, hm, hcovers⟩ := ih hr
      exact ⟨m, List.mem_cons_of_mem _ hm, hcovers⟩

theorem exists_laid_nested (h : Laid c forest d) {r : RoutineNode}
    (hr : r ∈ descendantsOf forest) : ∃ e f, Laid e r.nested f := by
  induction h with
  | nil => simp at hr
  | declaration before header nested behind ih =>
    rw [descendantsOf_cons, nested, descendantsOf_nil, List.nil_append] at hr
    rcases List.mem_cons.mp hr with rfl | hr
    · rw [nested]
      exact ⟨_, _, .nil (.refl c)⟩
    · exact ih hr
  | implementation before start_eq header offset_lt nested body_eq body closing stop_eq behind
      ihnested ih =>
    rw [descendantsOf_cons, List.mem_cons, List.mem_append] at hr
    rcases hr with rfl | hr | hr
    · exact ⟨_, _, nested⟩
    · exact ihnested hr
    · exact ih hr

/-- Of two routines that cover a position one is nested in the other. -/
theorem nested_of_covers (h : Laid c forest d) {r r' : RoutineNode} {n : Nat}
    (hr : r ∈ descendantsOf forest) (hr' : r' ∈ descendantsOf forest) (hn : r.span.contains n)
    (hn' : r'.span.contains n) :
    r = r' ∨ r' ∈ descendantsOf r.nested ∨ r ∈ descendantsOf r'.nested := by
  induction h with
  | nil => simp at hr
  | @declaration c d e f r₀ rest before header nested behind ih =>
    rw [descendantsOf_cons, nested, descendantsOf_nil, List.nil_append, List.mem_cons] at hr hr'
    rw [span_contains_iff] at hn hn'
    have hstop := header.stop_eq
    rcases hr with rfl | hr <;> rcases hr' with rfl | hr'
    · exact .inl rfl
    · have := (behind.offsets_of_mem_descendantsOf _ hr').1
      omega
    · have := (behind.offsets_of_mem_descendantsOf _ hr).1
      omega
    · exact ih hr hr'
  | @implementation c d e f g h i r₀ rest before start_eq header offset_lt nested body_eq body
      closing stop_eq behind ihnested ih =>
    -- whether the position stands before the end of this routine tells where to look
    have hsplit : ∀ m ∈ descendantsOf (r₀ :: rest), m.span.contains n →
        (m = r₀ ∨ m ∈ descendantsOf r₀.nested) ∧ n < h.offset ∨
          m ∈ descendantsOf rest ∧ h.offset ≤ n := by
      intro m hm hcovers
      rw [descendantsOf_cons, List.mem_cons, List.mem_append] at hm
      rw [span_contains_iff] at hcovers
      rcases hm with rfl | hm | hm
      · exact .inl ⟨.inl rfl, by omega⟩
      · have := (nested.offsets_of_mem_descendantsOf m hm).2
        have := (body.trans closing).offset_le
        exact .inl ⟨.inr hm, by omega⟩
      · have := (behind.offsets_of_mem_descendantsOf m hm).1
        exact .inr ⟨hm, by omega⟩
    rcases hsplit r hr hn with ⟨hr, hlt⟩ | ⟨hr, hle⟩
    · have hr' := (hsplit r' hr' hn').resolve_right fun hle => absurd hle.2 (by omega)
      rcases hr with rfl | hr <;> rcases hr'.1 with rfl | hr'
      · exact .inl rfl
      · exact .inr (.inl hr')
      · exact .inr (.inr hr)
      · exact ihnested hr hr'
    · have hr' := (hsplit r' hr' hn').resolve_left fun hlt => absurd hlt.2 (by omega)
      exact ih hr hr'.1

theorem length_lt (h : Laid c forest d) {r m : RoutineNode} (hr : r ∈ descendantsOf forest)
    (hm : m ∈ descendantsOf r.nested) : m.span.length < r.span.length := by
  have hinside := (h.sound r hr).nested_inside m hm
  have hlt := (h.sound r hr).start_lt_stop
  simp only [span, Span.length]
  omega

theorem ownerAt?_eq_some_iff (h : Laid c forest d) (name : RoutineNode → String) (n : Nat)
    (s : String) :
    ownerAt? ((descendantsOf forest).map fun r => ⟨r.span, name r⟩) n = some s ↔
      ∃ r ∈ descendantsOf forest, r.IsInnermostAt n ∧ name r = s := by
  have hmem : ∀ r ∈ descendantsOf forest, (⟨r.span, name r⟩ : OwnerSpan) ∈
      (descendantsOf forest).map fun r => ⟨r.span, name r⟩ := fun r hr => List.mem_map_of_mem hr
  constructor
  · intro howner
    obtain ⟨o, hshortest, rfl⟩ := exists_isShortestAt_of_ownerAt? howner
    obtain ⟨r, hr, rfl⟩ := List.mem_map.mp hshortest.mem
    refine ⟨r, hr, ⟨hshortest.covers, fun m hm hnm => ?_⟩, rfl⟩
    have hle := hshortest.le _ (hmem m (nested_subset_descendantsOf forest r hr hm)) hnm
    exact absurd (h.length_lt hr (mem_descendantsOf_of_mem hm)) (Nat.not_lt.mpr hle)
  · rintro ⟨r, hr, ⟨hn, hinner⟩, rfl⟩
    obtain ⟨o, hshortest, howner⟩ := exists_ownerAt? (hmem r hr) hn
    obtain ⟨r', hr', rfl⟩ := List.mem_map.mp hshortest.mem
    rw [howner]
    rcases h.nested_of_covers hr hr' hn hshortest.covers with rfl | hdeep | hdeep
    · rfl
    · -- Then something nested in the innermost routine would cover the position.
      obtain ⟨_, _, hlaid⟩ := h.exists_laid_nested hr
      obtain ⟨m, hm, hcovers⟩ := hlaid.exists_covers hdeep hshortest.covers
      exact absurd hcovers (hinner m hm)
    · exact absurd (h.length_lt hr' hdeep) (Nat.not_lt.mpr (hshortest.le _ (hmem r hr) hn))

end Laid

/-! ## What is read -/

/-- Routines between two positions of a text that are apart or in each other, as their bodies are.
The words of all bodies are different words of the text, and the shortest routine around a position
is the innermost. -/
structure IsLaminar (code : List Char) (start limit : Nat) (forest : List RoutineNode) : Prop where
  starts_lt : (descendantsOf forest).Pairwise fun a b => a.start < b.start
  offsets : ∀ r ∈ descendantsOf forest, start ≤ r.start ∧ r.stop ≤ limit
  apart : forest.Pairwise fun a b => a.stop ≤ b.start
  sound : ∀ r ∈ descendantsOf forest, r.Sound
  bodies_apart : (bodies forest).Pairwise fun a b => a.stop ≤ b.start ∨ b.stop ≤ a.start
  words_nodup : (bodySpots code forest).Nodup
  words_subperm : (bodySpots code forest).Subperm (spots start (Span.slice ⟨start, limit⟩ code))
  branches_le : ((bodies forest).map fun b => complexity (b.slice code) - 1).sum ≤
    countKeywords (Span.slice ⟨start, limit⟩ code) branchKeywords false
  ownerAt?_eq_some_iff : ∀ (name : RoutineNode → String) (n : Nat) (s : String),
    ownerAt? ((descendantsOf forest).map fun r => ⟨r.span, name r⟩) n = some s ↔
      ∃ r ∈ descendantsOf forest, r.IsInnermostAt n ∧ name r = s

theorem isLaminar_readRoutines {code : List Char} {start limit : Nat} (maxNesting : Nat)
    (hstart : IsBoundary code start) (hlimit : IsBoundary code limit) (hle : start ≤ limit) :
    IsLaminar code start limit (readRoutines maxNesting (.within code start limit)) := by
  obtain ⟨a, m, b, rfl, rfl, rfl⟩ := exists_of_boundaries hstart hlimit hle
  rw [Cursor.within_eq]
  obtain ⟨d, hlaid⟩ := exists_laid_readRoutines maxNesting ⟨width a, a.reverse, m⟩
  have hin : (Cursor.mk (width a) a.reverse m).StandsIn (a ++ (m ++ b)) :=
    ⟨(width_reverse a).symm, by simp [Cursor.text]⟩
  have hend : d.offset ≤ width a + width m :=
    (Nat.le_add_right ..).trans (Cursor.offset_add_width_after hlaid.leadsWhole.leads).le
  have hslice : (Span.mk (width a) (width a + width m)).slice (a ++ (m ++ b)) = m :=
    hin.slice_eq (d := (Cursor.mk (width a) a.reverse m).advance m []) (by simp) rfl
  have hwords := (List.sublist_append_left _ _).subperm.trans (hlaid.bodySpots_subperm hin)
  constructor
  case starts_lt => exact hlaid.starts_lt
  case offsets =>
    intro r hr
    have hoffsets := hlaid.offsets_of_mem_descendantsOf r hr
    exact ⟨hoffsets.1, hoffsets.2.trans hend⟩
  case apart => exact hlaid.apart
  case sound => exact hlaid.sound
  case bodies_apart => exact hlaid.bodies_apart
  case words_nodup =>
    obtain ⟨l, hperm, hsublist⟩ := hwords
    exact hperm.nodup (hsublist.nodup (nodup_spots _ _))
  case words_subperm => rwa [hslice]
  case branches_le =>
    rw [hslice]
    exact hlaid.sum_complexity_le hin
  case ownerAt?_eq_some_iff => exact hlaid.ownerAt?_eq_some_iff

/-- A routine in another one, with text around them. -/
def unitWithRoutines : List Char :=
  "unit ü; ".toList ++
    ("procedure A; procedure B; begin if x then y; end; begin if z then B; end;".toList ++
      " end.".toList)

theorem isLaminar_unitWithRoutines :
    IsBoundary unitWithRoutines 9 ∧ IsBoundary unitWithRoutines 82 ∧ 9 ≤ 82 ∧
      bodies (readRoutines 64 (.within unitWithRoutines 9 82)) = [⟨64, 78⟩, ⟨40, 54⟩] ∧
      IsLaminar unitWithRoutines 9 82 (readRoutines 64 (.within unitWithRoutines 9 82)) := by
  have hstart : IsBoundary unitWithRoutines 9 := ⟨_, _, rfl, by decide⟩
  have hlimit : IsBoundary unitWithRoutines 82 :=
    ⟨_, _, (List.append_assoc ..).symm, by decide⟩
  exact ⟨hstart, hlimit, by decide, by decide +kernel,
    isLaminar_readRoutines 64 hstart hlimit (by decide)⟩

end MigrationAudit.Pascal
