import MigrationAudit.Text.Block
import MigrationAudit.Proofs.Text.Words
import Mathlib.Data.List.Infix
import Mathlib.Data.List.MinMax
import Mathlib.Order.Nat

/-!
# Block scans, word by word

A block scan is a walk over the words behind the cursor. Words that are balanced among themselves
leave the depth as they find it, so the scan goes on behind them as if they were not there.
-/

namespace MigrationAudit.Text

/-- A block scan over words in a row. -/
def scanWords (step : Word → BlockStep) (depth deepest : Nat) : List Word → BlockScan
  | [] => ⟨.unterminated, deepest⟩
  | w :: ws =>
    match step w with
    | .opens => scanWords step (depth + 1) (max deepest (depth + 1)) ws
    | .closes => if depth ≤ 1 then ⟨.closed w, deepest⟩ else scanWords step (depth - 1) deepest ws
    | .aborts => ⟨.aborted w, deepest⟩
    | .skips => scanWords step depth deepest ws

theorem scanBlockAt_eq_scanWords (step : Word → BlockStep) (depth deepest : Nat) (c : Cursor) :
    scanBlockAt step depth deepest c = scanWords step depth deepest c.words := by
  fun_induction scanBlockAt step depth deepest c with
  | case1 _ _ _ h => rw [Cursor.words_of_nextWord?_eq_none h, scanWords]
  | case2 _ _ _ w h hstep ih | case6 _ _ _ w h hstep ih =>
    rw [Cursor.words_of_nextWord? h, scanWords, hstep, ih]
  | case3 _ _ _ w h hstep hdepth =>
    rw [Cursor.words_of_nextWord? h, scanWords, hstep]
    exact (if_pos hdepth).symm
  | case4 _ _ _ w h hstep hdepth ih =>
    rw [Cursor.words_of_nextWord? h, scanWords, hstep, ih]
    exact (if_neg hdepth).symm
  | case5 _ _ _ w h hstep => rw [Cursor.words_of_nextWord? h, scanWords, hstep]

theorem mem_of_scanWords_closed {step : Word → BlockStep} {depth deepest : Nat} {ws : List Word}
    {w : Word} (h : (scanWords step depth deepest ws).ending = .closed w) : w ∈ ws := by
  fun_induction scanWords step depth deepest ws <;> simp_all

theorem mem_of_scanWords_aborted {step : Word → BlockStep} {depth deepest : Nat} {ws : List Word}
    {w : Word} (h : (scanWords step depth deepest ws).ending = .aborted w) : w ∈ ws := by
  fun_induction scanWords step depth deepest ws <;> simp_all

/-! ## Balanced words -/

/-- In every beginning no more blocks are closed than opened, in the end as many, and nothing aborts
them. -/
structure IsBalanced (steps : List BlockStep) : Prop where
  closes_le : ∀ p, p <+: steps → p.count .closes ≤ p.count .opens
  closes_eq : steps.count .closes = steps.count .opens
  not_aborts : .aborts ∉ steps

instance (steps : List BlockStep) : Decidable (IsBalanced steps) :=
  decidable_of_iff ((∀ p ∈ steps.inits, p.count .closes ≤ p.count .opens) ∧
      steps.count .closes = steps.count .opens ∧ .aborts ∉ steps)
    ⟨fun ⟨hle, heq, habort⟩ => ⟨fun p hp => hle p ((List.mem_inits p steps).mpr hp), heq, habort⟩,
      fun h => ⟨fun p hp => h.closes_le p ((List.mem_inits p steps).mp hp), h.closes_eq,
        h.not_aborts⟩⟩

/-- How many blocks are open behind words, when `depth` are open in front of them. -/
def depthAfter (depth : Nat) (steps : List BlockStep) : Nat :=
  depth + steps.count .opens - steps.count .closes

/-- The most blocks that are ever open among words, when `depth` are open in front of them. -/
def peak (depth : Nat) (steps : List BlockStep) : Nat :=
  (steps.inits.map (depthAfter depth)).foldr max 0

/-- Of the blocks that are open in front of words one stays open, and nothing aborts it. -/
structure StaysOpen (depth : Nat) (steps : List BlockStep) : Prop where
  closes_lt : ∀ p, p <+: steps → p.count .closes < depth + p.count .opens
  not_aborts : .aborts ∉ steps

section

variable {depth : Nat} {x : BlockStep} {steps : List BlockStep}

@[simp] theorem depthAfter_nil (depth : Nat) : depthAfter depth [] = depth := rfl

theorem depthAfter_cons (h : 0 < depth) (x : BlockStep) (steps : List BlockStep) :
    depthAfter depth (x :: steps) = depthAfter (depthAfter depth [x]) steps := by
  cases x <;> simp [depthAfter] <;> omega

theorem peak_cons (h : 0 < depth) (x : BlockStep) (steps : List BlockStep) :
    peak depth (x :: steps) = max depth (peak (depthAfter depth [x]) steps) := by
  rw [peak, peak, List.inits_cons, List.map_cons, List.foldr_cons, List.map_map]
  congr 2
  exact List.map_congr_left fun p _ => depthAfter_cons h x p

theorem depthAfter_le_peak (depth : Nat) {p : List BlockStep} (h : p <+: steps) :
    depthAfter depth p ≤ peak depth steps := by
  have hmem := (List.mem_inits p steps).mpr h
  exact List.le_max_of_le (List.mem_map_of_mem (f := depthAfter depth) hmem) le_rfl

theorem StaysOpen.pos (h : StaysOpen depth steps) : 0 < depth := by
  simpa using h.closes_lt [] List.nil_prefix

theorem staysOpen_nil_iff : StaysOpen depth [] ↔ 0 < depth :=
  ⟨StaysOpen.pos, fun h => ⟨fun p hp => by simpa [List.prefix_nil.mp hp] using h, List.not_mem_nil⟩⟩

theorem staysOpen_cons_iff :
    StaysOpen depth (x :: steps) ↔
      0 < depth ∧ x ≠ .aborts ∧ StaysOpen (depthAfter depth [x]) steps := by
  constructor
  · intro h
    obtain ⟨haborts, hrest⟩ := not_or.mp (List.mem_cons.not.mp h.not_aborts)
    refine ⟨h.pos, fun heq => haborts heq.symm, fun p hp => ?_, hrest⟩
    have hp := h.closes_lt (x :: p) (List.cons_prefix_cons.mpr ⟨rfl, hp⟩)
    cases x <;> simp [depthAfter] at hp ⊢ <;> omega
  · rintro ⟨hdepth, haborts, h⟩
    refine ⟨fun p hp => ?_, by simpa [List.mem_cons, @eq_comm _ _ x] using ⟨haborts, h.not_aborts⟩⟩
    rcases List.prefix_cons_iff.mp hp with rfl | ⟨q, rfl, hq⟩
    · simpa using hdepth
    · have hq := h.closes_lt q hq
      cases x <;> simp [depthAfter] at hq ⊢ <;> omega

theorem StaysOpen.depthAfter_pos (h : StaysOpen depth steps) : 0 < depthAfter depth steps := by
  have := h.closes_lt steps List.prefix_rfl
  rw [depthAfter]
  omega

/-- Balanced words leave open what is open in front of them. -/
theorem IsBalanced.staysOpen (h : IsBalanced steps) (hdepth : 0 < depth) : StaysOpen depth steps :=
  ⟨fun p hp => (h.closes_le p hp).trans_lt (Nat.lt_add_of_pos_left hdepth), h.not_aborts⟩

theorem IsBalanced.depthAfter_eq (h : IsBalanced steps) : depthAfter depth steps = depth := by
  rw [depthAfter, h.closes_eq, Nat.add_sub_cancel]

theorem foldr_max_add (n : Nat) {ns : List Nat} (h : ns ≠ []) :
    (ns.map (n + ·)).foldr max 0 = n + ns.foldr max 0 := by
  induction ns with
  | nil => exact absurd rfl h
  | cons m ns ih =>
    cases ns with
    | nil => simp
    | cons k ns =>
      rw [List.map_cons, List.foldr_cons, ih (List.cons_ne_nil k ns), Nat.add_max_add_left]
      rfl

/-- Among balanced words the most blocks are open where most of their own are. -/
theorem IsBalanced.peak_eq (h : IsBalanced steps) : peak depth steps = depth + peak 0 steps := by
  have hne : steps.inits.map (depthAfter 0) ≠ [] := by cases steps <;> simp
  rw [peak, peak, ← foldr_max_add depth hne, List.map_map]
  congr 1
  refine List.map_congr_left fun p hp => ?_
  have hle := h.closes_le p ((List.mem_inits p steps).mp hp)
  simp only [depthAfter, Function.comp_apply, Nat.zero_add]
  omega

end

/-- A scan goes on behind words that leave a block open, as deep as they do. -/
theorem scanWords_append {step : Word → BlockStep} {ws : List Word} {steps : List BlockStep}
    (rest : List Word) {depth deepest : Nat} (hws : ws.map step = steps)
    (h : StaysOpen depth steps) (hle : depth ≤ deepest) :
    scanWords step depth deepest (ws ++ rest) =
      scanWords step (depthAfter depth steps) (max deepest (peak depth steps)) rest := by
  induction ws generalizing steps depth deepest with
  | nil =>
    obtain rfl := hws
    simp [peak, hle]
  | cons w ws ih =>
    obtain rfl := hws
    rw [List.map_cons, staysOpen_cons_iff] at h
    obtain ⟨hdepth, haborts, h⟩ := h
    have hpos := h.pos
    have hpeak : depthAfter depth [step w] ≤ peak (depthAfter depth [step w]) (ws.map step) :=
      depthAfter_le_peak _ List.nil_prefix
    rw [List.map_cons, depthAfter_cons hdepth, peak_cons hdepth, List.cons_append, scanWords]
    cases hstep : step w with
    | opens =>
      have hafter : depthAfter depth [.opens] = depth + 1 := rfl
      simp only [hstep, hafter] at h hpeak ⊢
      rw [ih rfl h (le_max_right _ _)]
      congr 1
      omega
    | closes =>
      have hafter : depthAfter depth [.closes] = depth - 1 := rfl
      simp only [hstep, hafter] at h hpos ⊢
      rw [if_neg (by omega), ih rfl h (by omega)]
      congr 1
      omega
    | aborts => exact absurd hstep haborts
    | skips =>
      have hafter : depthAfter depth [.skips] = depth := rfl
      simp only [hstep, hafter] at h ⊢
      rw [ih rfl h hle]
      congr 1
      omega

theorem isBalanced_of_skips {steps : List BlockStep} (h : ∀ x ∈ steps, x = .skips) :
    IsBalanced steps := by
  have hnone : ∀ x : BlockStep, x ≠ .skips → x ∉ steps := fun x hx hmem => hx (h x hmem)
  refine ⟨fun p hp => ?_, ?_, hnone .aborts (by decide)⟩
  · rw [List.count_eq_zero.mpr fun hmem => hnone .closes (by decide) (hp.mem hmem)]
    exact Nat.zero_le _
  · rw [List.count_eq_zero.mpr (hnone .closes (by decide)),
      List.count_eq_zero.mpr (hnone .opens (by decide))]

/-! ## Where a scan stops -/

/-- A block ends behind balanced words, at the word that closes it. -/
theorem scanBlock_eq_closed {step : Word → BlockStep} {c : Cursor} {ws rest : List Word} {w : Word}
    (hwords : c.words = ws ++ w :: rest) (hbalanced : IsBalanced (ws.map step))
    (hstep : step w = .closes) :
    scanBlock step c = ⟨.closed w, max 1 (peak 1 (ws.map step))⟩ := by
  rw [scanBlock, scanBlockAt_eq_scanWords, hwords,
    scanWords_append _ rfl (hbalanced.staysOpen Nat.one_pos) le_rfl, hbalanced.depthAfter_eq,
    scanWords, hstep]
  rfl

theorem exists_scanBlock_closed {step : Word → BlockStep} {c : Cursor} {ws : List Word}
    {moved word rest : List Char}
    (hwords : c.words = ws ++ (c.advance moved (word ++ rest)).words)
    (hbalanced : IsBalanced (ws.map step)) (hne : word ≠ [])
    (hident : ∀ a ∈ word, isIdent a = true) (hrest : rest.head?.any isIdent = false)
    (hstep : step ⟨c.advance moved (word ++ rest), word, c.advance (moved ++ word) rest⟩ =
      .closes) :
    ∃ deepest, scanBlock step c =
      ⟨.closed ⟨c.advance moved (word ++ rest), word, c.advance (moved ++ word) rest⟩,
        deepest⟩ := by
  have hafter : (c.advance moved (word ++ rest)).after = [] ++ (word ++ rest) := rfl
  have hnext := Cursor.nextWord?_of_after hafter (List.forall_mem_nil _) hne hident hrest
  rw [List.nil_append, Cursor.advance_advance, Cursor.advance_advance, List.append_nil] at hnext
  rw [Cursor.words_of_nextWord? hnext] at hwords
  exact ⟨_, scanBlock_eq_closed hwords hbalanced hstep⟩

theorem Cursor.leadsWhole_of_mem_words {c : Cursor} {w : Word} (h : w ∈ c.words) :
    c.LeadsWhole w.first ∧ w.first.LeadsWhole w.behind := by
  fun_induction Cursor.words c with
  | case1 => simp at h
  | case2 c v hv ih =>
    obtain ⟨hfirst, hbehind⟩ := Cursor.leadsWhole_nextWord? hv
    rcases List.mem_cons.mp h with rfl | h
    · exact ⟨hfirst, hbehind⟩
    · exact ⟨(hfirst.trans hbehind).trans (ih h).1, (ih h).2⟩

theorem leadsWhole_of_scanBlock_closed {step : Word → BlockStep} {c : Cursor} {w : Word}
    (h : (scanBlock step c).ending = .closed w) :
    c.LeadsWhole w.first ∧ w.first.LeadsWhole w.behind := by
  rw [scanBlock, scanBlockAt_eq_scanWords] at h
  exact Cursor.leadsWhole_of_mem_words (mem_of_scanWords_closed h)

theorem leadsWhole_of_scanBlock_aborted {step : Word → BlockStep} {c : Cursor} {w : Word}
    (h : (scanBlock step c).ending = .aborted w) :
    c.LeadsWhole w.first ∧ w.first.LeadsWhole w.behind := by
  rw [scanBlock, scanBlockAt_eq_scanWords] at h
  exact Cursor.leadsWhole_of_mem_words (mem_of_scanWords_aborted h)

end MigrationAudit.Text
