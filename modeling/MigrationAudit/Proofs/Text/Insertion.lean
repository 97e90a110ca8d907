import MigrationAudit.Proofs.Text.Ahead
import MigrationAudit.Proofs.Text.Blocks
import Mathlib.Data.List.Forall2

/-!
# Texts with balanced words put in

A block scan counts the blocks that are open, and never below none. It is closed by the first word
by which more blocks are closed than opened. So a text whose words are balanced may be put in where
the scan passes: what follows is met as deep as before, only further on.
-/

namespace MigrationAudit.Text

variable {step : Word → BlockStep} {classify : List Char → BlockStep} {c d : Cursor} {w : Word}
  {depth deepest : Nat} {us ws : List Word} {steps : List BlockStep}

/-! ## The count of open blocks -/

/-- What a word does to the number of open blocks. -/
def BlockStep.change : BlockStep → Int
  | .opens => 1
  | .closes => -1
  | .aborts | .skips => 0

/-- The scan of the block that is open at `c` comes to a cursor where `n` blocks are open. It goes
on while there are any, but not behind a word that aborts it. -/
inductive Reaches (step : Word → BlockStep) (c : Cursor) : Int → Cursor → Prop
  | start : Reaches step c 1 c
  | next {n : Int} {d : Cursor} {w : Word} (reached : Reaches step c n d) (ne_zero : n ≠ 0)
      (word : d.nextWord? = some w) (not_aborts : step w ≠ .aborts) :
      Reaches step c (n + (step w).change) w.behind

/-- The number of open blocks at a cursor is what the scan has as its depth there. -/
structure IsDepthAt (step : Word → BlockStep) (c : Cursor) (n : Int) (d : Cursor) : Prop where
  nonneg : 0 ≤ n
  goes_on : n ≠ 0 → ∃ deepest, scanBlock step c = scanBlockAt step n.toNat deepest d
  closed : n = 0 → ∃ w, (scanBlock step c).ending = .closed w ∧ w.behind = d

theorem IsDepthAt.next {n : Int} (h : IsDepthAt step c n d) (hn : n ≠ 0)
    (hw : d.nextWord? = some w) (haborts : step w ≠ .aborts) :
    IsDepthAt step c (n + (step w).change) w.behind := by
  obtain ⟨k, rfl⟩ := Int.eq_ofNat_of_zero_le h.nonneg
  obtain ⟨deepest, hscan⟩ := h.goes_on hn
  rw [Int.toNat_natCast, scanBlockAt_eq_scanWords, Cursor.words_of_nextWord? hw, scanWords] at hscan
  -- the depth of the scan is the count again, unless the word closes the last block
  have hgoes_on : ∀ {m deepest : Nat}, m ≠ 0 → (k : Int) + (step w).change = m →
      scanBlock step c = scanWords step m deepest w.behind.words →
      IsDepthAt step c (k + (step w).change) w.behind := by
    intro m deepest hm hcount hscan
    rw [hcount]
    refine ⟨Int.natCast_nonneg m, fun _ => ⟨deepest, ?_⟩, fun hzero => absurd hzero (by omega)⟩
    rw [Int.toNat_natCast, scanBlockAt_eq_scanWords, hscan]
  cases hstep : step w with
  | opens =>
    rw [hstep] at hscan
    exact hstep ▸ hgoes_on (Nat.succ_ne_zero k) (by simp [hstep, BlockStep.change]) hscan
  | closes =>
    rw [hstep] at hscan
    by_cases hk : k ≤ 1
    · have hzero : (k : Int) + BlockStep.closes.change = 0 := by
        simp only [BlockStep.change]
        omega
      rw [hzero]
      exact ⟨Int.le_refl 0, fun h => absurd rfl h, fun _ => ⟨w, by rw [hscan, if_pos hk], rfl⟩⟩
    · rw [if_neg hk] at hscan
      exact hstep ▸ hgoes_on (by omega) (by simp only [hstep, BlockStep.change]; omega) hscan
  | aborts => exact absurd hstep haborts
  | skips =>
    rw [hstep] at hscan
    exact hstep ▸ hgoes_on (by omega) (by simp [hstep, BlockStep.change]) hscan

/-- The count keeps step with the scan. -/
theorem Reaches.isDepthAt {n : Int} (h : Reaches step c n d) : IsDepthAt step c n d := by
  induction h with
  | start => exact ⟨by omega, fun _ => ⟨1, rfl⟩, fun h => by omega⟩
  | next _ hn hw haborts ih => exact ih.next hn hw haborts

/-! ## The word that closes a block -/

/-- The scan ends at a word `w`, when `us` stand in front of it. -/
inductive EndsAt (step : Word → BlockStep) (depth : Nat) (us : List Word) (w : Word) :
    BlockEnd → Prop
  | closed (passed : StaysOpen depth (us.map step)) (closes : step w = .closes)
      (last : depthAfter depth (us.map step) = 1) : EndsAt step depth us w (.closed w)
  | aborted (passed : StaysOpen depth (us.map step)) (aborts : step w = .aborts) :
      EndsAt step depth us w (.aborted w)

theorem EndsAt.ending_eq {e : BlockEnd} (h : EndsAt step depth us w e) (hle : depth ≤ deepest)
    (rest : List Word) : (scanWords step depth deepest (us ++ w :: rest)).ending = e := by
  cases h with
  | closed passed closes last =>
    rw [scanWords_append _ rfl passed hle, scanWords, closes, last]
    rfl
  | aborted passed aborts =>
    rw [scanWords_append _ rfl passed hle, scanWords, aborts]

/-- Words leave a block open, or the scan ends at one of them. -/
theorem staysOpen_or_endsAt (step : Word → BlockStep) (hdepth : 0 < depth) (ws : List Word) :
    StaysOpen depth (ws.map step) ∨
      ∃ us w rest e, ws = us ++ w :: rest ∧ EndsAt step depth us w e := by
  induction ws generalizing depth with
  | nil => exact .inl (staysOpen_nil_iff.mpr hdepth)
  | cons v ws ih =>
    have hnil : StaysOpen depth ([].map step) := staysOpen_nil_iff.mpr hdepth
    by_cases haborts : step v = .aborts
    · exact .inr ⟨[], v, ws, .aborted v, rfl, .aborted hnil haborts⟩
    rcases Nat.eq_zero_or_pos (depthAfter depth [step v]) with hzero | hpos
    · have hcloses : step v = .closes ∧ depth = 1 := by
        cases hstep : step v <;> simp [depthAfter, hstep] at hzero ⊢ <;> omega
      exact .inr ⟨[], v, ws, .closed v, rfl, .closed hnil hcloses.1 hcloses.2⟩
    · have hcons : ∀ us : List Word, StaysOpen (depthAfter depth [step v]) (us.map step) →
          StaysOpen depth ((v :: us).map step) := fun us h =>
        staysOpen_cons_iff.mpr ⟨hdepth, haborts, h⟩
      rcases ih hpos with h | ⟨us, w, rest, e, rfl, h⟩
      · exact .inl (hcons ws h)
      · refine .inr ⟨v :: us, w, rest, e, rfl, ?_⟩
        cases h with
        | closed passed closes last =>
          refine .closed (hcons us passed) closes ?_
          rw [List.map_cons, depthAfter_cons hdepth, last]
        | aborted passed aborts => exact .aborted (hcons us passed) aborts

/-- One more block is closed than opened. -/
def Exceeds (steps : List BlockStep) : Prop :=
  steps.count .closes = steps.count .opens + 1

/-- Up to a word one more block is closed than opened, for the first time, and no word aborts the
block. -/
def FirstExceedsAt (step : Word → BlockStep) (ws : List Word) (w : Word) : Prop :=
  ∃ us rest, ws = us ++ w :: rest ∧ Exceeds ((us ++ [w]).map step) ∧
    (∀ p, p <+: us.map step → ¬Exceeds p) ∧ .aborts ∉ (us ++ [w]).map step

/-- Each word closes one block at most, so the blocks that are closed exceed those that are opened
by one before they do by more. -/
theorem closes_le_of_not_exceeds (h : ∀ p, p <+: steps → ¬Exceeds p) :
    ∀ p, p <+: steps → p.count .closes ≤ p.count .opens := by
  intro p hp
  induction p using List.reverseRecOn with
  | nil => simp
  | append_singleton p x ih =>
    have hle := ih ((List.prefix_append p [x]).trans hp)
    have hne := h _ hp
    cases x <;> simp [Exceeds] at hne ⊢ <;> omega

theorem firstExceedsAt_iff :
    FirstExceedsAt step ws w ↔
      ∃ us rest, ws = us ++ w :: rest ∧ EndsAt step 1 us w (.closed w) := by
  constructor
  · rintro ⟨us, rest, hws, hexceeds, hfirst, haborts⟩
    have hle := closes_le_of_not_exceeds hfirst
    have hus := hle _ List.prefix_rfl
    rw [List.map_append, List.map_singleton] at haborts hexceeds
    rw [List.mem_append, List.mem_singleton, not_or] at haborts
    refine ⟨us, rest, hws, .closed ⟨fun p hp => ?_, haborts.1⟩ ?_ ?_⟩
    · have := hle p hp
      omega
    · cases hstep : step w <;> simp [Exceeds, hstep] at hexceeds ⊢ <;> omega
    · rw [depthAfter]
      cases hstep : step w <;> simp [Exceeds, hstep] at hexceeds ⊢ <;> omega
  · rintro ⟨us, rest, hws, h⟩
    cases h with
    | closed passed closes last =>
      have hlt := passed.closes_lt _ List.prefix_rfl
      refine ⟨us, rest, hws, ?_, fun p hp => ?_, ?_⟩
      · rw [depthAfter] at last
        simp only [Exceeds, List.map_append, List.map_singleton, closes, List.count_append]
        simp
        omega
      · have := passed.closes_lt p hp
        simp only [Exceeds]
        omega
      · simp [closes, passed.not_aborts]

/-- A scan is closed at the first word by which more blocks are closed than opened. -/
theorem closed_iff_firstExceedsAt (step : Word → BlockStep) (c : Cursor) (w : Word) :
    (scanBlock step c).ending = .closed w ↔ FirstExceedsAt step c.words w := by
  rw [firstExceedsAt_iff, scanBlock, scanBlockAt_eq_scanWords]
  constructor
  · intro h
    rcases staysOpen_or_endsAt step Nat.one_pos c.words with hopen | ⟨us, v, rest, e, hwords, hends⟩
    · have hscan := scanWords_append [] rfl hopen (le_refl 1)
      rw [List.append_nil] at hscan
      rw [hscan, scanWords] at h
      simp at h
    · rw [hwords, hends.ending_eq le_rfl] at h
      subst h
      cases hends with
      | closed passed closes last => exact ⟨us, rest, hwords, .closed passed closes last⟩
  · rintro ⟨us, rest, hwords, h⟩
    rw [hwords, h.ending_eq le_rfl]

/-! ## The same words further on -/

/-- A word repeats another one, `n` bytes further on. -/
structure Word.IsShifted (n : Nat) (v w : Word) : Prop where
  text_eq : w.text = v.text
  start_eq : w.start = v.start + n
  stop_eq : w.stop = v.stop + n

/-- A scan ends in the same way, `n` bytes further on. -/
inductive BlockEnd.IsShifted (n : Nat) : BlockEnd → BlockEnd → Prop
  | closed {v w : Word} (word : v.IsShifted n w) : IsShifted n (.closed v) (.closed w)
  | aborted {v w : Word} (word : v.IsShifted n w) : IsShifted n (.aborted v) (.aborted w)
  | unterminated : IsShifted n .unterminated .unterminated

/-- The same text has the same words, wherever it starts. -/
theorem forall₂_isShifted {n : Nat} (hafter : d.after = c.after)
    (hoffset : d.offset = c.offset + n) :
    List.Forall₂ (Word.IsShifted n) c.words d.words := by
  induction hlength : c.after.length using Nat.strong_induction_on generalizing c d with
  | _ k ih =>
    rcases exists_first_word c.after with hgap | ⟨gap, word, rest, heq, hgap, hne, hword, hrest⟩
    · have hnone : c.nextWord? = none := Cursor.nextWord?_eq_none_iff.mpr hgap
      have hnone' : d.nextWord? = none := Cursor.nextWord?_eq_none_iff.mpr (hafter ▸ hgap)
      rw [Cursor.words_of_nextWord?_eq_none hnone, Cursor.words_of_nextWord?_eq_none hnone']
      exact .nil
    · have hnext := Cursor.nextWord?_of_after heq hgap hne hword hrest
      have hnext' := Cursor.nextWord?_of_after (hafter.trans heq) hgap hne hword hrest
      have hlt : rest.length < k := by
        have := List.length_pos_iff.mpr hne
        rw [← hlength, heq]
        simp only [List.length_append]
        omega
      have hshift : ∀ m : Nat, d.offset + m = c.offset + m + n := fun m => by omega
      rw [Cursor.words_of_nextWord? hnext, Cursor.words_of_nextWord? hnext']
      exact .cons ⟨rfl, hshift _, hshift _⟩ (ih rest.length hlt rfl (hshift _) rfl)

/-- What a scan does at a word, when only the text of the word decides. -/
def stepOf (classify : List Char → BlockStep) (w : Word) : BlockStep := classify w.text

/-- Words further on are scanned in the same way, and what has been deepest before stays in it. -/
theorem scanWords_isShifted {n m : Nat} {ws' : List Word}
    (h : List.Forall₂ (Word.IsShifted n) ws ws') :
    (scanWords (stepOf classify) depth deepest ws).ending.IsShifted n
        (scanWords (stepOf classify) depth (max deepest m) ws').ending ∧
      (scanWords (stepOf classify) depth (max deepest m) ws').maxDepth =
        max (scanWords (stepOf classify) depth deepest ws).maxDepth m := by
  induction h generalizing depth deepest with
  | nil => exact ⟨.unterminated, rfl⟩
  | @cons v w ws ws' hw _ ih =>
    have hstep : stepOf classify w = stepOf classify v := congrArg classify hw.text_eq
    rw [scanWords, scanWords, hstep]
    cases stepOf classify v with
    | opens =>
      have hmax : max (max deepest m) (depth + 1) = max (max deepest (depth + 1)) m := by omega
      simp only [hmax]
      exact ih
    | closes =>
      by_cases hdepth : depth ≤ 1
      · simp only [if_pos hdepth]
        exact ⟨.closed hw, trivial⟩
      · simp only [if_neg hdepth]
        exact ih
    | aborts => exact ⟨.aborted hw, rfl⟩
    | skips => exact ih

/-! ## Insertion -/

/-- A text `x` is put in between two others so that no word is cut, and none reaches over an edge
of it. -/
structure SetOff (a x b : List Char) : Prop where
  cut : a.getLast?.any isIdent = false ∨ b.head?.any isIdent = false
  front : a.getLast?.any isIdent = false ∨ x.head?.any isIdent = false
  back : x.getLast?.any isIdent = false ∨ b.head?.any isIdent = false

theorem SetOff.front_append {a x b : List Char} (h : SetOff a x b) :
    a.getLast?.any isIdent = false ∨ (x ++ b).head?.any isIdent = false := by
  cases x with
  | nil => exact h.cut
  | cons e x => exact h.front

/-- White space sets a text off. -/
theorem SetOff.of_isBlank {a lead fragment trail b : List Char}
    (hcut : a.getLast?.any isIdent = false ∨ b.head?.any isIdent = false)
    (hlead : lead ≠ []) (hblank : ∀ e ∈ lead, isBlank e = true)
    (htrail : trail ≠ []) (hblank' : ∀ e ∈ trail, isBlank e = true) :
    SetOff a (lead ++ (fragment ++ trail)) b := by
  obtain ⟨e, lead, rfl⟩ := List.exists_cons_of_ne_nil hlead
  refine ⟨hcut, .inr ?_, .inl ?_⟩
  · simp [isIdent_of_isBlank e (hblank e List.mem_cons_self)]
  · have hlast := isIdent_of_isBlank _ (hblank' _ (List.getLast_mem htrail))
    rw [← List.append_assoc,
      List.getLast?_append_of_ne_nil _ htrail, List.getLast?_eq_some_getLast htrail]
    simpa using hlast

/-- The words of a text that is cut between two words: those in front do what they do alone. -/
theorem exists_words_of_cut (classify : List Char → BlockStep) {a rest : List Char}
    (hafter : c.after = a ++ rest)
    (hcut : a.getLast?.any isIdent = false ∨ rest.head?.any isIdent = false) :
    ∃ ws, c.words = ws ++ (c.advance a rest).words ∧
      ws.map (stepOf classify) = (words a).map (stepOf classify) ∧
      ∀ w ∈ ws, w.start < c.offset + width a := by
  have hedge : a = [] ∨ (c.advance a rest).AtEdge := by
    rcases List.eq_nil_or_concat a with rfl | ⟨front, e, rfl⟩
    · exact .inl rfl
    · refine .inr (hcut.imp_left fun h => ?_)
      rw [Cursor.head?_before_advance]
      simpa using h
  obtain ⟨ws, hwords, hspots⟩ := Cursor.exists_words_advance hafter hedge
  refine ⟨ws, hwords, ?_, fun w hw => ?_⟩
  · have htext : ws.map (·.text) = (words a).map (·.text) := by
      rw [← map_snd_spots c.offset, ← hspots, List.map_map]
      rfl
    have hsteps := congrArg (List.map classify) htext
    rwa [List.map_map, List.map_map] at hsteps
  · obtain ⟨v, hv, hspot⟩ := List.mem_map.mp (hspots ▸ List.mem_map_of_mem hw)
    have hwhole := Cursor.isWhole_of_mem_words hv
    have hoffset := Cursor.offset_add_width_after (Cursor.leadsWhole_of_mem_words hv).1.leads
    have hpos : 0 < width v.first.after := by
      rw [hwhole.after_eq, width_append]
      exact Nat.add_pos_left (width_pos hwhole.ne_nil) _
    have hstart : w.start = v.first.offset := (congrArg Prod.fst hspot).symm
    simp only at hoffset
    omega

/-- The scan passes the place `n` before it ends. -/
def BlockEnd.IsBehind (n : Nat) : BlockEnd → Prop
  | .closed w | .aborted w => n ≤ w.start
  | .unterminated => True

instance (n : Nat) : (e : BlockEnd) → Decidable (e.IsBehind n)
  | .closed w | .aborted w => inferInstanceAs (Decidable (n ≤ w.start))
  | .unterminated => inferInstanceAs (Decidable True)

/-- A balanced text `x` is put in between `a` and `b`, at a place that the scan from `c` passes. -/
structure IsInsertion (classify : List Char → BlockStep) (c : Cursor) (a x b : List Char) :
    Prop where
  setOff : SetOff a x b
  balanced : IsBalanced ((words x).map (stepOf classify))
  inside : (scanBlock (stepOf classify) c).ending.IsBehind (c.offset + width a)

namespace IsInsertion

variable {a x b : List Char} (h : IsInsertion classify c a x b) (hafter : c.after = a ++ b)
include h hafter

/-- The words in front of a place that is passed leave the block open. -/
theorem staysOpen : StaysOpen 1 ((words a).map (stepOf classify)) := by
  obtain ⟨ws, hwords, hsteps, hstart⟩ := exists_words_of_cut classify hafter h.setOff.cut
  rw [← hsteps]
  refine (staysOpen_or_endsAt _ Nat.one_pos ws).resolve_right ?_
  rintro ⟨us, w, rest, e, rfl, hends⟩
  have hlt := hstart w (by simp)
  have hinside := h.inside
  rw [scanBlock, scanBlockAt_eq_scanWords, hwords, List.append_assoc, List.cons_append,
    hends.ending_eq le_rfl] at hinside
  cases hends <;> exact absurd hlt (Nat.not_lt.mpr hinside)

/-- An insertion leaves a scan as it is, but for where it ends and how deep it comes. -/
theorem scan_isShifted (hafter' : d.after = a ++ (x ++ b)) (hoffset : d.offset = c.offset) :
    (scanBlock (stepOf classify) c).ending.IsShifted (width x)
        (scanBlock (stepOf classify) d).ending ∧
      (scanBlock (stepOf classify) d).maxDepth =
        max (scanBlock (stepOf classify) c).maxDepth
          (depthAfter 1 ((words a).map (stepOf classify)) +
            peak 0 ((words x).map (stepOf classify))) := by
  have hopen := h.staysOpen hafter
  have hinserted := h.balanced.staysOpen hopen.depthAfter_pos
  have hdeepest := (depthAfter_le_peak 1 (List.prefix_refl ((words a).map (stepOf classify)))).trans
    (Nat.le_max_right 1 _)
  obtain ⟨us, hus, hsteps, -⟩ := exists_words_of_cut classify hafter h.setOff.cut
  obtain ⟨us', hus', hsteps', -⟩ := exists_words_of_cut classify hafter' h.setOff.front_append
  obtain ⟨vs, hvs, hvsteps, -⟩ := exists_words_of_cut classify
    (Cursor.after_advance d a (x ++ b)) h.setOff.back
  have hrest : List.Forall₂ (Word.IsShifted (width x)) (c.advance a b).words
      ((d.advance a (x ++ b)).advance x b).words :=
    forall₂_isShifted rfl (by simp only [Cursor.offset_advance, hoffset])
  rw [scanBlock, scanBlock, scanBlockAt_eq_scanWords, scanBlockAt_eq_scanWords, hus, hus', hvs,
    scanWords_append _ hsteps hopen le_rfl, scanWords_append _ hsteps' hopen le_rfl,
    scanWords_append _ hvsteps hinserted hdeepest, h.balanced.depthAfter_eq, h.balanced.peak_eq]
  exact scanWords_isShifted hrest

end IsInsertion

/-- How the block that is open at byte `start` of a text is scanned, when only the text of a word
decides what it does. The open blocks are counted, and there are never less than none. The first
word that closes one more than are opened closes the block. What is balanced may be put in, which
moves the end and lets the scan come as deep as the insertion does. -/
structure ScansByCount (classify : List Char → BlockStep) (code : List Char) (start : Nat) :
    Prop where
  counted : ∀ n d, Reaches (stepOf classify) ((Cursor.ofText code).seek start) n d →
    IsDepthAt (stepOf classify) ((Cursor.ofText code).seek start) n d
  closed_iff : ∀ w,
    (scanBlock (stepOf classify) ((Cursor.ofText code).seek start)).ending = .closed w ↔
      FirstExceedsAt (stepOf classify) ((Cursor.ofText code).seek start).words w
  inserted : ∀ front a x b, code = front ++ (a ++ b) → width front = start →
    IsInsertion classify ((Cursor.ofText code).seek start) a x b →
    let before := scanBlock (stepOf classify) ((Cursor.ofText code).seek start)
    let after := scanBlock (stepOf classify)
      ((Cursor.ofText (front ++ (a ++ (x ++ b)))).seek start)
    before.ending.IsShifted (width x) after.ending ∧
      after.maxDepth = max before.maxDepth
        (depthAfter 1 ((words a).map (stepOf classify)) + peak 0 ((words x).map (stepOf classify)))

theorem scansByCount (classify : List Char → BlockStep) (code : List Char) (start : Nat) :
    ScansByCount classify code start := by
  constructor
  case counted => exact fun _ _ h => h.isDepthAt
  case closed_iff => exact closed_iff_firstExceedsAt _ _
  case inserted =>
    rintro front a x b rfl rfl h
    rw [Cursor.seek_ofText] at h ⊢
    rw [Cursor.seek_ofText]
    exact h.scan_isShifted rfl rfl rfl

/-- Blocks between `begin` and `end`. -/
def beginEnd (word : List Char) : BlockStep :=
  if word = "begin".toList then .opens else if word = "end".toList then .closes else .skips

/-- A block, and one inside it that goes two deeper. -/
theorem scansByCount_beginEnd :
    let a := " if x then".toList
    let x := [' '] ++ ("begin begin y end end;".toList ++ [' '])
    let b := " begin z end; end; rest".toList
    let before := scanBlock (stepOf beginEnd) ((Cursor.ofText ("begin".toList ++ (a ++ b))).seek 5)
    let after := scanBlock (stepOf beginEnd)
      ((Cursor.ofText ("begin".toList ++ (a ++ (x ++ b)))).seek 5)
    before.stop 0 = 32 ∧ before.maxDepth = 2 ∧ after.stop 0 = 56 ∧
      before.ending.IsShifted 24 after.ending ∧ after.maxDepth = max 2 (1 + 2) := by
  intro a x b before after
  have hblank : ∀ e ∈ [' '], isBlank e = true := List.forall_mem_singleton.mpr rfl
  have hsetOff : SetOff a x b :=
    .of_isBlank (.inr rfl) (List.cons_ne_nil _ _) hblank (List.cons_ne_nil _ _) hblank
  have hinsertion : IsInsertion beginEnd ((Cursor.ofText ("begin".toList ++ (a ++ b))).seek 5)
      a x b := ⟨hsetOff, by decide +kernel, by decide +kernel⟩
  obtain ⟨hending, hdepth⟩ := (scansByCount beginEnd ("begin".toList ++ (a ++ b)) 5).inserted
    "begin".toList a x b rfl rfl hinsertion
  refine ⟨by decide +kernel, by decide +kernel, by decide +kernel, hending, hdepth.trans ?_⟩
  decide +kernel

end MigrationAudit.Text
