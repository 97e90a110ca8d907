import MigrationAudit.Coverage.Score
import MigrationAudit.Proofs.Scalar.Counted

/-!
# Confidences

Both entities of a score have the same part in it: each signal compares the two, so it speaks as much
for one as for the other. The points of all signals are reckoned from counts, and so are confidences.
They are never below zero, never above one, and more points never make less confidence.
-/

namespace MigrationAudit

open Scalar (IsCounted)

/-! ## Similarity -/

def agreements (as bs : List Char) : ℕ := (as.zip bs).countP fun xy => xy.1 == xy.2

section Agreements

variable {as bs : List Char}

theorem agreements_comm (as bs : List Char) : agreements as bs = agreements bs as := by
  unfold agreements
  rw [← List.zip_swap, List.countP_map]
  apply List.countP_congr
  rintro ⟨x, y⟩ _
  change (y == x) = true ↔ (x == y) = true
  rw [Bool.beq_comm]

theorem agreements_le : agreements as bs ≤ max as.length bs.length :=
  calc agreements as bs ≤ (as.zip bs).length := List.countP_le_length
    _ = min as.length bs.length := List.length_zip
    _ ≤ max as.length bs.length := min_le_max

/-- Texts agree in as many places as the longer one has only if they are equal. -/
theorem agreements_eq_max_iff : agreements as bs = max as.length bs.length ↔ as = bs := by
  constructor
  · intro hmax
    have hzip : (as.zip bs).length = min as.length bs.length := List.length_zip
    have hcount : agreements as bs ≤ (as.zip bs).length := List.countP_le_length
    have hall : agreements as bs = (as.zip bs).length := by omega
    have hagree : ∀ xy ∈ as.zip bs, xy.1 == xy.2 := List.countP_eq_length.mp hall
    rw [← List.forall₂_eq_eq_eq, List.forall₂_iff_zip]
    exact ⟨by omega, fun hxy => eq_of_beq (hagree _ hxy)⟩
  · rintro rfl
    unfold agreements
    rw [max_self, List.countP_eq_length.mpr, List.length_zip, min_self]
    intro xy hxy
    exact beq_of_eq ((List.forall₂_iff_zip.mp (List.forall₂_refl as)).2 hxy)

end Agreements

section Similarity

variable {α : Type} [Scalar α] (a b : String)

theorem similarity_eq : (similarity a b : α) =
    if a = "" ∨ b = "" then Scalar.ofNat 0
    else Scalar.ratio (agreements a.toList b.toList) (max a.toList.length b.toList.length) :=
  if_congr (by simp) rfl rfl

theorem similarity_comm : (similarity a b : α) = similarity b a := by
  rw [similarity_eq, similarity_eq, agreements_comm, max_comm]
  exact if_congr or_comm rfl rfl

theorem max_length_pos {a b : String} (h : ¬ (a = "" ∨ b = "")) :
    0 < max a.toList.length b.toList.length := by
  apply lt_max_of_lt_left
  apply List.length_pos_of_ne_nil
  rw [ne_eq, String.toList_eq_nil_iff]
  exact (not_or.mp h).1

theorem isCounted_similarity : IsCounted (similarity a b : α) := by
  rw [similarity_eq]
  split_ifs with hempty
  · exact IsCounted.ofNat 0
  · exact IsCounted.ratio _ (max_length_pos hempty)

theorem similarity_le_one [MonotoneScalar α] : (similarity a b : α) ≤ Scalar.ofNat 1 := by
  rw [similarity_eq]
  split_ifs with hempty
  · exact MonotoneScalar.ofNat_le (Nat.zero_le 1)
  · exact Scalar.ratio_le_one (max_length_pos hempty) agreements_le

theorem similarity_eq_one_iff : (similarity a b : ℚ) = 1 ↔ a = b ∧ a ≠ "" := by
  rw [similarity_eq]
  split_ifs with hempty
  · constructor
    · intro hzero
      exact absurd hzero (by decide +kernel)
    · rintro ⟨rfl, hne⟩
      exact absurd (or_self_iff.mp hempty) hne
  · have hmax : (max a.toList.length b.toList.length : ℕ) ≠ (0 : ℚ) :=
      Nat.cast_ne_zero.mpr (max_length_pos hempty).ne'
    change ((_ : ℕ) : ℚ) / (_ : ℕ) = 1 ↔ _
    rw [div_eq_one_iff_eq hmax, Nat.cast_inj, agreements_eq_max_iff, String.toList_inj]
    exact (and_iff_left (not_or.mp hempty).1).symm

end Similarity

/-! ## Signals -/

/-- Entities with as many parameters and the same return type, under whatever names. -/
structure Entity.SameShape (e e' : Entity) : Prop where
  arity_eq : e.arity = e'.arity
  returnType_eq : e.returnType = e'.returnType

namespace Signal

section Shapes

variable {α : Type} {s : ComparisonSettings α} {source target : Entity} {signal : Signal α}

def ofShapes (s : ComparisonSettings α) (source target : Entity) : List (Signal α) :=
  (ofArities? source target).toList ++ (ofReturnTypes? s source target).toList

theorem ofShapes_comm (s : ComparisonSettings α) (source target : Entity) :
    ofShapes s source target = ofShapes s target source := by
  have harities : (ofArities? source target : Option (Signal α)) = ofArities? target source := by
    unfold ofArities?
    cases source.arity <;> cases target.arity <;> simp only
    exact if_congr eq_comm rfl (if_congr or_comm rfl rfl)
  have hreturns : ofReturnTypes? s source target = ofReturnTypes? s target source := by
    unfold ofReturnTypes?
    cases source.returnType <;> cases target.returnType <;> simp only
    exact if_congr eq_comm rfl rfl
  unfold ofShapes
  rw [harities, hreturns]

theorem ofShapes_eq_of_sameShape {source' target' : Entity} (hsource : source.SameShape source')
    (htarget : target.SameShape target') :
    ofShapes s source target = ofShapes s source' target' := by
  unfold ofShapes ofArities? ofReturnTypes?
  rw [hsource.arity_eq, hsource.returnType_eq, htarget.arity_eq, htarget.returnType_eq]

theorem eq_of_mem_ofShapes (h : signal ∈ ofShapes s source target) :
    signal = paramCount ∨ signal = paramCountNear ∨ signal = returnType := by
  rcases List.mem_append.mp h with h | h
  · have harities := Option.mem_toList.mp h
    unfold ofArities? at harities
    split at harities
    · split_ifs at harities <;> obtain rfl := Option.some.inj harities
      · exact Or.inl rfl
      · exact Or.inr (Or.inl rfl)
    · simp at harities
  · have hreturns := Option.mem_toList.mp h
    unfold ofReturnTypes? at hreturns
    split at hreturns
    · split_ifs at hreturns
      exact Or.inr (Or.inr (Option.some.inj hreturns).symm)
    · simp at hreturns

end Shapes

variable {α : Type} [Scalar α] {s : ComparisonSettings α} {floor : α} {source target : Entity}
  {signal : Signal α}

theorem isCounted_points_of_mem_ofShapes (h : signal ∈ ofShapes s source target) :
    IsCounted signal.points := by
  rcases eq_of_mem_ofShapes h with rfl | rfl | rfl <;> exact IsCounted.ofNat _

theorem ofNames?_comm (floor : α) (source target : Entity) :
    ofNames? floor source target = ofNames? floor target source := by
  have hkeys : source.key ≠ "" ∧ source.key = target.key ↔
      target.key ≠ "" ∧ target.key = source.key := by
    constructor <;> rintro ⟨hne, heq⟩ <;> exact ⟨heq ▸ hne, heq.symm⟩
  unfold ofNames?
  dsimp only
  rw [similarity_comm]
  exact if_congr eq_comm rfl (if_congr hkeys rfl rfl)

/-- The likeness of two names is one of three, and a similar name has the similarity of the keys. -/
theorem eq_of_ofNames? (h : ofNames? floor source target = some signal) :
    signal = exactName ∨ signal = normalizedName ∨
      signal = similarName (similarity source.key target.key) := by
  unfold ofNames? at h
  dsimp only at h
  split_ifs at h <;> obtain rfl := Option.some.inj h <;> simp

theorem isCounted_points_of_ofNames? (h : ofNames? floor source target = some signal) :
    IsCounted signal.points := by
  rcases eq_of_ofNames? h with rfl | rfl | rfl
  · exact IsCounted.ofNat 50
  · exact IsCounted.ofNat 30
  · exact IsCounted.ofNat_mul (by decide) (isCounted_similarity _ _)

section Order

variable [MonotoneScalar α]

theorem points_similarName_le (a b : String) :
    (similarName (similarity a b) : Signal α).points ≤ normalizedName.points := by
  have hle := (MonotoneScalar.mul_le_mul (isCounted_similarity a b) (IsCounted.ofNat 1)
    (n := 30) (by decide) (similarity_le_one (α := α) a b)).2
  rwa [MonotoneScalar.mul_one] at hle

theorem points_normalizedName_le : (normalizedName : Signal α).points ≤ exactName.points :=
  MonotoneScalar.ofNat_le (by decide)

end Order

end Signal

/-! ## Points -/

section Points

variable {α : Type} [Scalar α] {a b : α}

theorem isCounted_confidenceOf (h : IsCounted a) : IsCounted (confidenceOf a) :=
  ((h.div_ofNat (by decide)).clamp 0 1).roundTo (by decide)

variable [MonotoneScalar α]

theorem confidenceOf_le_confidenceOf (ha : IsCounted a) (hb : IsCounted b) (hab : a ≤ b) :
    confidenceOf a ≤ confidenceOf b := by
  have hparts : 0 < 100 := by decide
  have hfraction := MonotoneScalar.div_le_div ha hb hparts hab
  have hclamp := Scalar.clamp_le_clamp zero_le_one (ha.div_ofNat hparts) (hb.div_ofNat hparts)
    hfraction
  exact Scalar.roundTo_le_roundTo (by decide) ((ha.div_ofNat hparts).clamp 0 1)
    ((hb.div_ofNat hparts).clamp 0 1) hclamp

theorem confidenceOf_bounds (ha : IsCounted a) :
    Scalar.roundTo 10000 (Scalar.ofNat 0) ≤ confidenceOf a ∧
      confidenceOf a ≤ Scalar.roundTo 10000 (Scalar.ofNat 1) := by
  have hfraction : IsCounted (a / Scalar.ofNat 100) := ha.div_ofNat (by decide)
  obtain ⟨hlow, hhigh⟩ := Scalar.clamp_bounds zero_le_one hfraction
  exact ⟨Scalar.roundTo_le_roundTo (by decide) (.ofNat 0) (hfraction.clamp 0 1) hlow,
    Scalar.roundTo_le_roundTo (by decide) (hfraction.clamp 0 1) (.ofNat 1) hhigh⟩

end Points

/-! ## Confidences -/

section Confidence

variable {α : Type} [Scalar α] {s : ComparisonSettings α} {source target : Entity}
  {c d : Candidate α}

theorem exists_of_score? (h : score? s source target = some c) :
    ∃ name, Signal.ofNames? s.thresholds.similarityFloor source target = some name ∧
      c.signals = name :: Signal.ofShapes s source target ∧
      c.confidence = confidenceOf (Scalar.sum (c.signals.map Signal.points)) := by
  obtain ⟨name, hname, rfl⟩ := Option.map_eq_some_iff.mp h
  exact ⟨name, hname, rfl, rfl⟩

theorem map_signals_score? : (score? s source target).map Candidate.signals =
    (Signal.ofNames? s.thresholds.similarityFloor source target).map
      (· :: Signal.ofShapes s source target) := by
  unfold score?
  rw [Option.map_map]
  rfl

theorem map_signals_score?_comm (s : ComparisonSettings α) (source target : Entity) :
    (score? s source target).map Candidate.signals =
      (score? s target source).map Candidate.signals := by
  rw [map_signals_score?, map_signals_score?, Signal.ofNames?_comm, Signal.ofShapes_comm]

theorem confidence_eq_of_score? (h : score? s source target = some c)
    (h' : score? s target source = some d) : c.confidence = d.confidence := by
  have hsignals := map_signals_score?_comm s source target
  rw [h, h', Option.map_some, Option.map_some] at hsignals
  obtain ⟨_, _, _, hc⟩ := exists_of_score? h
  obtain ⟨_, _, _, hd⟩ := exists_of_score? h'
  rw [hc, hd, Option.some.inj hsignals]

theorem isCounted_points (h : score? s source target = some c) :
    ∀ points ∈ c.signals.map Signal.points, IsCounted points := by
  obtain ⟨name, hname, hsignals, _⟩ := exists_of_score? h
  rw [hsignals, List.map_cons, List.forall_mem_cons]
  refine ⟨Signal.isCounted_points_of_ofNames? hname, ?_⟩
  intro points hpoints
  obtain ⟨signal, hsignal, rfl⟩ := List.mem_map.mp hpoints
  exact Signal.isCounted_points_of_mem_ofShapes hsignal

theorem isCounted_sum_points (h : score? s source target = some c) :
    IsCounted (Scalar.sum (c.signals.map Signal.points)) :=
  Scalar.isCounted_sum (isCounted_points h)

theorem isCounted_confidence (h : score? s source target = some c) : IsCounted c.confidence := by
  obtain ⟨_, _, _, hconfidence⟩ := exists_of_score? h
  rw [hconfidence]
  exact isCounted_confidenceOf (isCounted_sum_points h)

theorem ofNames?_of_mem_signals (h : score? s source target = some c) {signal : Signal α}
    (hsignal : signal ∈ c.signals)
    (hname : signal ≠ .paramCount ∧ signal ≠ .paramCountNear ∧ signal ≠ .returnType) :
    Signal.ofNames? s.thresholds.similarityFloor source target = some signal := by
  obtain ⟨name, hnames, hsignals, _⟩ := exists_of_score? h
  rw [hsignals] at hsignal
  rcases List.mem_cons.mp hsignal with rfl | hshape
  · exact hnames
  · obtain ⟨hcount, hnear, hreturn⟩ := hname
    rcases Signal.eq_of_mem_ofShapes hshape with heq | heq | heq
    · exact absurd heq hcount
    · exact absurd heq hnear
    · exact absurd heq hreturn

end Confidence

section Order

variable {α : Type} [Scalar α] [MonotoneScalar α] {s : ComparisonSettings α}
  {source source' target target' : Entity} {c c' : Candidate α}

theorem confidence_bounds_of_score? (h : score? s source target = some c) :
    Scalar.roundTo 10000 (Scalar.ofNat 0) ≤ c.confidence ∧
      c.confidence ≤ Scalar.roundTo 10000 (Scalar.ofNat 1) := by
  obtain ⟨_, _, _, hconfidence⟩ := exists_of_score? h
  rw [hconfidence]
  exact confidenceOf_bounds (isCounted_sum_points h)

section SameShape

variable (hsource : source.SameShape source') (htarget : target.SameShape target')
  (h : score? s source target = some c) (h' : score? s source' target' = some c')
include hsource htarget h h'

/-- Among pairs of the same shapes, names that count more make no less confidence. -/
theorem confidence_le_of_points_le {name name' : Signal α}
    (hname : Signal.ofNames? s.thresholds.similarityFloor source target = some name)
    (hname' : Signal.ofNames? s.thresholds.similarityFloor source' target' = some name')
    (hpoints : name.points ≤ name'.points) : c.confidence ≤ c'.confidence := by
  have hshapes := Signal.ofShapes_eq_of_sameShape (s := s) hsource htarget
  obtain ⟨_, hnames, hsignals, hconfidence⟩ := exists_of_score? h
  obtain ⟨_, hnames', hsignals', hconfidence'⟩ := exists_of_score? h'
  obtain rfl := Option.some.inj (hname.symm.trans hnames)
  obtain rfl := Option.some.inj (hname'.symm.trans hnames')
  have hpointwise : List.Forall₂ (· ≤ ·) (c.signals.map Signal.points)
      (c'.signals.map Signal.points) := by
    rw [hsignals, hsignals', hshapes]
    refine List.Forall₂.cons hpoints (List.forall₂_same.mpr ?_)
    intro points hmem
    obtain ⟨signal, hsignal, rfl⟩ := List.mem_map.mp hmem
    exact MonotoneScalar.le_refl (Signal.isCounted_points_of_mem_ofShapes hsignal)
  rw [hconfidence, hconfidence']
  exact confidenceOf_le_confidenceOf (isCounted_sum_points h) (isCounted_sum_points h')
    (Scalar.sum_le_sum hpointwise (isCounted_points h) (isCounted_points h'))

theorem confidence_similarName_le {ratio : α} (hsimilar : .similarName ratio ∈ c.signals)
    (hkey : .normalizedName ∈ c'.signals) : c.confidence ≤ c'.confidence := by
  have hname := ofNames?_of_mem_signals h hsimilar (by simp)
  have hname' := ofNames?_of_mem_signals h' hkey (by simp)
  have hratio : Signal.similarName ratio = .similarName (similarity source.key target.key) := by
    simpa using Signal.eq_of_ofNames? hname
  apply confidence_le_of_points_le hsource htarget h h' hname hname'
  rw [hratio]
  exact Signal.points_similarName_le _ _

theorem confidence_normalizedName_le (hkey : .normalizedName ∈ c.signals)
    (hexact : .exactName ∈ c'.signals) : c.confidence ≤ c'.confidence :=
  confidence_le_of_points_le hsource htarget h h' (ofNames?_of_mem_signals h hkey (by simp))
    (ofNames?_of_mem_signals h' hexact (by simp)) Signal.points_normalizedName_le

end SameShape

end Order

/-- What can be said of all scores under some settings: they are the same from either side, they are
fractions, and they grow with the likeness of the names. -/
structure ScoresEvenly {α : Type} [Scalar α] (s : ComparisonSettings α) : Prop where
  similarity_eq : ∀ a b : String, (similarity a b : α) = similarity b a
  similarity_bounds : ∀ a b : String,
    Scalar.ofNat 0 ≤ (similarity a b : α) ∧ (similarity a b : α) ≤ Scalar.ofNat 1
  isSome_iff : ∀ a b, (score? s a b).isSome ↔ (score? s b a).isSome
  confidence_eq : ∀ a b c d, score? s a b = some c → score? s b a = some d →
    c.confidence = d.confidence
  confidence_bounds : ∀ a b c, score? s a b = some c →
    Scalar.ofNat 0 ≤ c.confidence ∧ c.confidence ≤ Scalar.ofNat 1
  similarName_le : ∀ {a a' b b'}, a.SameShape a' → b.SameShape b' →
    ∀ c c', score? s a b = some c → score? s a' b' = some c' →
      ∀ ratio, .similarName ratio ∈ c.signals → .normalizedName ∈ c'.signals →
        c.confidence ≤ c'.confidence
  normalizedName_le : ∀ {a a' b b'}, a.SameShape a' → b.SameShape b' →
    ∀ c c', score? s a b = some c → score? s a' b' = some c' →
      .normalizedName ∈ c.signals → .exactName ∈ c'.signals → c.confidence ≤ c'.confidence

theorem ScoresEvenly.of_roundTo {α : Type} [Scalar α] [MonotoneScalar α] (s : ComparisonSettings α)
    (hzero : Scalar.roundTo 10000 (Scalar.ofNat 0 : α) = Scalar.ofNat 0)
    (hone : Scalar.roundTo 10000 (Scalar.ofNat 1 : α) = Scalar.ofNat 1) : ScoresEvenly s := by
  constructor
  case similarity_eq => exact similarity_comm
  case similarity_bounds =>
    exact fun a b => ⟨MonotoneScalar.zero_le (isCounted_similarity a b), similarity_le_one a b⟩
  case isSome_iff =>
    intro a b
    rw [← Option.isSome_map (f := Candidate.signals), map_signals_score?_comm, Option.isSome_map]
  case confidence_eq => exact fun a b c d => confidence_eq_of_score?
  case confidence_bounds =>
    intro a b c h
    rw [← hzero, ← hone]
    exact confidence_bounds_of_score? h
  case similarName_le =>
    exact fun ha hb c c' h h' _ => confidence_similarName_le ha hb h h'
  case normalizedName_le =>
    exact fun ha hb c c' => confidence_normalizedName_le ha hb

/-- Floating-point scores and exact ones. Only an exact ratio tells all unequal texts apart. -/
theorem scoresEvenly (s : ComparisonSettings Float) (s' : ComparisonSettings ℚ) :
    ScoresEvenly s ∧ ScoresEvenly s' ∧
      ∀ a b : String, (similarity a b : ℚ) = 1 ↔ a = b ∧ a ≠ "" :=
  ⟨.of_roundTo s (by decide +kernel) (by decide +kernel),
    .of_roundTo s' (by decide +kernel) (by decide +kernel), similarity_eq_one_iff⟩

end MigrationAudit
