import MigrationAudit.Proofs.Store.Entries
import MigrationAudit.Workspace.Analysis

/-!
# Sightings of files

A store is asked for the facts of one file after another, and learns those that it does not have.
The first sighting that leaves facts under a key decides the answer for all later ones with this
key; so files get their own facts exactly when no earlier sighting left other facts under the same
key.
-/

namespace MigrationAudit

/-- One file as one run comes upon it: the place under which it is stored, the path from the root of
the run, the text, and the time of the last change. -/
structure Sighting where
  place : String
  path : String
  text : String
  modified : Option Int
  storedAt : String

namespace Sighting

def key? (fingerprint : String) (a : Sighting) : Option StoreKey :=
  a.modified.map fun t => ⟨a.place, Store.timeOf t, fingerprint⟩

/-- No two keys of sightings have different texts of one digest. -/
def CollisionFree (digest : String → String) (fingerprint : String) (seen : List Sighting) : Prop :=
  ∀ a ∈ seen, ∀ b ∈ seen, ∀ k ∈ a.key? fingerprint, ∀ k' ∈ b.key? fingerprint,
    digest k.text = digest k'.text → k.text = k'.text

/-- The text of a file is told by its place and the time of its last change. -/
def TextsByTime (seen : List Sighting) : Prop :=
  ∀ a ∈ seen, ∀ b ∈ seen, a.place = b.place → ∀ t ∈ a.modified, t ∈ b.modified → a.text = b.text

/-- Two sightings look for their facts under one key. -/
@[mk_iff]
structure SharesKey (a b : Sighting) : Prop where
  place : a.place = b.place
  modified : ∃ t ∈ a.modified, ∃ t' ∈ b.modified, Store.timeOf t = Store.timeOf t'

instance (a b : Sighting) : Decidable (a.SharesKey b) :=
  decidable_of_iff' _ (sharesKey_iff a b)

variable {a b c : Sighting}

theorem SharesKey.symm (h : a.SharesKey b) : b.SharesKey a := by
  obtain ⟨hplace, t, ht, t', ht', htime⟩ := h
  exact ⟨hplace.symm, t', ht', t, ht, htime.symm⟩

theorem SharesKey.trans (h : a.SharesKey b) (h' : b.SharesKey c) : a.SharesKey c := by
  obtain ⟨hplace, t, ht, t₁, ht₁, htime⟩ := h
  obtain ⟨hplace', t₂, ht₂, t', ht', htime'⟩ := h'
  rw [Option.mem_unique ht₁ ht₂] at htime
  exact ⟨hplace.trans hplace', t, ht, t', ht', htime.trans htime'⟩

theorem sharesKey_congr (h : b.SharesKey c) : a.SharesKey b ↔ a.SharesKey c :=
  ⟨fun hab => hab.trans h, fun hac => hac.trans h.symm⟩

theorem not_sharesKey_of_modified (h : b.modified = none) : ¬ a.SharesKey b := by
  rintro ⟨-, -, -, t, ht, -⟩
  rw [h] at ht
  cases ht

theorem sharesKey_iff_keyOf (store : Store) {t t' : Int} (ht : t ∈ a.modified)
    (ht' : t' ∈ b.modified) :
    a.SharesKey b ↔ store.keyOf a.place t = store.keyOf b.place t' := by
  simp only [Store.keyOf, StoreKey.mk.injEq, and_true]
  constructor
  · rintro ⟨hplace, t₁, ht₁, t₂, ht₂, htime⟩
    rw [Option.mem_unique ht ht₁, Option.mem_unique ht' ht₂]
    exact ⟨hplace, htime⟩
  · rintro ⟨hplace, htime⟩
    exact ⟨hplace, t, ht, t', ht', htime⟩

variable (settings : ExtractionSettings)

def unit (a : Sighting) : SourceUnit := readUnit settings a.path a.text

theorem path_unit (a : Sighting) : (a.unit settings).path = a.path :=
  path_readUnit settings a.path a.text

/-- What is stored at a sighting can be read again. -/
def IsKept (a : Sighting) : Prop := ∀ t ∈ a.modified, Store.Keeps t (a.unit settings)

instance (a : Sighting) : Decidable (a.IsKept settings) :=
  inferInstanceAs (Decidable (∀ t ∈ a.modified, Store.Keeps t (a.unit settings)))

/-- A later sighting does not find other facts than its own that an earlier one left. -/
def Spares (a b : Sighting) : Prop :=
  a.SharesKey b → a.IsKept settings → a.unit settings = b.unit settings

/-! ## Where facts come from -/

/-- The sighting that left the facts which a later one finds: the first of all under its key. -/
def writer? (earlier : List Sighting) (b : Sighting) : Option Sighting :=
  earlier.find? fun a => a.SharesKey b ∧ a.IsKept settings

/-- The sighting whose facts a sighting gets after some earlier ones. -/
def origin (earlier : List Sighting) (b : Sighting) : Sighting :=
  (writer? settings earlier b).getD b

/-- The sightings whose facts some sightings get, one after the other. -/
def origins (earlier : List Sighting) : List Sighting → List Sighting
  | [] => []
  | b :: rest => origin settings earlier b :: origins (earlier ++ [b]) rest

variable {settings} {earlier : List Sighting}

theorem writer?_congr (h : b.SharesKey c) :
    writer? settings earlier b = writer? settings earlier c := by
  simp only [writer?, sharesKey_congr h]

theorem writer?_append_singleton :
    writer? settings (earlier ++ [b]) c =
      (writer? settings earlier c).or
        (if b.SharesKey c ∧ b.IsKept settings then some b else none) := by
  rw [writer?, List.find?_append, List.find?_singleton, writer?]
  simp only [decide_eq_true_eq]

theorem writer?_eq_none_of_modified (h : b.modified = none) :
    writer? settings earlier b = none := by
  rw [writer?, List.find?_eq_none]
  intro a _ hwriter
  exact not_sharesKey_of_modified h (of_decide_eq_true hwriter).1

/-- Where earlier sightings spare each other, one gets its own facts exactly if all spare it. -/
theorem unit_origin_eq_iff (h : earlier.Pairwise (Spares settings)) :
    (origin settings earlier b).unit settings = b.unit settings ↔
      ∀ a ∈ earlier, a.Spares settings b := by
  induction earlier with
  | nil => simp [origin, writer?]
  | cons a earlier ih =>
    rw [List.pairwise_cons] at h
    rw [List.forall_mem_cons, ← ih h.2]
    by_cases hwriter : a.SharesKey b ∧ a.IsKept settings
    · have horigin : origin settings (a :: earlier) b = a := by
        simp [origin, writer?, hwriter]
      rw [horigin, ih h.2]
      constructor
      · intro hunit
        refine ⟨fun _ _ => hunit, fun c hc hkey hkept => ?_⟩
        rw [← hunit]
        exact (h.1 c hc (hwriter.1.trans hkey.symm) hwriter.2).symm
      · rintro ⟨hspares, -⟩
        exact hspares hwriter.1 hwriter.2
    · have horigin : origin settings (a :: earlier) b = origin settings earlier b := by
        simp [origin, writer?, hwriter]
      rw [horigin]
      refine (and_iff_right fun hkey hkept => ?_).symm
      exact absurd ⟨hkey, hkept⟩ hwriter

theorem map_unit_origins_eq_iff {rest : List Sighting} (h : earlier.Pairwise (Spares settings)) :
    (origins settings earlier rest).map (unit settings) = rest.map (unit settings) ↔
      (earlier ++ rest).Pairwise (Spares settings) := by
  induction rest generalizing earlier with
  | nil => simpa [origins] using h
  | cons b rest ih =>
    have hnext :
        (earlier ++ [b]).Pairwise (Spares settings) ↔ ∀ a ∈ earlier, a.Spares settings b := by
      simp [List.pairwise_append, h]
    rw [origins, List.map_cons, List.map_cons, List.cons_eq_cons, unit_origin_eq_iff h, ← hnext,
      List.append_cons earlier b rest]
    constructor
    · rintro ⟨hhead, htail⟩
      exact (ih hhead).mp htail
    · intro hall
      have hhead := (List.pairwise_append.mp hall).1
      exact ⟨hhead, (ih hhead).mpr hall⟩

end Sighting

namespace Store

open Sighting

variable (settings : ExtractionSettings)

/-! ## One sighting -/

/-- The unit of a sighting, with what the store answers or learns. -/
def read (a : Sighting) (store : Store) : SourceUnit × Store :=
  store.getOrExtract a.place a.modified a.storedAt fun _ => a.unit settings

/-- Without a time the store is not asked. With one it answers, or else it learns. -/
theorem read_cases (a : Sighting) (store : Store) :
    a.modified = none ∧ read settings a store = (a.unit settings, store) ∨
      ∃ t, a.modified = some t ∧
        ((∃ u, store.get? a.place t = some u ∧ read settings a store = (u, store)) ∨
          store.get? a.place t = none ∧
            read settings a store =
              (a.unit settings, store.put a.place t a.storedAt (a.unit settings))) := by
  cases htime : a.modified with
  | none => exact .inl ⟨rfl, by rw [read, htime, getOrExtract]⟩
  | some t =>
    refine .inr ⟨t, rfl, ?_⟩
    cases hanswer : store.get? a.place t with
    | none => exact .inr ⟨rfl, by simp only [read, htime, getOrExtract, hanswer]⟩
    | some u => exact .inl ⟨u, rfl, by simp only [read, htime, getOrExtract, hanswer]⟩

/-- After some sightings a store answers each of many sightings with the facts of its writer, and no
two of the many look for their facts in one file under different keys. -/
structure Recalls (all earlier : List Sighting) (store : Store) : Prop where
  collisionFree : CollisionFree store.digest store.fingerprint all
  get?_eq : ∀ b ∈ all, ∀ t ∈ b.modified,
    store.get? b.place t = (writer? settings earlier b).map (unit settings)

variable {settings} {all earlier : List Sighting} {store : Store} {a b : Sighting}

namespace Recalls

theorem fileName_ne (h : Recalls settings all earlier store) (ha : a ∈ all) (hb : b ∈ all)
    {t t' : Int} (ht : t ∈ a.modified) (ht' : t' ∈ b.modified) (hkey : ¬ a.SharesKey b) :
    (store.keyOf a.place t).fileName store.digest ≠
      (store.keyOf b.place t').fileName store.digest := by
  intro hname
  rw [StoreKey.fileName, StoreKey.fileName, String.append_left_inj] at hname
  have htext := h.collisionFree a ha b hb _ (Option.mem_map_of_mem _ ht) _
    (Option.mem_map_of_mem _ ht') hname
  exact hkey ((sharesKey_iff_keyOf store ht ht').mpr (StoreKey.eq_of_text_eq rfl htext))

theorem fst_read (h : Recalls settings all earlier store) (hb : b ∈ all) :
    (read settings b store).1 = (origin settings earlier b).unit settings := by
  obtain ⟨htime, heq⟩ | ⟨t, ht, ⟨u, hu, heq⟩ | ⟨hnone, heq⟩⟩ := read_cases settings b store
  · rw [heq, origin, writer?_eq_none_of_modified htime]
    rfl
  · rw [h.get?_eq b hb t ht, Option.map_eq_some_iff] at hu
    obtain ⟨a, hwriter, rfl⟩ := hu
    rw [heq, origin, hwriter]
    rfl
  · rw [h.get?_eq b hb t ht, Option.map_eq_none_iff] at hnone
    rw [heq, origin, hnone]
    rfl

/-- What a store recalls after a sighting, of which only the first under its key is stored. -/
theorem next (h : Recalls settings all earlier store) (hb : b ∈ all) :
    Recalls settings all (earlier ++ [b]) (read settings b store).2 := by
  obtain ⟨htime, heq⟩ | ⟨t, ht, ⟨u, hu, heq⟩ | ⟨hnone, heq⟩⟩ := read_cases settings b store
  · rw [heq]
    refine ⟨h.collisionFree, fun c hc t' ht' => ?_⟩
    have hkey : ¬ b.SharesKey c := fun hkey => not_sharesKey_of_modified htime hkey.symm
    rw [h.get?_eq c hc t' ht', writer?_append_singleton, if_neg (not_and_of_not_left _ hkey),
      Option.or_none]
  · rw [heq]
    refine ⟨h.collisionFree, fun c hc t' ht' => ?_⟩
    rw [h.get?_eq c hc t' ht', writer?_append_singleton]
    by_cases hkey : b.SharesKey c
    · rw [h.get?_eq b hb t ht, writer?_congr hkey, Option.map_eq_some_iff] at hu
      obtain ⟨a, hwriter, -⟩ := hu
      rw [hwriter, Option.some_or]
    · rw [if_neg (not_and_of_not_left _ hkey), Option.or_none]
  · rw [heq]
    refine ⟨h.collisionFree, fun c hc t' ht' => ?_⟩
    rw [writer?_append_singleton]
    by_cases hkey : b.SharesKey c
    · -- The store had nothing under this key, so it answers with what it has just learnt.
      have hsame := (sharesKey_iff_keyOf store ht ht').mp hkey
      rw [h.get?_eq b hb t ht, writer?_congr hkey, Option.map_eq_none_iff] at hnone
      rw [hnone, Option.none_or]
      have hkept : Keeps t (b.unit settings) ↔ b.IsKept settings := by
        simp [IsKept, ht]
      ext v
      rw [get?_put_self _ _ _ _ _ hsame.symm, hkept]
      by_cases hkept : b.IsKept settings
      · simp [hkey, hkept, eq_comm]
      · simp [hkept]
    · rw [get?_put_of_ne, h.get?_eq c hc t' ht', if_neg (not_and_of_not_left _ hkey),
        Option.or_none]
      exact (h.fileName_ne hb hc ht ht' hkey).symm

end Recalls

/-! ## Many sightings -/

variable (settings) in
def readAll : List Sighting → Store → List SourceUnit × Store
  | [], store => ([], store)
  | a :: rest, store =>
    let (unit, store) := read settings a store
    let (units, store) := readAll rest store
    (unit :: units, store)

theorem readAll_cons (a : Sighting) (rest : List Sighting) (store : Store) :
    readAll settings (a :: rest) store =
      ((read settings a store).1 :: (readAll settings rest (read settings a store).2).1,
        (readAll settings rest (read settings a store).2).2) :=
  rfl

namespace Recalls

variable {rest : List Sighting}

/-- What one sighting leaves of a store, many leave one after the other. -/
theorem nextAll (h : Recalls settings all earlier store) (hrest : rest ⊆ all) :
    Recalls settings all (earlier ++ rest) (readAll settings rest store).2 := by
  induction rest generalizing earlier store with
  | nil => rwa [List.append_nil]
  | cons b rest ih =>
    obtain ⟨hb, hrest⟩ := List.cons_subset.mp hrest
    rw [readAll_cons, List.append_cons earlier b rest]
    exact ih (h.next hb) hrest

theorem fst_readAll (h : Recalls settings all earlier store) (hrest : rest ⊆ all) :
    (readAll settings rest store).1 = (origins settings earlier rest).map (unit settings) := by
  induction rest generalizing earlier store with
  | nil => rfl
  | cons b rest ih =>
    obtain ⟨hb, hrest⟩ := List.cons_subset.mp hrest
    rw [readAll_cons, origins, List.map_cons, ← h.fst_read hb, ih (h.next hb) hrest]

end Recalls

/-- A store that is empty recalls that nothing was seen. -/
theorem recalls_empty (settings : ExtractionSettings) {digest : String → String}
    {fingerprint : String} (h : CollisionFree digest fingerprint all) :
    Recalls settings all [] ⟨digest, fingerprint, []⟩ where
  collisionFree := h
  get?_eq _ _ _ _ := rfl

end Store

end MigrationAudit
