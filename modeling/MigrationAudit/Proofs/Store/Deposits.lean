import MigrationAudit.Digest.Sha256
import MigrationAudit.Proofs.Store.Entries
import Mathlib.Algebra.Order.Ring.Int
import Mathlib.Order.Interval.Set.Infinite

/-!
# What a directory was given

Facts are stored in one directory under many fingerprints, and other texts are written into its
files as well. Each file holds what was written into it last, so an answer always comes from the
latest facts under its key, also where two keys share a file. A key knows the time of a change only
from the epoch on. Therefore the latest facts for the very time are what a later time is answered
with, while all earlier times, and the epoch itself, are answered alike.
-/

namespace MigrationAudit

/-- What is written into the directory of a store: facts under a fingerprint, or any text. -/
inductive Deposit
  | facts (fingerprint path : String) (modified : Int) (storedAt : String) (unit : SourceUnit)
  | other (name text : String)
deriving DecidableEq

namespace Deposit

variable (digest : String → String)

def key? : Deposit → Option StoreKey
  | facts fingerprint path modified _ _ => some ⟨path, Store.timeOf modified, fingerprint⟩
  | other _ _ => none

def fileName : Deposit → String
  | facts fingerprint path modified _ _ =>
    StoreKey.fileName digest ⟨path, Store.timeOf modified, fingerprint⟩
  | other name _ => name

def entryOf (fingerprint path : String) (modified : Int) (storedAt : String) (unit : SourceUnit) :
    StoreEntry :=
  Store.entry ⟨id, fingerprint, []⟩ path modified storedAt unit

def content : Deposit → String
  | facts fingerprint path modified storedAt unit =>
    (entryOf fingerprint path modified storedAt unit).write
  | other _ text => text

/-- Facts, or a text that is not read as facts. -/
def IsHarmless : Deposit → Prop
  | facts .. => True
  | other _ text => StoreEntry.read? text = none

instance (d : Deposit) : Decidable d.IsHarmless := by
  cases d <;> unfold IsHarmless <;> infer_instance

/-- The unit that is stored for a path under a fingerprint, at one of some times. -/
def unitFor? (fingerprint path : String) (times : Int → Bool) : Deposit → Option SourceUnit
  | facts fingerprint' path' modified _ unit =>
    if fingerprint' = fingerprint ∧ path' = path ∧ times modified then some unit else none
  | other _ _ => none

/-- The latest unit that was stored for a path under a fingerprint, at one of some times. -/
def latest? (fingerprint path : String) (times : Int → Bool) (ds : List Deposit) :
    Option SourceUnit :=
  ds.reverse.findSome? (unitFor? fingerprint path times)

/-- What was written into a file last. -/
def last? (name : String) (ds : List Deposit) : Option Deposit :=
  ds.reverse.find? fun d => d.fileName digest == name

variable {digest} {fingerprint path : String} {times : Int → Bool} {name : String}
  {d : Deposit} {ds : List Deposit}

theorem unitFor?_eq_some_iff {u : SourceUnit} :
    d.unitFor? fingerprint path times = some u ↔
      ∃ t storedAt, d = .facts fingerprint path t storedAt u ∧ times t := by
  cases d with
  | other name text => simp [unitFor?]
  | facts fingerprint' path' t storedAt u' =>
    simp only [unitFor?, Option.ite_none_right_eq_some, Option.some.injEq, facts.injEq]
    constructor
    · rintro ⟨⟨rfl, rfl, ht⟩, rfl⟩
      exact ⟨t, storedAt, ⟨rfl, rfl, rfl, rfl, rfl⟩, ht⟩
    · rintro ⟨_, _, ⟨rfl, rfl, rfl, rfl, rfl⟩, ht⟩
      exact ⟨⟨rfl, rfl, ht⟩, rfl⟩

theorem exists_of_latest? {u : SourceUnit} (h : latest? fingerprint path times ds = some u) :
    ∃ t storedAt, .facts fingerprint path t storedAt u ∈ ds ∧ times t := by
  obtain ⟨d, hd, hunit⟩ := List.exists_of_findSome?_eq_some h
  obtain ⟨t, storedAt, rfl, ht⟩ := unitFor?_eq_some_iff.mp hunit
  exact ⟨t, storedAt, List.mem_reverse.mp hd, ht⟩

/-- The last facts in the file of a key, where they stand under this very key, are the latest ones
under it: whatever is stored later under the key goes to the same file. -/
theorem latest?_of_last? {time : Nat} {t : Int} {storedAt : String} {u : SourceUnit}
    (hlast : last? digest (StoreKey.fileName digest ⟨path, time, fingerprint⟩) ds =
      some (.facts fingerprint path t storedAt u))
    (ht : Store.timeOf t = time) :
    latest? fingerprint path (Store.timeOf · == time) ds = some u := by
  obtain ⟨-, later, earlier, hsplit, hlater⟩ := List.find?_eq_some_iff_append.mp hlast
  have hnone : later.findSome? (unitFor? fingerprint path (Store.timeOf · == time)) = none := by
    apply List.findSome?_eq_none_iff.mpr
    intro d hd
    by_contra hsome
    obtain ⟨u', hunit⟩ := Option.ne_none_iff_exists'.mp hsome
    obtain ⟨t', storedAt', rfl, ht'⟩ := unitFor?_eq_some_iff.mp hunit
    have hother := hlater _ hd
    simp [fileName, eq_of_beq ht'] at hother
  rw [latest?, hsplit, List.findSome?_append, hnone, Option.none_or, List.findSome?_cons]
  simp [unitFor?, ht]

end Deposit

namespace Store

open Deposit

/-- The directory of a store as it is seen under a fingerprint. -/
def under (s : Store) (fingerprint : String) : Store := { s with fingerprint }

def receive (s : Store) : Deposit → Store
  | .facts fingerprint path modified storedAt unit =>
    (s.under fingerprint).put path modified storedAt unit
  | .other name text => s.writeFile name text

/-- The store of a directory that was empty before it was given some deposits. -/
def filledWith (digest : String → String) (ds : List Deposit) : Store :=
  ds.foldl receive ⟨digest, "", []⟩

@[simp]
theorem digest_under (s : Store) (fingerprint : String) : (s.under fingerprint).digest = s.digest :=
  rfl

@[simp]
theorem files_under (s : Store) (fingerprint : String) : (s.under fingerprint).files = s.files :=
  rfl

theorem files_receive (s : Store) (d : Deposit) :
    (s.receive d).files = (s.writeFile (d.fileName s.digest) d.content).files := by
  cases d <;> rfl

theorem digest_receive (s : Store) (d : Deposit) : (s.receive d).digest = s.digest := by
  cases d <;> rfl

variable {digest : String → String} {ds : List Deposit}

theorem filledWith_concat (ds : List Deposit) (d : Deposit) :
    filledWith digest (ds ++ [d]) = (filledWith digest ds).receive d := by
  rw [filledWith, List.foldl_append]
  rfl

@[simp]
theorem digest_filledWith (ds : List Deposit) : (filledWith digest ds).digest = digest := by
  induction ds using List.reverseRecOn with
  | nil => rfl
  | append_singleton ds d ih => rw [filledWith_concat, digest_receive, ih]

theorem lookup_filledWith (ds : List Deposit) (name : String) :
    (filledWith digest ds).files.lookup name = (last? digest name ds).map content := by
  induction ds using List.reverseRecOn with
  | nil => rfl
  | append_singleton ds d ih =>
    rw [filledWith_concat, files_receive, lookup_writeFile, digest_filledWith, ih, last?, last?,
      List.reverse_concat, List.find?_cons]
    by_cases hname : name = d.fileName digest
    · simp [hname]
    · rw [if_neg hname, beq_false_of_ne (Ne.symm hname)]

/-- What the directory answers for a file that changed at some time. -/
def answer? (digest : String → String) (ds : List Deposit) (fingerprint path : String)
    (modified : Int) : Option SourceUnit :=
  ((filledWith digest ds).under fingerprint).get? path modified

variable {fingerprint path : String} {modified : Int} {u : SourceUnit}

/-- An answer is the last thing in the file of the key, provided that it stands under the key. -/
theorem answer?_eq_some_iff (h : ∀ d ∈ ds, d.IsHarmless) :
    answer? digest ds fingerprint path modified = some u ↔
      ∃ t storedAt,
        last? digest (StoreKey.fileName digest ⟨path, timeOf modified, fingerprint⟩) ds =
            some (.facts fingerprint path t storedAt u) ∧
          timeOf t = timeOf modified ∧ Keeps t u := by
  have hkey : ((filledWith digest ds).under fingerprint).keyOf path modified =
      ⟨path, timeOf modified, fingerprint⟩ := rfl
  rw [answer?, get?_eq_some_iff]
  simp only [hkey, digest_under, digest_filledWith, files_under, lookup_filledWith,
    Option.map_eq_some_iff]
  constructor
  · rintro ⟨_, e, ⟨d, hlast, rfl⟩, hread, hanswers, rfl⟩
    have hd := h d (List.mem_reverse.mp (List.mem_of_find?_eq_some hlast))
    cases d with
    | other name text =>
      have hnone : StoreEntry.read? text = none := hd
      exact absurd hread (by simp [content, hnone])
    | facts fingerprint' path' t storedAt u' =>
      obtain ⟨hkeeps, rfl⟩ := (read?_write_entry _ path' t storedAt u' e).mp hread
      simp only [StoreEntry.answers, entry, keyOf, beq_self_eq_true, Bool.true_and,
        beq_iff_eq, StoreKey.mk.injEq] at hanswers
      obtain ⟨rfl, ht, rfl⟩ := hanswers
      exact ⟨t, storedAt, hlast, ht, hkeeps⟩
  · rintro ⟨t, storedAt, hlast, ht, hkeeps⟩
    refine ⟨_, entryOf fingerprint path t storedAt u, ⟨_, hlast, rfl⟩, ?_, ?_, rfl⟩
    · exact (read?_write_entry _ path t storedAt u _).mpr ⟨hkeeps, rfl⟩
    · simp [StoreEntry.answers, entryOf, entry, keyOf, ht]

theorem answer?_of_timeOf_eq {t : Int} (h : timeOf t = timeOf modified) :
    answer? digest ds fingerprint path t = answer? digest ds fingerprint path modified := by
  have hkey (s : Store) : s.keyOf path t = s.keyOf path modified := by
    rw [keyOf, keyOf, h]
  simp only [answer?, get?, hkey]

theorem timeOf_eq_iff_of_pos {t : Int} (h : 0 < modified) :
    timeOf t = timeOf modified ↔ t = modified := by
  unfold timeOf
  omega

/-- There is always a time before the epoch at which nothing was stored. -/
theorem exists_early_time (fingerprint path : String) (ds : List Deposit) :
    ∃ t ≤ 0, latest? fingerprint path (· == t) ds = none := by
  let times := (ds.map fun | .facts _ _ t _ _ => t | .other _ _ => 0).toFinset
  obtain ⟨t, hearly, hnew⟩ := (Set.Iic_infinite (0 : Int)).exists_notMem_finset times
  refine ⟨t, hearly, ?_⟩
  by_contra hsome
  obtain ⟨u, hlatest⟩ := Option.ne_none_iff_exists'.mp hsome
  obtain ⟨t', storedAt, hmem, ht⟩ := exists_of_latest? hlatest
  apply hnew
  obtain rfl := eq_of_beq ht
  exact List.mem_toFinset.mpr (List.mem_map.mpr ⟨_, hmem, rfl⟩)

/-- A directory answers with what was written last into the file of the key, if these are facts
under the key. They are the latest facts that were stored for the path under the fingerprint at a
time that is stored alike, so for a time after the epoch at this very time. Times up to the epoch
are all stored alike: the answers are those for the very times exactly if there is none at the
epoch. -/
theorem answers_latest (h : ∀ d ∈ ds, d.IsHarmless) (fingerprint path : String) :
    (∀ t u, answer? digest ds fingerprint path t = some u ↔
      ∃ t' storedAt, last? digest (StoreKey.fileName digest ⟨path, timeOf t, fingerprint⟩) ds =
          some (.facts fingerprint path t' storedAt u) ∧ timeOf t' = timeOf t ∧ Keeps t' u) ∧
    (∀ t u, answer? digest ds fingerprint path t = some u →
      latest? fingerprint path (timeOf · == timeOf t) ds = some u) ∧
    (∀ t > 0, ∀ u, answer? digest ds fingerprint path t = some u →
      latest? fingerprint path (· == t) ds = some u) ∧
    ((∀ t u, answer? digest ds fingerprint path t = some u →
        latest? fingerprint path (· == t) ds = some u) ↔
      answer? digest ds fingerprint path 0 = none) := by
  have hlatest : ∀ t u, answer? digest ds fingerprint path t = some u →
      latest? fingerprint path (timeOf · == timeOf t) ds = some u := by
    intro t u hanswer
    obtain ⟨t', storedAt, hlast, ht, -⟩ := (answer?_eq_some_iff h).mp hanswer
    exact latest?_of_last? hlast ht
  have hlater : ∀ t > 0, ∀ u, answer? digest ds fingerprint path t = some u →
      latest? fingerprint path (· == t) ds = some u := by
    intro t ht u hanswer
    have htimes : (fun t' : Int => timeOf t' == timeOf t) = (· == t) := by
      funext t'
      rw [Bool.eq_iff_iff, beq_iff_eq, beq_iff_eq]
      exact timeOf_eq_iff_of_pos ht
    rw [← htimes]
    exact hlatest t u hanswer
  refine ⟨fun t u => answer?_eq_some_iff h, hlatest, hlater, ?_, ?_⟩
  · intro hexact
    by_contra hsome
    obtain ⟨u, hanswer⟩ := Option.ne_none_iff_exists'.mp hsome
    -- a time before the epoch that was never deposited is answered like the epoch itself
    obtain ⟨t, ht, hnone⟩ := exists_early_time fingerprint path ds
    have hearly : timeOf t = timeOf 0 := by
      unfold timeOf
      omega
    rw [← answer?_of_timeOf_eq hearly] at hanswer
    exact Option.some_ne_none u ((hexact t u hanswer).symm.trans hnone)
  · intro hnone t u hanswer
    rcases Int.lt_or_le 0 t with hpos | hearly
    · exact hlater t hpos u hanswer
    · have htime : timeOf t = timeOf 0 := by
        unfold timeOf
        omega
      rw [answer?_of_timeOf_eq htime, hnone] at hanswer
      cases hanswer

def earlyUnit : SourceUnit := { name := "uOrders", path := "uOrders.pas", language := .pascal }

/-- A note that is no entry, and the facts of a file that changed a second before the epoch. -/
def earlyDeposits : List Deposit :=
  [.other "README" "kept by hand",
    .facts "strict" "uOrders.pas" (-1000000000) "" earlyUnit]

theorem answers_latest_early :
    (∀ d ∈ earlyDeposits, d.IsHarmless) ∧
      (answer? Sha256.hex earlyDeposits "strict" "uOrders.pas" 0).isSome ∧
      latest? "strict" "uOrders.pas" (· == 0) earlyDeposits = none := by
  have hharmless : ∀ d ∈ earlyDeposits, d.IsHarmless := by
    decide +kernel
  refine ⟨hharmless, ?_, rfl⟩
  apply Option.isSome_iff_exists.mpr
  refine ⟨earlyUnit, ((answers_latest hharmless "strict" "uOrders.pas").1 0 earlyUnit).mpr ?_⟩
  refine ⟨-1000000000, "", ?_, rfl, by decide⟩
  simp [earlyDeposits, last?, fileName, timeOf]

end Store

end MigrationAudit
