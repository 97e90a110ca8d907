import MigrationAudit.Proofs.Facts.ReadBack
import MigrationAudit.Proofs.Lists
import MigrationAudit.Proofs.Text.Suffixes
import MigrationAudit.Store.Basic

/-!
# What a store answers

An entry is read back as it was written. So after facts are stored under a key, the store answers
with them for this key, and for all keys that have another file it answers as before.
-/

namespace MigrationAudit

open Json Text

/-! ## Keys -/

namespace StoreKey

theorem eq_of_text_eq {k k' : StoreKey} (hfingerprint : k.fingerprint = k'.fingerprint)
    (h : k.text = k'.text) : k = k' := by
  obtain ⟨path, modified, fingerprint⟩ := k
  obtain ⟨path', modified', fingerprint'⟩ := k'
  subst hfingerprint
  have hlist := congrArg String.toList h
  simp only [text, toString, String.toList_append, List.append_cancel_right_eq] at hlist
  rw [List.append_assoc, List.append_assoc] at hlist
  obtain ⟨hpath, hmodified⟩ :=
    append_cons_inj (notMem_repr (by decide) modified) (notMem_repr (by decide) modified') hlist
  rw [String.toList_inj] at hpath hmodified
  rw [hpath, repr_injective hmodified]

end StoreKey

/-! ## Entries -/

namespace StoreEntry

/-- Whether all numbers of an entry can be read. -/
structure Fits (e : StoreEntry) : Prop where
  schemaVersion : HasBits 32 e.schemaVersion
  modified : HasBits 128 e.key.modified
  unit : e.unit.Fits

theorem readsBack : ReadsBack toJson ofJson? Fits where
  whole e := by
    simp [toJson, isWhole, holdWhole, readsBack_nat32.whole, readsBack_sourceUnit.whole]
  ne_null e := by
    simp [toJson, reread]
  reads e v := by
    have hschemaVersion :=
      readsBack_nat32.field StoreEntry e.toJson "schema_version" e.schemaVersion (by simp [toJson])
    have hpath := readsBack_str.field StoreEntry e.toJson "path" e.key.path (by simp [toJson])
    have hmodified := (readsBack_nat (Nat.le_refl 128)).field StoreEntry e.toJson "mtime_nanos"
      e.key.modified (by simp [toJson])
    have hfingerprint := readsBack_str.field StoreEntry e.toJson "fingerprint" e.key.fingerprint
      (by simp [toJson])
    have hstoredAt := readsBack_str.field StoreEntry e.toJson "cached_at" e.storedAt
      (by simp [toJson])
    have hunit := readsBack_sourceUnit.field StoreEntry e.toJson "unit" e.unit (by simp [toJson])
    simp only [ofJson?, record_reread (show e.toJson.isObject from rfl), hschemaVersion, hpath,
      hmodified, hfingerprint, hstoredAt, hunit, true_and, Option.some.injEq]
    constructor
    · rintro ⟨hschemaVersion, hmodified, hunit, rfl⟩
      exact ⟨⟨hschemaVersion, hmodified, hunit⟩, rfl⟩
    · rintro ⟨hfits, rfl⟩
      exact ⟨hfits.schemaVersion, hfits.modified, hfits.unit, rfl⟩

/-- The file of an entry is read as the entry, or not at all. -/
theorem read?_write (e v : StoreEntry) : read? e.write = some v ↔ e.Fits ∧ v = e := by
  rw [read?, write, tree?_compact (readsBack.whole e), Option.bind_some]
  exact readsBack.reads e v

end StoreEntry

/-! ## Stores -/

namespace Store

theorem lookup_writeFile (s : Store) (name text name' : String) :
    (s.writeFile name text).files.lookup name' =
      if name' = name then some text else s.files.lookup name' := by
  by_cases h : name' = name
  · subst h
    rw [writeFile, List.lookup_cons_self, if_pos rfl]
  · rw [writeFile, List.lookup_cons, beq_false_of_ne h, if_neg h]
    simpa [h] using lookup_filter (· != name) name' s.files

/-- An answer is the unit of an entry that was written under the very key. -/
theorem get?_eq_some_iff (s : Store) (path : String) (modified : Int) (u : SourceUnit) :
    s.get? path modified = some u ↔
      ∃ text e, s.files.lookup ((s.keyOf path modified).fileName s.digest) = some text ∧
        StoreEntry.read? text = some e ∧ e.answers (s.keyOf path modified) ∧ e.unit = u := by
  simp only [get?, Option.bind_eq_bind, Option.bind_eq_some_iff]
  constructor
  · rintro ⟨text, htext, e, he, hunit⟩
    split at hunit
    next hanswers => exact ⟨text, e, htext, he, hanswers, Option.some.inj hunit⟩
    next => cases hunit
  · rintro ⟨text, e, htext, he, hanswers, hunit⟩
    exact ⟨text, htext, e, he, by rw [if_pos hanswers, hunit]⟩

/-- Whether what is stored under a time can be read again. -/
@[mk_iff]
structure Keeps (modified : Int) (u : SourceUnit) : Prop where
  modified : HasBits 128 (timeOf modified)
  unit : u.Fits

instance (modified : Int) (u : SourceUnit) : Decidable (Keeps modified u) :=
  decidable_of_iff' _ (keeps_iff modified u)

variable (s : Store) (path : String) (modified : Int) (storedAt : String) (u : SourceUnit)

def entry : StoreEntry :=
  { schemaVersion := MigrationAudit.schemaVersion
    key := s.keyOf path modified
    storedAt
    unit := u }

theorem read?_write_entry (e : StoreEntry) :
    StoreEntry.read? (s.entry path modified storedAt u).write = some e ↔
      Keeps modified u ∧ e = s.entry path modified storedAt u := by
  rw [StoreEntry.read?_write]
  refine and_congr_left fun _ => ?_
  constructor
  · intro hfits
    exact ⟨hfits.modified, hfits.unit⟩
  · intro hkeeps
    have hversion : HasBits 32 MigrationAudit.schemaVersion := by decide
    exact ⟨hversion, hkeeps.modified, hkeeps.unit⟩

theorem lookup_put (name : String) :
    (s.put path modified storedAt u).files.lookup name =
      if name = (s.keyOf path modified).fileName s.digest then
        some (s.entry path modified storedAt u).write
      else s.files.lookup name :=
  lookup_writeFile ..

@[simp]
theorem keyOf_put (path' : String) (modified' : Int) :
    (s.put path modified storedAt u).keyOf path' modified' = s.keyOf path' modified' :=
  rfl

@[simp]
theorem digest_put : (s.put path modified storedAt u).digest = s.digest :=
  rfl

variable {path' : String} {modified' : Int}

theorem get?_put_of_ne
    (h : (s.keyOf path' modified').fileName s.digest ≠ (s.keyOf path modified).fileName s.digest) :
    (s.put path modified storedAt u).get? path' modified' = s.get? path' modified' := by
  ext v
  simp only [get?_eq_some_iff, keyOf_put, digest_put, lookup_put, if_neg h]

theorem get?_put_self (h : s.keyOf path' modified' = s.keyOf path modified) (v : SourceUnit) :
    (s.put path modified storedAt u).get? path' modified' = some v ↔ Keeps modified u ∧ v = u := by
  simp only [get?_eq_some_iff, keyOf_put, digest_put, lookup_put, h, if_true, Option.some.injEq]
  constructor
  · rintro ⟨_, e, rfl, hread, -, rfl⟩
    obtain ⟨hkeeps, rfl⟩ := (s.read?_write_entry path modified storedAt u e).mp hread
    exact ⟨hkeeps, rfl⟩
  · rintro ⟨hkeeps, rfl⟩
    refine ⟨_, s.entry path modified storedAt v, rfl, ?_, ?_, rfl⟩
    · exact (s.read?_write_entry path modified storedAt v _).mpr ⟨hkeeps, rfl⟩
    · simp [StoreEntry.answers, entry]

end Store

end MigrationAudit
