import MigrationAudit.Command.Run
import MigrationAudit.Proofs.Store.Deposits
import MigrationAudit.Proofs.Text.Pieces

/-!
# What cleaning removes

Cleaning a store goes by the names of files: whatever has the extension of entries is removed and
counted. The entries are among these files, so nothing is found afterwards under any key. But a
directory may hold other files, and those with the same extension are removed and counted as well.
Other files are spared, and the number is that of the entries, exactly if there are none of these.

A run of the command removes the entries one by one. It cleans the directory as the store by itself
is cleaned, unless a directory is named like an entry: the run stops there with an error.
-/

namespace MigrationAudit

open Text

namespace Sha256

theorem mem_wordHex {w : UInt32} {c : Char} (h : c ∈ wordHex w) :
    c ∈ ['0', '1', '2', '3', '4', '5', '6', '7', '8', '9', 'a', 'b', 'c', 'd', 'e', 'f'] := by
  obtain ⟨i, -, rfl⟩ := List.mem_map.mp h
  have hall : ∀ d < 16, Nat.digitChar d ∈
      ['0', '1', '2', '3', '4', '5', '6', '7', '8', '9', 'a', 'b', 'c', 'd', 'e', 'f'] := by
    decide
  exact hall _ (Nat.mod_lt _ (by decide))

theorem slash_notMem_hex (s : String) : '/' ∉ (hex s).toList := by
  rw [hex, String.toList_ofList, List.mem_flatMap]
  rintro ⟨w, -, hslash⟩
  have hdigit := mem_wordHex hslash
  revert hdigit
  decide

theorem length_hex (s : String) : (hex s).toList.length = 64 := by
  have hwords : (digest s.toUTF8.toList).length = 8 := rfl
  have hword : ∀ w, (wordHex w).length = 8 := by
    intro w
    rw [wordHex, List.length_map, List.length_range]
  rw [hex, String.toList_ofList, List.length_flatMap]
  simp only [hword, List.map_const', hwords]
  decide

end Sha256

namespace Store

open Deposit

/-! ## Names -/

theorem isEntryName_append {stem : String} (hslash : '/' ∉ stem.toList) (hne : stem.toList ≠ []) :
    isEntryName (stem ++ ".json") := by
  have hname : Path.fileName? (stem ++ ".json") = some (stem.toList ++ '.' :: "json".toList) := by
    have hwhole : '/' ∉ stem.toList ++ '.' :: "json".toList := by
      rw [List.mem_append]
      exact not_or_intro hslash (by decide)
    rw [Path.fileName?, String.toList_append, show ".json".toList = '.' :: "json".toList from rfl,
      splitAll_eq_singleton hwhole]
    -- the name has too many characters to be a dot or two
    have hlong : 5 ≤ (stem.toList ++ '.' :: "json".toList).length := by
      simp
    generalize stem.toList ++ '.' :: "json".toList = name at hlong
    have hname : ∀ dots : List Char, dots.length < 5 → name ≠ dots := by
      rintro dots hdots rfl
      omega
    have hsome : name ≠ [] := hname [] (by decide)
    have hdot : name ≠ ['.'] := hname ['.'] (by decide)
    have hdots : name ≠ ['.', '.'] := hname ['.', '.'] (by decide)
    simp [hsome, hdot, hdots]
  have hcut : Path.splitName (stem.toList ++ '.' :: "json".toList) =
      (stem.toList, some "json".toList) := by
    rw [Path.splitName, splitLast?_append (by decide)]
    cases hstem : stem.toList with
    | nil => exact absurd hstem hne
    | cons c cs => rfl
  rw [isEntryName, Path.extension?, hname, Option.bind_some, hcut]
  rfl

theorem isEntryName_fileName (k : StoreKey) : isEntryName (k.fileName Sha256.hex) := by
  apply isEntryName_append (Sha256.slash_notMem_hex k.text)
  apply List.ne_nil_of_length_pos
  rw [Sha256.length_hex]
  decide

/-- The files in which facts were stored. -/
def entryNames (ds : List Deposit) : List String :=
  (ds.filterMap key?).map (StoreKey.fileName Sha256.hex)

theorem isEntryName_of_mem {ds : List Deposit} {name : String} (h : name ∈ entryNames ds) :
    isEntryName name := by
  obtain ⟨k, -, rfl⟩ := List.mem_map.mp h
  exact isEntryName_fileName k

theorem nodup_names_filledWith (digest : String → String) (ds : List Deposit) :
    ((filledWith digest ds).files.map (·.1)).Nodup := by
  induction ds using List.reverseRecOn with
  | nil => exact List.nodup_nil
  | append_singleton ds d ih =>
    rw [filledWith_concat, files_receive, writeFile, List.map_cons, List.nodup_cons]
    constructor
    · simp
    · exact ih.sublist (List.filter_sublist.map _)

/-! ## Cleaning -/

theorem files_clean (s : Store) : s.clean.files = s.files.filter fun f => !isEntryName f.1 :=
  rfl

theorem map_fst_files_clean (s : Store) :
    s.clean.files.map (·.1) = (s.files.map (·.1)).filter fun name => !isEntryName name := by
  rw [List.filter_map]
  rfl

@[simp]
theorem digest_clean (s : Store) : s.clean.digest = s.digest :=
  rfl

theorem lookup_clean (s : Store) (name : String) :
    s.clean.files.lookup name = if isEntryName name then none else s.files.lookup name := by
  rw [files_clean, lookup_filter (fun n => !isEntryName n)]
  cases isEntryName name <;> rfl

theorem get?_clean (s : Store) (fingerprint path : String) (modified : Int)
    (h : s.digest = Sha256.hex) :
    (s.clean.under fingerprint).get? path modified = none := by
  rw [Option.eq_none_iff_forall_ne_some]
  intro u hu
  obtain ⟨text, e, hlookup, -⟩ := (get?_eq_some_iff _ _ _ _).mp hu
  have hentry : isEntryName (((s.clean.under fingerprint).keyOf path modified).fileName
      (s.clean.under fingerprint).digest) := by
    rw [digest_under, digest_clean, h]
    exact isEntryName_fileName _
  rw [files_under, lookup_clean, if_pos hentry] at hlookup
  exact Option.some_ne_none text hlookup.symm

theorem size_add_length_clean (s : Store) : s.size + s.clean.files.length = s.files.length := by
  have hsplit := List.length_eq_countP_add_countP (fun f => isEntryName f.1) (l := s.files)
  rw [size, files_clean, ← List.countP_eq_length_filter, hsplit]
  simp

variable {s : Store} {entries : List String}

theorem size_eq_of_entries (h : ∀ name ∈ entries, isEntryName name) :
    s.size = s.files.countP (·.1 ∈ entries) +
      s.files.countP fun f => isEntryName f.1 && f.1 ∉ entries := by
  rw [size, List.countP_eq_countP_filter_add s.files _ (·.1 ∈ entries), List.countP_filter,
    List.countP_filter]
  congr 1
  · apply List.countP_congr
    intro f _
    simpa using h f.1
  · apply List.countP_congr
    intro f _
    simp

theorem lookup_clean_eq_iff :
    (∀ name ∉ entries, s.clean.files.lookup name = s.files.lookup name) ↔
      ∀ f ∈ s.files, isEntryName f.1 → f.1 ∈ entries := by
  constructor
  · intro h f hf hentry
    by_contra hother
    have hlookup := h f.1 hother
    rw [lookup_clean, if_pos hentry, eq_comm, List.lookup_eq_none_iff] at hlookup
    simpa using hlookup f hf
  · intro h name hother
    rw [lookup_clean]
    split
    next hentry =>
      rw [eq_comm, List.lookup_eq_none_iff]
      intro f hf
      rw [bne_iff_ne]
      rintro rfl
      exact hother (h f hf hentry)
    next => rfl

theorem size_eq_countP_iff (hentries : ∀ name ∈ entries, isEntryName name) :
    s.size = s.files.countP (·.1 ∈ entries) ↔
      ∀ f ∈ s.files, isEntryName f.1 → f.1 ∈ entries := by
  rw [size_eq_of_entries hentries, Nat.add_eq_left, List.countP_eq_zero]
  simp

/-- What cleaning does to a directory in which the files of some names hold stored facts. The number
that is answered is the size that the store had. -/
structure Cleans (s : Store) (entries : List String) : Prop where
  nodup : (s.files.map (·.1)).Nodup
  misses : ∀ fingerprint path modified, (s.clean.under fingerprint).get? path modified = none
  removes : ∀ name ∈ entries, s.clean.files.lookup name = none
  lookup_eq : ∀ name, s.clean.files.lookup name =
    if isEntryName name then none else s.files.lookup name
  counts : s.size + s.clean.files.length = s.files.length
  size_eq : s.size = s.files.countP (·.1 ∈ entries) +
    s.files.countP fun f => isEntryName f.1 && f.1 ∉ entries
  spares_iff : (∀ name ∉ entries, s.clean.files.lookup name = s.files.lookup name) ↔
    ∀ f ∈ s.files, isEntryName f.1 → f.1 ∈ entries
  exact_iff : s.size = s.files.countP (·.1 ∈ entries) ↔
    ∀ f ∈ s.files, isEntryName f.1 → f.1 ∈ entries

/-- A directory may have been given any facts and any other texts, in any order. -/
theorem cleans_filledWith (ds : List Deposit) :
    (filledWith Sha256.hex ds).Cleans (entryNames ds) := by
  constructor
  case nodup => exact nodup_names_filledWith _ ds
  case misses =>
    intro fingerprint path modified
    exact get?_clean _ fingerprint path modified (digest_filledWith ds)
  case removes =>
    intro name hname
    rw [lookup_clean, if_pos (isEntryName_of_mem hname)]
  case lookup_eq => exact lookup_clean _
  case counts => exact size_add_length_clean _
  case size_eq => exact size_eq_of_entries fun _ => isEntryName_of_mem
  case spares_iff => exact lookup_clean_eq_iff
  case exact_iff => exact size_eq_countP_iff fun _ => isEntryName_of_mem

end Store

/-! ## Directories and runs -/

open Store

namespace FileTree

variable {t : FileTree} {l k : Location} {listed : List (String × FileEntry)}

/-- The places in the directory `l` that are cleared of what is listed: those in front of the first
directory in the list. -/
def cleared (l : Location) (listed : List (String × FileEntry)) : List Location :=
  (listed.takeWhile (·.2 != .directory)).map fun f => l ++ [f.1]

@[simp] theorem cleared_directory (name : String) : cleared l ((name, .directory) :: listed) = [] :=
  rfl

theorem cleared_cons {e : FileEntry} (he : e ≠ .directory) (name : String) :
    cleared l ((name, e) :: listed) = (l ++ [name]) :: cleared l listed := by
  simp [cleared, he]

theorem removeListed_eq (t : FileTree) (l : Location) (listed : List (String × FileEntry)) :
    t.removeListed l listed =
      (⟨t.entries.filter fun e => e.1 ∉ cleared l listed⟩,
        (listed.find? (·.2 == .directory)).map (·.1)) := by
  fun_induction removeListed t l listed with
  | case1 t => simp [cleared]
  | case2 t name rest => simp
  | case3 t name e rest hne ih =>
    rw [ih, remove, List.filter_filter, List.find?_cons_of_neg (by simpa using hne),
      cleared_cons hne]
    simp only [List.mem_cons, not_or, Bool.decide_and, decide_not, bne, beq_eq_decide,
      Bool.and_comm]

theorem entry?_removeListed (t : FileTree) (l k : Location) (listed : List (String × FileEntry)) :
    entry? (t.removeListed l listed).1 k = if k ∈ cleared l listed then none else t.entry? k := by
  cases k with
  | nil =>
    have hroot : [] ∉ cleared l listed := by simp [cleared]
    rw [if_neg hroot]
    rfl
  | cons name rest =>
    rw [removeListed_eq]
    change List.lookup (name :: rest) _ = if _ then none else t.entries.lookup (name :: rest)
    rw [lookup_filter (fun k => decide (k ∉ cleared l listed))]
    by_cases h : name :: rest ∈ cleared l listed <;> simp [h]

theorem mem_children_iff {f : String × FileEntry} :
    f ∈ t.children l ↔ (l ++ [f.1], f.2) ∈ t.entries := by
  obtain ⟨name, e⟩ := f
  rw [children, mem_sortBy, List.mem_filterMap]
  constructor
  · rintro ⟨⟨k, e'⟩, hmem, hread⟩
    obtain ⟨hdir, hlast⟩ := Option.ite_none_right_eq_some.mp hread
    obtain ⟨last, hsome, heq⟩ := Option.map_eq_some_iff.mp hlast
    obtain ⟨rfl, rfl⟩ := Prod.mk.inj heq
    have hsplit := List.dropLast_append_getLast? _ hsome
    rw [eq_of_beq hdir] at hsplit
    exact hsplit ▸ hmem
  · intro hmem
    exact ⟨_, hmem, by simp⟩

theorem mem_entriesIn_iff {f : String × FileEntry} :
    f ∈ t.entriesIn l ↔ (l ++ [f.1], f.2) ∈ t.entries ∧ isEntryName f.1 := by
  rw [entriesIn, List.mem_filter, mem_children_iff]

theorem cleared_eq_map (h : ∀ f ∈ listed, f.2 ≠ .directory) :
    cleared l listed = listed.map fun f => l ++ [f.1] := by
  have hall : listed.takeWhile (·.2 != .directory) = listed :=
    List.takeWhile_eq_self_iff.mpr fun f hf => bne_iff_ne.mpr (h f hf)
  rw [cleared, hall]

theorem find?_directory (h : ∀ f ∈ listed, f.2 ≠ .directory) :
    listed.find? (·.2 == .directory) = none :=
  List.find?_eq_none.mpr fun f hf => by simpa using h f hf

theorem entry?_concat_eq_none {name : String} (h : ∀ e, (l ++ [name], e) ∉ t.entries) :
    t.entry? (l ++ [name]) = none := by
  have hlookup : t.entries.lookup (l ++ [name]) = none := by
    rw [List.lookup_eq_none_iff]
    rintro ⟨k, e⟩ hmem
    rw [bne_iff_ne]
    rintro rfl
    exact h e hmem
  cases l <;> exact hlookup

/-- Whether a name in a directory is cleared away when everything that is listed as an entry can
be. -/
theorem mem_cleared_iff (h : ∀ f ∈ t.entriesIn l, f.2 ≠ .directory) {name : String} :
    l ++ [name] ∈ cleared l (t.entriesIn l) ↔
      (∃ e, (l ++ [name], e) ∈ t.entries) ∧ isEntryName name := by
  rw [cleared_eq_map h, List.mem_map]
  constructor
  · rintro ⟨f, hf, heq⟩
    obtain ⟨hmem, hentry⟩ := mem_entriesIn_iff.mp hf
    obtain rfl : f.1 = name := by simpa using heq
    exact ⟨⟨f.2, hmem⟩, hentry⟩
  · rintro ⟨⟨e, hmem⟩, hentry⟩
    exact ⟨(name, e), mem_entriesIn_iff.mpr ⟨hmem, hentry⟩, rfl⟩

theorem children_filter_perm (t : FileTree) (l : Location) (p : Location → Bool) :
    (children ⟨t.entries.filter fun e => p e.1⟩ l).Perm
      ((t.children l).filter fun f => p (l ++ [f.1])) := by
  refine (sortBy_perm _ _).trans (.trans ?_ ((sortBy_perm _ _).filter _).symm)
  rw [List.filterMap_filter, List.filter_filterMap]
  refine .of_eq (List.filterMap_congr fun e _ => ?_)
  obtain ⟨k, e⟩ := e
  by_cases hdir : k.dropLast == l
  · cases hlast : k.getLast? with
    | none => simp [hdir, hlast]
    | some name =>
      have hk : k = l ++ [name] := by
        rw [← eq_of_beq hdir, List.dropLast_append_getLast? _ hlast]
      cases hp : p (l ++ [name]) <;> simp [hk, hp, Option.filter]
  · simp [hdir]

theorem map_fst_textsIn (t : FileTree) (l : Location) :
    (t.textsIn l).map (·.1) = ((t.children l).filter (·.2 != .directory)).map (·.1) := by
  rw [textsIn, List.map_filterMap, ← List.filterMap_eq_map, List.filterMap_filter]
  refine List.filterMap_congr fun f _ => ?_
  obtain ⟨name, e⟩ := f
  cases e <;> rfl

theorem size_storeAt (h : ∀ f ∈ t.entriesIn l, f.2 ≠ .directory) (fingerprint : String) :
    (t.storeAt l fingerprint).size = (t.entriesIn l).length := by
  have hnames : (t.storeAt l fingerprint).size = ((t.textsIn l).map (·.1)).countP isEntryName := by
    rw [List.countP_map]
    rfl
  rw [hnames, map_fst_textsIn, List.countP_map, List.countP_eq_length_filter, List.filter_filter,
    entriesIn]
  congr 1
  refine List.filter_congr fun f hf => ?_
  by_cases hentry : isEntryName f.1
  · simpa [hentry] using h f (List.mem_filter.mpr ⟨hf, hentry⟩)
  · simp [hentry]

/-- The names of the texts that are left are those that a cleaned store has. -/
theorem fileNames_removeListed (h : ∀ f ∈ t.entriesIn l, f.2 ≠ .directory) (fingerprint : String) :
    ((t.removeListed l (t.entriesIn l)).1.storeAt l fingerprint).fileNames =
      (t.storeAt l fingerprint).clean.fileNames := by
  have hkept : (t.children l).filter (fun f => l ++ [f.1] ∉ cleared l (t.entriesIn l)) =
      (t.children l).filter fun f => !isEntryName f.1 := by
    refine List.filter_congr fun f hf => ?_
    have hmem : ∃ e, (l ++ [f.1], e) ∈ t.entries := ⟨f.2, mem_children_iff.mp hf⟩
    cases hentry : isEntryName f.1 <;> simp [mem_cleared_iff h, hmem, hentry]
  have hleft := children_filter_perm t l (· ∉ cleared l (t.entriesIn l))
  rw [hkept] at hleft
  apply sortBy_eq_of_perm_of_lawful
  have hclean : (t.storeAt l fingerprint).clean.files.map (·.1) =
      (((t.children l).filter fun f => !isEntryName f.1).filter (·.2 != .directory)).map (·.1) := by
    rw [map_fst_files_clean, storeAt, map_fst_textsIn, List.filter_map, List.filter_comm]
    rfl
  rw [hclean, storeAt, map_fst_textsIn, removeListed_eq]
  exact (hleft.filter _).map _

end FileTree

namespace RunM

open FileTree

variable {s : Surroundings} {path : String} {t tree : FileTree} {place : Location}

theorem run_clean (h : t.makeStore s.base path = .ok (tree, place)) :
    (clean s (.directory path)).run t =
      ((tree.removeListed place (tree.entriesIn place)).2.elim
        (.ok (.storeCleaned path (tree.entriesIn place).length)) fun name =>
          .error (.entryNotRemoved (pathIn path name) FileFault.isDirectory.reason),
        (tree.removeListed place (tree.entriesIn place)).1) := by
  simp only [clean, run_bind, run_get, run_liftM, run_set, h]
  cases (tree.removeListed place (tree.entriesIn place)).2 <;> rfl

/-- A directory among the entries ends the cleaning. What is listed in front of it is gone, and all
else stays. -/
theorem run_clean_of_directory (h : t.makeStore s.base path = .ok (tree, place))
    {before rest : List (String × FileEntry)} {name : String}
    (hlisted : tree.entriesIn place = before ++ (name, .directory) :: rest)
    (hfiles : ∀ f ∈ before, f.2 ≠ .directory) :
    ∃ left, (clean s (.directory path)).run t =
        (.error (.entryNotRemoved (pathIn path name) FileFault.isDirectory.reason), left) ∧
      ∀ k, left.entry? k =
        if k ∈ before.map (fun f => place ++ [f.1]) then none else tree.entry? k := by
  have hcleared : cleared place (tree.entriesIn place) = before.map fun f => place ++ [f.1] := by
    rw [hlisted, cleared, List.takeWhile_append_of_pos fun f hf => bne_iff_ne.mpr (hfiles f hf)]
    simp
  refine ⟨(tree.removeListed place (tree.entriesIn place)).1, ?_, fun k => ?_⟩
  · rw [run_clean h, removeListed_eq, hlisted, List.find?_append, find?_directory hfiles]
    rfl
  · rw [entry?_removeListed, hcleared]

/-- Without a directory among the entries the store is cleaned as a store by itself is, the number
that is answered is its size, and nothing else changes. -/
theorem run_clean_of_files (h : t.makeStore s.base path = .ok (tree, place))
    (hfiles : ∀ f ∈ tree.entriesIn place, f.2 ≠ .directory) (fingerprint : String) :
    ∃ left, (clean s (.directory path)).run t =
        (.ok (.storeCleaned path (tree.storeAt place fingerprint).size), left) ∧
      (left.storeAt place fingerprint).fileNames =
        (tree.storeAt place fingerprint).clean.fileNames ∧
      (∀ name, left.entry? (place ++ [name]) =
        if isEntryName name then none else tree.entry? (place ++ [name])) ∧
      ∀ k, k.dropLast ≠ place → left.entry? k = tree.entry? k := by
  refine ⟨(tree.removeListed place (tree.entriesIn place)).1, ?_, ?_, fun name => ?_, fun k hk => ?_⟩
  · rw [run_clean h, removeListed_eq, find?_directory hfiles, size_storeAt hfiles]
    rfl
  · exact fileNames_removeListed hfiles fingerprint
  · rw [entry?_removeListed]
    by_cases hentry : isEntryName name
    · rw [if_pos hentry]
      split
      next => rfl
      next hkept =>
        apply entry?_concat_eq_none
        intro e hmem
        exact hkept ((mem_cleared_iff hfiles).mpr ⟨⟨e, hmem⟩, hentry⟩)
    · rw [if_neg hentry, if_neg fun hmem => hentry ((mem_cleared_iff hfiles).mp hmem).2]
  · rw [entry?_removeListed, if_neg]
    intro hmem
    obtain ⟨f, -, rfl⟩ := List.mem_map.mp hmem
    exact hk List.dropLast_concat

end RunM

end MigrationAudit
