import MigrationAudit.Proofs.Facts.Assembly
import MigrationAudit.Proofs.Store.Sightings
import MigrationAudit.Workspace.Analysis
import Mathlib

/-!
# Runs that share a store

Runs over directories, one after the other, with one store for all. A run may take the facts of a
file from an earlier run that saw the same file with the same stored time. These are its own facts,
unless the file has another path from the root of the earlier run, because one directory lies inside
the other, or had another text at another time before the epoch; all such times are stored as the
epoch.
-/

namespace MigrationAudit

/-- A run over a directory: the file tree that it finds, where it starts, the directory as it is
named from there, the files that it takes, and the time at which it stores their facts. -/
structure DirectoryRun where
  tree : FileTree
  base : Location := []
  root : String
  filter : SourceFilter := {}
  now : String := ""

namespace DirectoryRun

variable (settings : ExtractionSettings)

def sources (r : DirectoryRun) : Except AuditError Sources :=
  Sources.load r.tree r.base r.root r.filter

/-- The units of the files of a run, read without a store. -/
def units (r : DirectoryRun) : Except AuditError (List SourceUnit) :=
  r.sources.map fun s => s.files.map fun f => readUnit settings f.path f.text

/-- The units of the files of a run, read with a store, and the store that is left. -/
def unitsWith (r : DirectoryRun) (store : Store) : Except AuditError (List SourceUnit) × Store :=
  match r.sources with
  | .ok s => (s.readStored settings r.now s.files store).map .ok id
  | .error e => (.error e, store)

def project (r : DirectoryRun) : Except AuditError Project := r.sources.map (·.toProject settings)

/-- The project of a run, read with a store, and the store that is left. -/
def projectWith (r : DirectoryRun) (store : Store) : Except AuditError Project × Store :=
  match r.sources with
  | .ok s => (s.toProjectWith settings r.now store).map .ok id
  | .error e => (.error e, store)

/-- What runs return one after the other, when each finds the store that the one before has left. -/
def inTurn {α : Type} (step : DirectoryRun → Store → α × Store) : List DirectoryRun → Store → List α
  | [], _ => []
  | r :: runs, store => (step r store).1 :: inTurn step runs (step r store).2

end DirectoryRun

namespace Sources

variable (s : Sources) (settings : ExtractionSettings) (now : String)

def sightings : List Sighting :=
  s.files.map fun f =>
    { place := s.storePath f
      path := f.path
      text := f.text
      modified := f.modified
      storedAt := now }

theorem readStored_eq_readAll (store : Store) :
    s.readStored settings now s.files store = Store.readAll settings (s.sightings now) store := by
  unfold sightings
  generalize s.files = files
  induction files generalizing store with
  | nil => rfl
  | cons f files ih =>
    rw [List.map_cons, Store.readAll_cons, ← ih]
    rfl

theorem map_unit_sightings :
    (s.sightings now).map (Sighting.unit settings) =
      s.files.map fun f => readUnit settings f.path f.text := by
  rw [sightings, List.map_map]
  rfl

/-- The units that the files get after some earlier sightings. -/
def unitsAfter (earlier : List Sighting) : List SourceUnit :=
  (Sighting.origins settings earlier (s.sightings now)).map (Sighting.unit settings)

/-- The files get the units that the earlier sightings decide, and are sightings for later ones. -/
theorem readStored_recalls {settings : ExtractionSettings} {all earlier : List Sighting}
    {store : Store} (h : Store.Recalls settings all earlier store) (hall : s.sightings now ⊆ all) :
    (s.readStored settings now s.files store).1 = s.unitsAfter settings now earlier ∧
      Store.Recalls settings all (earlier ++ s.sightings now)
        (s.readStored settings now s.files store).2 := by
  rw [readStored_eq_readAll]
  exact ⟨h.fst_readAll hall, h.nextAll hall⟩

end Sources

namespace DirectoryRun

open Sighting

def sightings (r : DirectoryRun) : List Sighting :=
  match r.sources with
  | .ok s => s.sightings r.now
  | .error _ => []

variable (settings : ExtractionSettings)

/-- The units that a run gets after some earlier sightings. -/
def unitsAfter (earlier : List Sighting) (r : DirectoryRun) :
    Except AuditError (List SourceUnit) :=
  r.sources.map (·.unitsAfter settings r.now earlier)

/-- The project that a run gets after some earlier sightings. -/
def projectAfter (earlier : List Sighting) (r : DirectoryRun) : Except AuditError Project :=
  r.sources.map fun s => .assemble (s.unitsAfter settings r.now earlier) s.diagnostics

variable {settings}

/-! ## One run -/

section Run

variable {all earlier : List Sighting} {store : Store} {r : DirectoryRun}

theorem unitsWith_recalls (h : Store.Recalls settings all earlier store) (hr : r.sightings ⊆ all) :
    (r.unitsWith settings store).1 = r.unitsAfter settings earlier ∧
      Store.Recalls settings all (earlier ++ r.sightings) (r.unitsWith settings store).2 := by
  unfold unitsWith unitsAfter sightings at *
  cases hsources : r.sources with
  | error e => exact ⟨rfl, by simpa only [List.append_nil] using h⟩
  | ok s =>
    rw [hsources] at hr
    obtain ⟨hunits, hrecalls⟩ := s.readStored_recalls r.now h hr
    exact ⟨congrArg Except.ok hunits, hrecalls⟩

theorem projectWith_recalls (h : Store.Recalls settings all earlier store)
    (hr : r.sightings ⊆ all) :
    (r.projectWith settings store).1 = r.projectAfter settings earlier ∧
      Store.Recalls settings all (earlier ++ r.sightings) (r.projectWith settings store).2 := by
  unfold projectWith projectAfter sightings at *
  cases hsources : r.sources with
  | error e => exact ⟨rfl, by simpa only [List.append_nil] using h⟩
  | ok s =>
    rw [hsources] at hr
    obtain ⟨hunits, hrecalls⟩ := s.readStored_recalls r.now h hr
    refine ⟨?_, hrecalls⟩
    exact congrArg (fun us => Except.ok (Project.assemble us s.diagnostics)) hunits

/-- After sightings that spare each other, a run gets its own units exactly if they spare it, and
its files spare each other. -/
theorem unitsAfter_eq_iff (h : earlier.Pairwise (Spares settings)) :
    r.unitsAfter settings earlier = r.units settings ↔
      (earlier ++ r.sightings).Pairwise (Spares settings) := by
  unfold unitsAfter units sightings
  cases r.sources with
  | error e => exact iff_of_true rfl (by simpa only [List.append_nil] using h)
  | ok s =>
    rw [← map_unit_origins_eq_iff h, s.map_unit_sightings]
    exact Iff.of_eq (Except.ok.injEq _ _)

theorem projectAfter_eq (h : r.unitsAfter settings earlier = r.units settings) :
    r.projectAfter settings earlier = r.project settings := by
  unfold unitsAfter units at h
  unfold projectAfter project
  cases hsources : r.sources with
  | error e => rfl
  | ok s =>
    rw [hsources] at h
    have hunits := Except.ok.inj h
    simp only [Except.map, Sources.toProject, hunits]

/-- A run that gets its own project gets the paths of its files, if not each for its own file. -/
theorem perm_path_of_projectAfter_eq (h : r.projectAfter settings earlier = r.project settings) :
    ((origins settings earlier r.sightings).map (·.path)).Perm (r.sightings.map (·.path)) := by
  unfold projectAfter project at h
  unfold sightings
  cases hsources : r.sources with
  | error e => exact List.Perm.refl []
  | ok s =>
    rw [hsources] at h
    have hproject : Project.assemble (s.unitsAfter settings r.now earlier) s.diagnostics =
        s.toProject settings := Except.ok.inj h
    have hpaths := Project.map_path_assemble (s.unitsAfter settings r.now earlier) s.diagnostics
    rw [hproject, Sources.toProject, ← s.map_unit_sightings settings r.now] at hpaths
    have hown := Project.map_path_assemble ((s.sightings r.now).map (unit settings)) s.diagnostics
    have hperm := hpaths.symm.trans hown
    simpa only [Sources.unitsAfter, List.map_map, Function.comp_def, path_unit] using hperm

end Run

/-! ## Many runs -/

/-- The run lemma: where each step returns what the sightings before it decide, so do all. -/
theorem inTurn_eq_mapIdx {α : Type} {all : List Sighting}
    {step : DirectoryRun → Store → α × Store} {result : List Sighting → DirectoryRun → α}
    (hstep : ∀ {earlier store r}, Store.Recalls settings all earlier store → r.sightings ⊆ all →
      (step r store).1 = result earlier r ∧
        Store.Recalls settings all (earlier ++ r.sightings) (step r store).2)
    {earlier : List Sighting} {store : Store} (h : Store.Recalls settings all earlier store)
    {runs : List DirectoryRun} (hruns : runs.flatMap sightings ⊆ all) :
    inTurn step runs store =
      runs.mapIdx fun i r => result (earlier ++ (runs.take i).flatMap sightings) r := by
  induction runs generalizing earlier store with
  | nil => rfl
  | cons r runs ih =>
    rw [List.flatMap_cons, List.append_subset] at hruns
    obtain ⟨hresult, hnext⟩ := hstep h hruns.1
    rw [inTurn, hresult, ih hnext hruns.2, List.mapIdx_cons]
    simp only [List.take_zero, List.flatMap_nil, List.append_nil, List.take_succ_cons,
      List.flatMap_cons, List.append_assoc]

theorem mapIdx_unitsAfter_eq_iff {earlier : List Sighting} (h : earlier.Pairwise (Spares settings))
    (runs : List DirectoryRun) :
    (runs.mapIdx fun i r => r.unitsAfter settings (earlier ++ (runs.take i).flatMap sightings)) =
        runs.map (units settings) ↔
      (earlier ++ runs.flatMap sightings).Pairwise (Spares settings) := by
  induction runs generalizing earlier with
  | nil => exact iff_of_true rfl (by simpa only [List.flatMap_nil, List.append_nil] using h)
  | cons r runs ih =>
    simp only [List.mapIdx_cons, List.map_cons, List.cons_eq_cons, List.take_zero,
      List.flatMap_nil, List.append_nil, List.take_succ_cons, List.flatMap_cons,
      ← List.append_assoc, unitsAfter_eq_iff h]
    constructor
    · rintro ⟨hhead, htail⟩
      exact (ih hhead).mp htail
    · intro hall
      have hhead := (List.pairwise_append.mp hall).1
      exact ⟨hhead, (ih hhead).mpr hall⟩

theorem mapIdx_projectAfter_eq {result : Nat → List Sighting} {runs : List DirectoryRun}
    (h : (runs.mapIdx fun i r => r.unitsAfter settings (result i)) = runs.map (units settings)) :
    (runs.mapIdx fun i r => r.projectAfter settings (result i)) = runs.map (project settings) := by
  rw [List.mapIdx_eq_iff] at h ⊢
  intro i
  have hunits := h i
  rw [List.getElem?_map] at hunits ⊢
  cases hrun : runs[i]? with
  | none => rfl
  | some r =>
    rw [hrun] at hunits
    exact congrArg some (projectAfter_eq (Option.some.inj hunits).symm).symm

end DirectoryRun

namespace Sighting

variable (settings : ExtractionSettings)

/-- Where a later sighting looks under the key of an earlier one, its file has the same path, and
the same facts also when the times differ, as they may before the epoch. -/
def Agrees (a b : Sighting) : Prop :=
  a.SharesKey b → a.IsKept settings →
    a.path = b.path ∧
      (a.modified ≠ b.modified → readUnit settings b.path a.text = readUnit settings b.path b.text)

variable {settings}

theorem spares_iff_agrees {a b : Sighting}
    (h : a.place = b.place → ∀ t ∈ a.modified, t ∈ b.modified → a.text = b.text) :
    a.Spares settings b ↔ a.Agrees settings b := by
  refine forall₂_congr fun hkey hkept => ?_
  constructor
  · intro hunit
    have hpath : a.path = b.path := by
      rw [← path_unit settings a, ← path_unit settings b, hunit]
    refine ⟨hpath, fun _ => ?_⟩
    rw [unit, unit, hpath] at hunit
    exact hunit
  · rintro ⟨hpath, hfacts⟩
    rw [unit, unit, hpath]
    by_cases htime : a.modified = b.modified
    · obtain ⟨t, ht, -⟩ := hkey.modified
      rw [h hkey.place t ht (htime ▸ ht)]
    · exact hfacts htime

theorem pairwise_spares_iff {as : List Sighting} (h : TextsByTime as) :
    as.Pairwise (Spares settings) ↔ as.Pairwise (Agrees settings) := by
  constructor
  · intro hspares
    exact hspares.imp_of_mem fun ha hb => (spares_iff_agrees (h _ ha _ hb)).mp
  · intro hagrees
    exact hagrees.imp_of_mem fun ha hb => (spares_iff_agrees (h _ ha _ hb)).mpr

end Sighting

/-- Of runs that share a store, which is empty at first, each returns the project of the facts that
the sightings of the runs before it decide. All facts are what they are without a store, and so all
projects, exactly when no sighting disagrees with an earlier one that it shares its key with. -/
theorem DirectoryRun.shared_store_iff (settings : ExtractionSettings) (digest : String → String)
    (fingerprint : String) (runs : List DirectoryRun)
    (hfree : Sighting.CollisionFree digest fingerprint (runs.flatMap sightings))
    (htexts : Sighting.TextsByTime (runs.flatMap sightings)) :
    inTurn (projectWith settings) runs ⟨digest, fingerprint, []⟩ =
        runs.mapIdx (fun i r => r.projectAfter settings ((runs.take i).flatMap sightings)) ∧
      (inTurn (unitsWith settings) runs ⟨digest, fingerprint, []⟩ = runs.map (units settings) ↔
        (runs.flatMap sightings).Pairwise (Sighting.Agrees settings)) ∧
      ((runs.flatMap sightings).Pairwise (Sighting.Agrees settings) →
        inTurn (projectWith settings) runs ⟨digest, fingerprint, []⟩ =
          runs.map (project settings)) := by
  have hrecalls := Store.recalls_empty settings hfree
  have hprojects : inTurn (projectWith settings) runs ⟨digest, fingerprint, []⟩ =
      runs.mapIdx fun i r => r.projectAfter settings ((runs.take i).flatMap sightings) :=
    inTurn_eq_mapIdx projectWith_recalls hrecalls (List.Subset.refl _)
  have hunits : inTurn (unitsWith settings) runs ⟨digest, fingerprint, []⟩ =
      runs.mapIdx fun i r => r.unitsAfter settings ((runs.take i).flatMap sightings) :=
    inTurn_eq_mapIdx unitsWith_recalls hrecalls (List.Subset.refl _)
  have hagrees : (runs.mapIdx fun i r =>
        r.unitsAfter settings ((runs.take i).flatMap sightings)) = runs.map (units settings) ↔
      (runs.flatMap sightings).Pairwise (Sighting.Agrees settings) := by
    rw [← Sighting.pairwise_spares_iff htexts]
    exact mapIdx_unitsAfter_eq_iff List.Pairwise.nil runs
  refine ⟨hprojects, ?_, ?_⟩
  · rw [hunits]
    exact hagrees
  · intro hpairs
    rw [hprojects]
    exact mapIdx_projectAfter_eq (hagrees.mpr hpairs)

namespace FileTree

/-- A shop with one file, which is empty, in a directory of its own. -/
def shop : FileTree :=
  ⟨[(["shop"], .directory), (["shop", "billing"], .directory),
    (["shop", "billing", "Invoice.java"], .file [] (some 1))]⟩

theorem walk_billing (n : Nat) :
    shop.walk false ["shop", "billing"] (n + 1) [⟨["shop", "billing"], ["shop", "billing"]⟩] [] =
      [.file "Invoice.java" [] (some 1)] := by
  have hchildren : shop.children ["shop", "billing"] =
      [("Invoice.java", .file [] (some 1))] := by cbv
  simp [walk, hchildren, ignoredNames, Location.relativePath]

theorem walk_shop (n : Nat) :
    shop.walk false ["shop"] (n + 2) [⟨["shop"], ["shop"]⟩] [] =
      [.file "billing/Invoice.java" [] (some 1)] := by
  have hshop : shop.children ["shop"] = [("billing", .directory)] := by cbv
  have hbilling : shop.children ["shop", "billing"] =
      [("Invoice.java", .file [] (some 1))] := by cbv
  simp [walk, hshop, hbilling, ignoredNames, Location.relativePath]

end FileTree

namespace DirectoryRun

/-- A run that comes upon one empty file has it as its only source. -/
theorem sources_of_walk {r : DirectoryRun} {place : Location} {path : String}
    (hplace : r.tree.directoryAt? r.base r.root = some place) (hfilter : r.filter = {})
    (hwalk : r.tree.walk false place r.tree.walkDepth [⟨place, place⟩] [] =
      [.file path [] (some 1)])
    (hlanguage : Language.ofPath path = .java) :
    r.sources = .ok ⟨place, [⟨path, "", .java, 0, some 1⟩], []⟩ := by
  have hpatterns : SourceFilter.patterns {} = .ok [] := rfl
  have htake : Sources.take? {} [] (.file path [] (some 1)) =
      some ⟨path, "", .java, 0, some 1⟩ := by
    have htext : Text.decodeFile [] = [] := by cbv
    simp [Sources.take?, hlanguage, SourceFilter.accepts, htext]
  simp only [sources, Sources.load, hplace, hfilter, hpatterns, hwalk]
  refine congrArg Except.ok ?_
  simp [htake, Sources.note?, sortBy]

def overShop : DirectoryRun := { tree := .shop, root := "shop" }

def overBilling : DirectoryRun := { tree := .shop, root := "shop/billing" }

theorem sources_overShop :
    overShop.sources = .ok ⟨["shop"], [⟨"billing/Invoice.java", "", .java, 0, some 1⟩], []⟩ := by
  have hplace : FileTree.shop.directoryAt? [] "shop" = some ["shop"] := by cbv
  have hlanguage : Language.ofPath "billing/Invoice.java" = .java := by cbv
  exact sources_of_walk hplace rfl (FileTree.walk_shop 14) hlanguage

theorem sources_overBilling :
    overBilling.sources =
      .ok ⟨["shop", "billing"], [⟨"Invoice.java", "", .java, 0, some 1⟩], []⟩ := by
  have hplace : FileTree.shop.directoryAt? [] "shop/billing" = some ["shop", "billing"] := by cbv
  have hlanguage : Language.ofPath "Invoice.java" = .java := by cbv
  exact sources_of_walk hplace rfl (FileTree.walk_billing 15) hlanguage

/-- The sighting of the one file of the shop, on its path from the root of a run. -/
def invoice (path : String) : Sighting :=
  { place := "/shop/billing/Invoice.java", path, text := "", modified := some 1, storedAt := "" }

theorem sightings_overShop : overShop.sightings = [invoice "billing/Invoice.java"] := by
  have hplace : Location.toPath ("shop" :: pathParts "billing/Invoice.java") =
      "/shop/billing/Invoice.java" := by cbv
  have hnow : overShop.now = "" := rfl
  simp [sightings, sources_overShop, Sources.sightings, Sources.storePath, hplace, hnow, invoice]

theorem sightings_overBilling : overBilling.sightings = [invoice "Invoice.java"] := by
  have hplace : Location.toPath ("shop" :: "billing" :: pathParts "Invoice.java") =
      "/shop/billing/Invoice.java" := by cbv
  have hnow : overBilling.now = "" := rfl
  simp [sightings, sources_overBilling, Sources.sightings, Sources.storePath, hplace, hnow,
    invoice]

theorem sightings_nested :
    [overShop, overBilling].flatMap sightings =
      [invoice "billing/Invoice.java", invoice "Invoice.java"] := by
  simp [sightings_overShop, sightings_overBilling]

theorem exists_invoice {a : Sighting} (h : a ∈ [overShop, overBilling].flatMap sightings) :
    ∃ path, a = invoice path := by
  rw [sightings_nested, List.mem_cons, List.mem_singleton] at h
  rcases h with rfl | rfl
  · exact ⟨_, rfl⟩
  · exact ⟨_, rfl⟩

theorem keeps_invoice : Store.Keeps 1 (readUnit {} "billing/Invoice.java" "") := by
  have hunit : readUnit {} "billing/Invoice.java" "" =
      { name := "Invoice", path := "billing/Invoice.java", language := .java } := by cbv
  rw [hunit]
  decide

/-- Runs over a directory and over one inside it disagree with runs without a store: the run over
the inner directory gets the unit, and its path, that the run over the outer one has stored. -/
theorem shared_store_nested :
    Sighting.CollisionFree Sha256.hex (ExtractionSettings.fingerprint {})
        ([overShop, overBilling].flatMap sightings) ∧
      Sighting.TextsByTime ([overShop, overBilling].flatMap sightings) ∧
      inTurn (unitsWith {}) [overShop, overBilling]
          ⟨Sha256.hex, ExtractionSettings.fingerprint {}, []⟩ ≠
        [overShop, overBilling].map (units {}) ∧
      inTurn (projectWith {}) [overShop, overBilling]
          ⟨Sha256.hex, ExtractionSettings.fingerprint {}, []⟩ ≠
        [overShop, overBilling].map (project {}) := by
  have hfree : Sighting.CollisionFree Sha256.hex (ExtractionSettings.fingerprint {})
      ([overShop, overBilling].flatMap sightings) := by
    intro a ha b hb k hk k' hk' _
    obtain ⟨path, rfl⟩ := exists_invoice ha
    obtain ⟨path', rfl⟩ := exists_invoice hb
    cases hk
    cases hk'
    rfl
  have htexts : Sighting.TextsByTime ([overShop, overBilling].flatMap sightings) := by
    intro a ha b hb _ t _ _
    obtain ⟨path, rfl⟩ := exists_invoice ha
    obtain ⟨path', rfl⟩ := exists_invoice hb
    rfl
  obtain ⟨hprojects, hunits, -⟩ := shared_store_iff {} Sha256.hex
    (ExtractionSettings.fingerprint {}) [overShop, overBilling] hfree htexts
  have hkey : (invoice "billing/Invoice.java").SharesKey (invoice "Invoice.java") := by decide
  have hkept : (invoice "billing/Invoice.java").IsKept {} := by
    rintro t ⟨⟩
    exact keeps_invoice
  refine ⟨hfree, htexts, ?_, ?_⟩
  · intro heq
    have hagrees := hunits.mp heq
    rw [sightings_nested] at hagrees
    have hpair := List.rel_of_pairwise_cons hagrees List.mem_cons_self
    exact absurd (hpair hkey hkept).1 (by decide)
  · intro heq
    rw [hprojects] at heq
    simp only [List.mapIdx_cons, List.map_cons, List.cons.injEq, List.take_succ_cons,
      List.take_zero, List.flatMap_cons, List.flatMap_nil, List.append_nil] at heq
    have hpaths := perm_path_of_projectAfter_eq heq.2.1
    rw [sightings_overShop, sightings_overBilling] at hpaths
    have horigin : Sighting.origins {} [invoice "billing/Invoice.java"] [invoice "Invoice.java"] =
        [invoice "billing/Invoice.java"] := by
      simp [Sighting.origins, Sighting.origin, Sighting.writer?, hkey, hkept]
    rw [horigin] at hpaths
    exact absurd hpaths (by decide)

end DirectoryRun

end MigrationAudit
