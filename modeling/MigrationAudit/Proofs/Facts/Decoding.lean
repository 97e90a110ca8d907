import MigrationAudit.Proofs.Sorted
import MigrationAudit.Proofs.Store.Entries

/-!
# Facts decoded from their trees

A tree is kept by its text when everything in it has a value and no whole number in it is too large
to be read as it stands. The trees of facts are kept, since the types of their numbers are bounded.
So a project is decoded from its tree, and from the text of its tree, as it was; and so are the
facts of a file from the entry of a store. The counts of a summary are a map: their names come in
order, each once.
-/

namespace MigrationAudit

namespace Json

/-! ## Trees that their texts keep -/

mutual

/-- Whether everything in a tree has a value, and numbers are read as they stand. -/
def isKept : Json → Bool
  | .noValue => false
  | .int i => decide (i.natAbs < wholeBound)
  | .arr items => areKept items
  | .obj entries => holdKept entries
  | _ => true

def areKept : List Json → Bool
  | [] => true
  | j :: js => isKept j && areKept js

def holdKept : List (String × Json) → Bool
  | [] => true
  | (_, j) :: rest => isKept j && holdKept rest

end

@[simp] theorem isKept_bool (b : Bool) : isKept (.bool b) = true := rfl

@[simp] theorem isKept_str (s : String) : isKept (.str s) = true := rfl

@[simp] theorem isKept_obj (entries : List (String × Json)) :
    isKept (.obj entries) = holdKept entries := rfl

theorem areKept_cons (j : Json) (js : List Json) :
    areKept (j :: js) = (isKept j && areKept js) := rfl

@[simp] theorem holdKept_nil : holdKept [] = true := rfl

@[simp] theorem holdKept_cons (key : String) (j : Json) (rest : List (String × Json)) :
    holdKept ((key, j) :: rest) = (isKept j && holdKept rest) := rfl

mutual

theorem reread_of_isKept {j : Json} (h : j.isKept) : j.reread = j := by
  match j with
  | .null | .bool _ | .real _ | .str _ => rfl
  | .int i =>
    have hlt : i.natAbs < wholeBound := of_decide_eq_true h
    rw [reread, decide_eq_false (Nat.not_le.mpr hlt)]
    rfl
  | .arr items => rw [reread, rereadItems_of_areKept h]
  | .obj entries => rw [reread, rereadEntries_of_holdKept h]

theorem rereadItems_of_areKept {items : List Json} (h : areKept items) :
    rereadItems items = items := by
  match items with
  | [] => rfl
  | j :: js =>
    obtain ⟨hj, hjs⟩ := Bool.and_eq_true_iff.mp h
    rw [rereadItems, reread_of_isKept hj, rereadItems_of_areKept hjs]

theorem rereadEntries_of_holdKept {entries : List (String × Json)} (h : holdKept entries) :
    rereadEntries entries = entries := by
  match entries with
  | [] => rfl
  | (key, j) :: rest =>
    obtain ⟨hj, hrest⟩ := Bool.and_eq_true_iff.mp h
    rw [rereadEntries, reread_of_isKept hj, rereadEntries_of_holdKept hrest]

end

theorem holdKept_append (xs ys : List (String × Json)) :
    holdKept (xs ++ ys) = (holdKept xs && holdKept ys) := by
  induction xs with
  | nil => rfl
  | cons x xs ih => rw [List.cons_append, holdKept_cons, holdKept_cons, ih, Bool.and_assoc]

theorem isKept_nat {bits n : Nat} (hbits : bits ≤ 128) (h : HasBits bits n) : (nat n).isKept := by
  have hbound : Nat.pow 2 bits ≤ wholeBound := Nat.pow_le_pow_right (by decide) hbits
  exact decide_eq_true (Nat.lt_of_lt_of_le h hbound)

theorem isKept_nat32 {n : Nat} (h : HasBits 32 n) : (nat n).isKept := isKept_nat (by decide) h

theorem isKept_nat64 {n : Nat} (h : HasBits 64 n) : (nat n).isKept := isKept_nat (by decide) h

theorem isKept_ofTag {α : Type} [Tagged α] (a : α) : (ofTag a).isKept := rfl

theorem isKept_ofList {α : Type} {write : α → Json} {items : List α}
    (h : ∀ a ∈ items, (write a).isKept) : (ofList write items).isKept := by
  change areKept (items.map write) = true
  induction items with
  | nil => rfl
  | cons a items ih =>
    rw [List.forall_mem_cons] at h
    rw [List.map_cons, areKept_cons, h.1, ih h.2, Bool.and_self]

theorem isKept_ofStrings (items : List String) : (ofStrings items).isKept :=
  isKept_ofList fun _ _ => rfl

theorem holdKept_present {α : Type} {key : String} {write : α → Json} {o : Option α}
    (h : ∀ a ∈ o, (write a).isKept) : holdKept (present key write o) := by
  cases o with
  | none => rfl
  | some a => rw [present, holdKept_cons, h a rfl, holdKept_nil, Bool.and_self]

theorem holdKept_present_str (key : String) (o : Option String) :
    holdKept (present key .str o) :=
  holdKept_present fun _ _ => rfl

theorem holdKept_present_tag {α : Type} [Tagged α] (key : String) (o : Option α) :
    holdKept (present key ofTag o) :=
  holdKept_present fun a _ => isKept_ofTag a

end Json

open Json

theorem Param.isKept_toJson (p : Param) : p.toJson.isKept := by
  simp [toJson, holdKept_append, holdKept_present_str]

theorem Endpoint.isKept_toJson (e : Endpoint) : e.toJson.isKept := by
  simp [toJson]

theorem Dependency.isKept_toJson (d : Dependency) : d.toJson.isKept := by
  simp [toJson, isKept_ofTag]

theorem Routine.Fits.isKept_toJson {r : Routine} (h : r.Fits) : r.toJson.isKept := by
  simp [toJson, holdKept_append, holdKept_present_str, holdKept_present_tag,
    isKept_ofTag, isKept_ofList fun p (_ : p ∈ r.params) => p.isKept_toJson, isKept_ofStrings,
    holdKept_present fun e (_ : e ∈ r.endpoint) => e.isKept_toJson, isKept_nat32 h.complexity,
    isKept_nat32 h.line]

theorem Field.Fits.isKept_toJson {f : Field} (h : f.Fits) : f.toJson.isKept := by
  simp [toJson, holdKept_append, holdKept_present_str, isKept_ofTag,
    isKept_ofStrings, isKept_nat32 h]

theorem ClassDecl.Fits.isKept_toJson {c : ClassDecl} (h : c.Fits) : c.toJson.isKept := by
  simp [toJson, holdKept_append, holdKept_present_str, holdKept_present_tag,
    isKept_ofStrings, isKept_ofList fun r hr => (h.methods r hr).isKept_toJson,
    isKept_ofList fun f hf => (h.fields f hf).isKept_toJson, isKept_nat32 h.line]

theorem DataOp.Fits.isKept_toJson {d : DataOp} (h : d.Fits) : d.toJson.isKept := by
  simp [toJson, holdKept_append, holdKept_present_str, isKept_ofTag,
    isKept_nat32 h]

theorem SizeMetrics.Fits.isKept_toJson {m : SizeMetrics} (h : m.Fits) : m.toJson.isKept := by
  simp [toJson, isKept_nat32 h.totalLines, isKept_nat32 h.codeLines,
    isKept_nat32 h.commentLines, isKept_nat32 h.blankLines, isKept_nat32 h.maxNestingDepth]

theorem Diagnostic.Fits.isKept_toJson {d : Diagnostic} (h : d.Fits) : d.toJson.isKept := by
  simp [toJson, isKept_ofTag,
    holdKept_present fun n hn => isKept_nat32 (h n hn)]

theorem SourceUnit.Fits.isKept_toJson {u : SourceUnit} (h : u.Fits) : u.toJson.isKept := by
  simp [toJson, isKept_ofTag,
    isKept_ofList fun c hc => (h.classes c hc).isKept_toJson,
    isKept_ofList fun r hr => (h.routines r hr).isKept_toJson,
    isKept_ofList fun d (_ : d ∈ u.dependencies) => d.isKept_toJson,
    isKept_ofList fun d hd => (h.dataOps d hd).isKept_toJson, h.metrics.isKept_toJson,
    isKept_ofList fun d hd => (h.diagnostics d hd).isKept_toJson]

theorem StoreEntry.Fits.isKept_toJson {e : StoreEntry} (h : e.Fits) : e.toJson.isKept := by
  simp [toJson, isKept_nat32 h.schemaVersion,
    isKept_nat (Nat.le_refl 128) h.modified, h.unit.isKept_toJson]

/-! ## Decoding -/

namespace Json

theorem ReadsBack.read_write {α : Type} {write : α → Json} {read : Json → Option α}
    {fits : α → Prop} (h : ReadsBack write read fits) {a : α} (ha : fits a)
    (hkept : (write a).isKept) : read (write a) = some a := by
  have hread := (h.reads a a).mpr ⟨ha, rfl⟩
  rwa [reread_of_isKept hkept] at hread

theorem field?_eq_some {α : Type} {j v : Json} {key : String} {read : Json → Option α} {a : α}
    (hvalues : j.valuesOf key = [v]) (hread : read v = some a) : j.field? key read = some a := by
  rw [field?, hvalues]
  exact hread

theorem asList?_ofList {α : Type} {write : α → Json} {read : Json → Option α} {items : List α}
    (h : ∀ a ∈ items, read (write a) = some a) :
    asList? read (ofList write items) = some items := by
  rw [ofList, asList?]
  induction items with
  | nil => rfl
  | cons a items ih =>
    rw [List.forall_mem_cons] at h
    rw [List.map_cons, List.mapM_cons, h.1, ih h.2]
    rfl

theorem asNat64?_nat {n : Nat} (h : HasBits 64 n) : asNat64? (nat n) = some n :=
  (readsBack_nat (by decide)).read_write h (isKept_nat64 h)

/-- Whether the names of counts come in order, each once. -/
def IsMap (counts : List (String × Nat)) : Prop :=
  (counts.map (·.1)).Pairwise fun k k' => compare k k' = .lt

instance (counts : List (String × Nat)) : Decidable (IsMap counts) :=
  inferInstanceAs (Decidable (List.Pairwise _ _))

namespace IsMap

variable {counts : List (String × Nat)}

theorem nodup (h : IsMap counts) : (counts.map (·.1)).Nodup := by
  refine h.imp ?_
  rintro k _ hlt rfl
  have hself : compare k k = .eq := Std.ReflCmp.compare_self
  rw [hself] at hlt
  cases hlt

theorem sortBy_names (h : IsMap counts) :
    sortBy compare (counts.map (·.1)).eraseDups = counts.map (·.1) := by
  rw [eraseDups_eq_self h.nodup]
  exact List.mergeSort_of_pairwise (h.imp fun hlt => by rw [hlt]; rfl)

theorem lookup_reverse (h : IsMap counts) {c : String × Nat} (hc : c ∈ counts) :
    counts.reverse.lookup c.1 = some c.2 := by
  obtain ⟨front, back, rfl⟩ := List.append_of_mem hc
  have hnodup := h.nodup
  rw [List.map_append, List.map_cons, List.nodup_append, List.nodup_cons] at hnodup
  rw [List.lookup_eq_some_iff]
  refine ⟨back.reverse, front.reverse, by simp, fun p hp => ?_⟩
  rw [bne_iff_ne]
  intro heq
  exact hnodup.2.1.1 (List.mem_map.mpr ⟨p, List.mem_reverse.mp hp, heq.symm⟩)

theorem asCounts?_ofCounts (h : IsMap counts) (hbits : ∀ c ∈ counts, HasBits 64 c.2) :
    asCounts? (ofCounts counts) = some counts := by
  have hread : ∀ cs : List (String × Nat), (∀ c ∈ cs, HasBits 64 c.2) →
      (cs.map fun c => (c.1, nat c.2)).mapM (fun e => e.2.asNat64?.map (e.1, ·)) = some cs := by
    intro cs
    induction cs with
    | nil => intro; rfl
    | cons c cs ih =>
      intro hcs
      rw [List.forall_mem_cons] at hcs
      rw [List.map_cons, List.mapM_cons, asNat64?_nat hcs.1, ih hcs.2]
      rfl
  have hkeys :
      (counts.map (·.1)).map (fun k => (k, (counts.reverse.lookup k).getD 0)) = counts := by
    rw [List.map_map]
    refine (List.map_congr_left fun c hc => ?_).trans (List.map_id counts)
    simp [h.lookup_reverse hc]
  rw [ofCounts, asCounts?]
  simp only [hread counts hbits, Option.bind_eq_bind, Option.bind_some, h.sortBy_names, hkeys]

end IsMap

theorem isKept_ofCounts {counts : List (String × Nat)} (hbits : ∀ c ∈ counts, HasBits 64 c.2) :
    (ofCounts counts).isKept := by
  rw [ofCounts, isKept]
  induction counts with
  | nil => rfl
  | cons c counts ih =>
    rw [List.forall_mem_cons] at hbits
    rw [List.map_cons, holdKept_cons, isKept_nat64 hbits.1, ih hbits.2, Bool.and_self]

theorem isWhole_ofCounts (counts : List (String × Nat)) : (ofCounts counts).isWhole := by
  rw [ofCounts, isWhole, holdWhole_eq_all, List.all_map, List.all_eq_true]
  intro c _
  rfl

end Json

/-! ## Summaries and projects -/

@[mk_iff]
structure KindCounts.Fits (k : KindCounts) : Prop where
  form : HasBits 64 k.form
  dataModule : HasBits 64 k.dataModule
  service : HasBits 64 k.service
  utility : HasBits 64 k.utility
  plainUnit : HasBits 64 k.plainUnit
  unknown : HasBits 64 k.unknown

instance (k : KindCounts) : Decidable k.Fits :=
  decidable_of_iff' _ (KindCounts.fits_iff k)

@[mk_iff]
structure Summary.Fits (s : Summary) : Prop where
  unitCount : HasBits 64 s.unitCount
  unitsByKind : s.unitsByKind.Fits
  classCount : HasBits 64 s.classCount
  routineCount : HasBits 64 s.routineCount
  fieldCount : HasBits 64 s.fieldCount
  dataOpCount : HasBits 64 s.dataOpCount
  totalLines : HasBits 64 s.totalLines
  codeLines : HasBits 64 s.codeLines
  stereotypes : ∀ c ∈ s.stereotypes, HasBits 64 c.2
  isMap : IsMap s.stereotypes

instance (s : Summary) : Decidable s.Fits :=
  decidable_of_iff' _ (Summary.fits_iff s)

/-- Whether all numbers of a project are in the range of their types, and its stereotypes are a
map. -/
@[mk_iff]
structure Project.Fits (p : Project) : Prop where
  schemaVersion : HasBits 32 p.schemaVersion
  units : ∀ u ∈ p.units, u.Fits
  summary : p.summary.Fits
  diagnostics : ∀ d ∈ p.diagnostics, d.Fits

instance (p : Project) : Decidable p.Fits :=
  decidable_of_iff' _ (Project.fits_iff p)

namespace KindCounts.Fits

variable {k : KindCounts}

theorem isKept_toJson (h : k.Fits) : k.toJson.isKept := by
  simp [toJson, isKept_nat64 h.form, isKept_nat64 h.dataModule,
    isKept_nat64 h.service, isKept_nat64 h.utility, isKept_nat64 h.plainUnit,
    isKept_nat64 h.unknown]

theorem ofJson?_toJson (h : k.Fits) : ofJson? k.toJson = some k := by
  have hform : k.toJson.field? "form" asNat64? = some k.form :=
    field?_eq_some (by simp [toJson]) (asNat64?_nat h.form)
  have hdataModule : k.toJson.field? "data_module" asNat64? = some k.dataModule :=
    field?_eq_some (by simp [toJson]) (asNat64?_nat h.dataModule)
  have hservice : k.toJson.field? "service" asNat64? = some k.service :=
    field?_eq_some (by simp [toJson]) (asNat64?_nat h.service)
  have hutility : k.toJson.field? "utility" asNat64? = some k.utility :=
    field?_eq_some (by simp [toJson]) (asNat64?_nat h.utility)
  have hplainUnit : k.toJson.field? "plain_unit" asNat64? = some k.plainUnit :=
    field?_eq_some (by simp [toJson]) (asNat64?_nat h.plainUnit)
  have hunknown : k.toJson.field? "unknown" asNat64? = some k.unknown :=
    field?_eq_some (by simp [toJson]) (asNat64?_nat h.unknown)
  have hrecord : ∀ names, k.toJson.record names = k.toJson := fun _ => rfl
  simp only [ofJson?, hrecord, hform, hdataModule, hservice, hutility, hplainUnit, hunknown,
    Option.bind_eq_bind, Option.bind_some]

end KindCounts.Fits

namespace Summary.Fits

variable {s : Summary}

theorem isKept_toJson (h : s.Fits) : s.toJson.isKept := by
  simp [toJson, isKept_nat64 h.unitCount, h.unitsByKind.isKept_toJson,
    isKept_nat64 h.classCount, isKept_nat64 h.routineCount, isKept_nat64 h.fieldCount,
    isKept_nat64 h.dataOpCount, isKept_nat64 h.totalLines, isKept_nat64 h.codeLines,
    isKept_ofStrings, isKept_ofCounts h.stereotypes]

theorem ofJson?_toJson (h : s.Fits) : ofJson? s.toJson = some s := by
  have hunitCount : s.toJson.field? "unit_count" asNat64? = some s.unitCount :=
    field?_eq_some (by simp [toJson]) (asNat64?_nat h.unitCount)
  have hunitsByKind : s.toJson.field? "units_by_kind" KindCounts.ofJson? = some s.unitsByKind :=
    field?_eq_some (by simp [toJson]) h.unitsByKind.ofJson?_toJson
  have hclassCount : s.toJson.field? "class_count" asNat64? = some s.classCount :=
    field?_eq_some (by simp [toJson]) (asNat64?_nat h.classCount)
  have hroutineCount : s.toJson.field? "routine_count" asNat64? = some s.routineCount :=
    field?_eq_some (by simp [toJson]) (asNat64?_nat h.routineCount)
  have hfieldCount : s.toJson.field? "field_count" asNat64? = some s.fieldCount :=
    field?_eq_some (by simp [toJson]) (asNat64?_nat h.fieldCount)
  have hdataOpCount : s.toJson.field? "database_op_count" asNat64? = some s.dataOpCount :=
    field?_eq_some (by simp [toJson]) (asNat64?_nat h.dataOpCount)
  have htotalLines : s.toJson.field? "total_lines" asNat64? = some s.totalLines :=
    field?_eq_some (by simp [toJson]) (asNat64?_nat h.totalLines)
  have hcodeLines : s.toJson.field? "code_lines" asNat64? = some s.codeLines :=
    field?_eq_some (by simp [toJson]) (asNat64?_nat h.codeLines)
  have htechnologies : s.toJson.field? "technologies" asStrings? = some s.technologies :=
    field?_eq_some (by simp [toJson])
      (readsBack_strings.read_write trivial (isKept_ofStrings s.technologies))
  have hstereotypes : s.toJson.field? "stereotypes" asCounts? = some s.stereotypes :=
    field?_eq_some (by simp [toJson]) (h.isMap.asCounts?_ofCounts h.stereotypes)
  have hrecord : ∀ names, s.toJson.record names = s.toJson := fun _ => rfl
  simp only [ofJson?, hrecord, hunitCount, hunitsByKind, hclassCount, hroutineCount, hfieldCount,
    hdataOpCount, htotalLines, hcodeLines, htechnologies, hstereotypes, Option.bind_eq_bind,
    Option.bind_some]

end Summary.Fits

namespace Project.Fits

variable {p : Project}

theorem isKept_toJson (h : p.Fits) : p.toJson.isKept := by
  simp [toJson, isKept_nat32 h.schemaVersion,
    isKept_ofList fun u hu => (h.units u hu).isKept_toJson, h.summary.isKept_toJson,
    isKept_ofList fun d hd => (h.diagnostics d hd).isKept_toJson]

theorem ofJson?_toJson (h : p.Fits) : ofJson? p.toJson = some p := by
  have hschemaVersion : p.toJson.field? "schema_version" asNat32? = some p.schemaVersion :=
    field?_eq_some (by simp [toJson])
      (readsBack_nat32.read_write h.schemaVersion (isKept_nat32 h.schemaVersion))
  have hunits : p.toJson.field? "units" (asList? SourceUnit.ofJson?) = some p.units :=
    field?_eq_some (by simp [toJson]) (asList?_ofList fun u hu =>
      readsBack_sourceUnit.read_write (h.units u hu) (h.units u hu).isKept_toJson)
  have hsummary : p.toJson.field? "summary" Summary.ofJson? = some p.summary :=
    field?_eq_some (by simp [toJson]) h.summary.ofJson?_toJson
  have hdiagnostics :
      p.toJson.field? "diagnostics" (asList? Diagnostic.ofJson?) = some p.diagnostics :=
    field?_eq_some (by simp [toJson]) (asList?_ofList fun d hd =>
      readsBack_diagnostic.read_write (h.diagnostics d hd) (h.diagnostics d hd).isKept_toJson)
  have hrecord : ∀ names, p.toJson.record names = p.toJson := fun _ => rfl
  simp only [ofJson?, hrecord, hschemaVersion, hunits, hsummary, hdiagnostics, Option.bind_eq_bind,
    Option.bind_some]

end Project.Fits

theorem Project.isWhole_toJson (p : Project) : p.toJson.isWhole := by
  simp [toJson, Summary.toJson, KindCounts.toJson, isWhole, holdWhole, readsBack_nat32.whole,
    readsBack_sourceUnit.list.whole, readsBack_strings.whole, isWhole_ofCounts,
    readsBack_diagnostic.list.whole]

/-! ## What was written is decoded -/

theorem Json.tree?_compact_bind {α : Type} {j : Json} (hwhole : j.isWhole) (hkept : j.isKept)
    (read : Json → Option α) : (tree? j.compact).bind read = read j := by
  rw [tree?_compact hwhole, Option.bind_some, reread_of_isKept hkept]

/-- A project is decoded as it was, from its tree and from the text of its tree; so are the facts of
a file and the entry in which a store keeps them, and the store answers with what was put into it. -/
theorem decode_written :
    (∀ p : Project, p.Fits →
      Project.ofJson? p.toJson = some p ∧
        (Json.tree? p.toJson.compact).bind Project.ofJson? = some p) ∧
      (∀ u : SourceUnit, u.Fits →
        SourceUnit.ofJson? u.toJson = some u ∧
          (Json.tree? u.toJson.compact).bind SourceUnit.ofJson? = some u) ∧
      (∀ e : StoreEntry, e.Fits →
        StoreEntry.ofJson? e.toJson = some e ∧ StoreEntry.read? e.write = some e) ∧
      ∀ (s : Store) (path : String) (modified : Int) (storedAt : String) (u : SourceUnit),
        Store.Keeps modified u → (s.put path modified storedAt u).get? path modified = some u := by
  refine ⟨fun p hp => ?_, fun u hu => ?_, fun e he => ?_, fun s path modified storedAt u hu => ?_⟩
  · refine ⟨hp.ofJson?_toJson, ?_⟩
    rw [Json.tree?_compact_bind p.isWhole_toJson hp.isKept_toJson]
    exact hp.ofJson?_toJson
  · have htree := readsBack_sourceUnit.read_write hu hu.isKept_toJson
    refine ⟨htree, ?_⟩
    rw [Json.tree?_compact_bind (readsBack_sourceUnit.whole u) hu.isKept_toJson]
    exact htree
  · exact ⟨StoreEntry.readsBack.read_write he he.isKept_toJson,
      (StoreEntry.read?_write e e).mpr ⟨he, rfl⟩⟩
  · exact (s.get?_put_self path modified storedAt u rfl u).mpr ⟨hu, rfl⟩

/-- A unit in which most of what may be missing is there once and is missing once. -/
def orderService : SourceUnit where
  name := "shop.OrderService"
  path := "shop/OrderService.java"
  language := .java
  kind := .service
  classes := [
    { name := "OrderService", parent := some "Base", interfaces := ["Audited"]
      methods := [
        { name := "find", owner := some "OrderService", kind := .method
          params := [⟨"id", some "long", some "final"⟩, ⟨"rest", none, none⟩]
          returnType := some "Order", visibility := some .publicAccess, complexity := 4294967295
          callHints := ["load"], hasBody := true, annotations := ["@GetMapping"]
          endpoint := some ⟨"GET", "/orders/\"x\\\n"⟩, line := 3 },
        { name := "OrderService", kind := .constructor }]
      fields := [⟨"repository", none, .privateAccess, false, [], 2⟩]
      stereotype := some .service, table := some "ORDERS" }]
  dataOps := [{ kind := .select, raw := "SELECT 1", table := some "ORDERS", line := 4 }]
  diagnostics := [⟨"shop/OrderService.java", .inputError, "not read", none⟩]

theorem decode_written_orderService :
    let p : Project :=
      { schemaVersion := 1, units := [orderService]
        summary := .ofUnits [orderService]
        diagnostics := orderService.diagnostics }
    let s : Store := ⟨id, "fingerprint", []⟩
    let e : StoreEntry := s.entry "/src/OrderService.java" 1700000000000000000 "now" orderService
    p.Fits ∧ p.summary.stereotypes = [("service", 1)] ∧
      (Json.tree? p.toJson.compact).bind Project.ofJson? = some p ∧
      SourceUnit.ofJson? orderService.toJson = some orderService ∧
      StoreEntry.read? e.write = some e ∧
      (s.put e.key.path 1700000000000000000 "now" orderService).get? e.key.path
        1700000000000000000 = some orderService := by
  intro p s e
  have hproject : p.Fits := by decide +kernel
  have hunit : orderService.Fits := by decide +kernel
  have hkeeps : Store.Keeps 1700000000000000000 orderService := ⟨by decide, hunit⟩
  have hentry : e.Fits := ⟨by decide, hkeeps.modified, hunit⟩
  exact ⟨hproject, by decide +kernel, (decode_written.1 p hproject).2,
    (decode_written.2.1 orderService hunit).1, (decode_written.2.2.1 e hentry).2,
    decode_written.2.2.2 s e.key.path _ "now" orderService hkeeps⟩

end MigrationAudit
