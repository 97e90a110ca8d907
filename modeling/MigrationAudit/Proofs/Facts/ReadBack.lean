import MigrationAudit.Facts.Exchange
import MigrationAudit.Proofs.Json.RoundTrip
import Mathlib.Tactic.MkIffOfInductiveProp

/-!
# Facts that were written and read again

A reader undoes a writer when it takes what is read for the tree of a value back to the value. The
numbers of facts have bounds, which a reader checks: a value with a larger number is refused, and it
is never mistaken for another one.
-/

namespace MigrationAudit

namespace Json

/-! ## The values under a key -/

@[simp]
theorem valuesOf_nil (key : String) : (obj []).valuesOf key = [] :=
  rfl

@[simp]
theorem valuesOf_cons (k : String) (v : Json) (rest : List (String × Json)) (key : String) :
    (obj ((k, v) :: rest)).valuesOf key =
      if k = key then v :: (obj rest).valuesOf key else (obj rest).valuesOf key := by
  by_cases h : k = key <;> simp [valuesOf, h]

@[simp]
theorem valuesOf_append (xs ys : List (String × Json)) (key : String) :
    (obj (xs ++ ys)).valuesOf key = (obj xs).valuesOf key ++ (obj ys).valuesOf key := by
  simp [valuesOf]

@[simp]
theorem valuesOf_present {α : Type} (k : String) (f : α → Json) (o : Option α) (key : String) :
    (obj (present k f o)).valuesOf key = if k = key then (o.map f).toList else [] := by
  cases o with
  | none => simp [present]
  | some a => simp [present]

theorem valuesOf_reread (j : Json) (key : String) :
    j.reread.valuesOf key = (j.valuesOf key).map reread := by
  cases j with
  | obj entries =>
    rw [reread, rereadEntries_eq_map, valuesOf, valuesOf, List.filter_map, List.map_map,
      List.map_map]
    rfl
  | int i =>
    rw [reread]
    split <;> rfl
  | _ => rfl

theorem record_reread {j : Json} (h : j.isObject) (names : List String) :
    j.reread.record names = j.reread := by
  cases j with
  | obj entries => rfl
  | _ => cases h

theorem holdWhole_append (xs ys : List (String × Json)) :
    holdWhole (xs ++ ys) = (holdWhole xs && holdWhole ys) := by
  rw [holdWhole_eq_all, holdWhole_eq_all, holdWhole_eq_all, List.all_append]

theorem holdWhole_present {α : Type} (k : String) {f : α → Json} (h : ∀ a, (f a).isWhole)
    (o : Option α) : holdWhole (present k f o) := by
  cases o with
  | none => rfl
  | some a => simp [present, holdWhole, h a]

/-! ## Readers that undo writers -/

/-- A reader takes what is read for a written value back to the value, if the value fits, and takes
it to nothing else. No value is written as `null`, or with numbers that are not whole. -/
structure ReadsBack {α : Type} (write : α → Json) (read : Json → Option α) (fits : α → Prop) :
    Prop where
  whole : ∀ a, (write a).isWhole
  ne_null : ∀ a, (write a).reread ≠ .null
  reads : ∀ a b, read (write a).reread = some b ↔ fits a ∧ b = a

namespace ReadsBack

variable {α : Type} {write : α → Json} {read : Json → Option α} {fits : α → Prop}

theorem bind_eq_some_iff {β : Type} {x : Option α} {a : α} {p : Prop}
    (h : ∀ b, x = some b ↔ p ∧ b = a) (next : α → Option β) (c : β) :
    (x >>= next) = some c ↔ p ∧ next a = some c := by
  rw [Option.bind_eq_bind, Option.bind_eq_some_iff]
  constructor
  · rintro ⟨b, hb, hnext⟩
    obtain ⟨hp, rfl⟩ := (h b).mp hb
    exact ⟨hp, hnext⟩
  · rintro ⟨hp, hnext⟩
    exact ⟨a, (h a).mpr ⟨hp, rfl⟩, hnext⟩

theorem field (h : ReadsBack write read fits) (β : Type) (j : Json) (key : String) (a : α)
    (hvalues : j.valuesOf key = [write a]) (next : α → Option β) (c : β) :
    (j.reread.field? key read >>= next) = some c ↔ fits a ∧ next a = some c := by
  apply bind_eq_some_iff
  intro b
  rw [field?, valuesOf_reread, hvalues]
  exact h.reads a b

theorem fieldD (h : ReadsBack write read fits) (β : Type) (j : Json) (key : String) (a : α)
    (hvalues : j.valuesOf key = [write a]) (default : α) (next : α → Option β) (c : β) :
    (j.reread.fieldD? key read default >>= next) = some c ↔ fits a ∧ next a = some c := by
  apply bind_eq_some_iff
  intro b
  rw [fieldD?, valuesOf_reread, hvalues]
  exact h.reads a b

theorem asOption (h : ReadsBack write read fits) (a : α) :
    asOption? read (write a).reread = (read (write a).reread).map some := by
  have hne := h.ne_null a
  cases hj : (write a).reread with
  | null => exact absurd hj hne
  | _ => rfl

theorem optional (h : ReadsBack write read fits) (β : Type) (j : Json) (key : String) (o : Option α)
    (hvalues : j.valuesOf key = (o.map write).toList) (next : Option α → Option β) (c : β) :
    (j.reread.optional? key read >>= next) = some c ↔
      (∀ a ∈ o, fits a) ∧ next o = some c := by
  apply bind_eq_some_iff
  intro b
  rw [optional?, fieldD?, valuesOf_reread, hvalues]
  cases o with
  | none => simp [eq_comm]
  | some a =>
    simp only [Option.map_some, Option.toList_some, List.map_cons, List.map_nil, h.asOption,
      Option.map_eq_some_iff, h.reads, Option.mem_some_iff, forall_eq']
    constructor
    · rintro ⟨b, ⟨hfits, rfl⟩, rfl⟩
      exact ⟨hfits, rfl⟩
    · rintro ⟨hfits, rfl⟩
      exact ⟨a, ⟨hfits, rfl⟩, rfl⟩

theorem list (h : ReadsBack write read fits) :
    ReadsBack (ofList write) (asList? read) fun items => ∀ a ∈ items, fits a where
  whole items := by
    rw [ofList, isWhole, areWhole_eq_all, List.all_map, List.all_eq_true]
    intro a _
    exact h.whole a
  ne_null items := by
    simp [ofList, reread]
  reads items read' := by
    rw [ofList, reread, rereadItems_eq_map, asList?]
    induction items generalizing read' with
    | nil => simp [eq_comm]
    | cons a items ih =>
      simp only [List.map_cons, List.mapM_cons, Option.bind_eq_bind, Option.bind_eq_some_iff,
        h.reads, ih, List.forall_mem_cons]
      constructor
      · rintro ⟨_, ⟨ha, rfl⟩, _, ⟨hitems, rfl⟩, ⟨⟩⟩
        exact ⟨⟨ha, hitems⟩, rfl⟩
      · rintro ⟨⟨ha, hitems⟩, rfl⟩
        exact ⟨a, ⟨ha, rfl⟩, items, ⟨hitems, rfl⟩, rfl⟩

end ReadsBack

theorem readsBack_str : ReadsBack .str asString? fun _ => True where
  whole _ := rfl
  ne_null _ := by simp [reread]
  reads s t := by simp [reread, asString?, eq_comm]

theorem readsBack_bool : ReadsBack .bool asBool? fun _ => True where
  whole _ := rfl
  ne_null _ := by simp [reread]
  reads b c := by simp [reread, asBool?, eq_comm]

/-- Whether a number needs no more bits than given. -/
def HasBits (bits n : Nat) : Prop := n < Nat.pow 2 bits

instance (bits n : Nat) : Decidable (HasBits bits n) :=
  inferInstanceAs (Decidable (n < Nat.pow 2 bits))

/-- Whether or not a number is in the range of doubles does not matter to a reader of numbers of at
most 128 bits. -/
theorem readsBack_nat {bits : Nat} (h : bits ≤ 128) :
    ReadsBack nat (asNat? bits) (HasBits bits) where
  whole _ := rfl
  ne_null n := by
    rw [nat, reread]
    split <;> simp
  reads n m := by
    have hbound : Nat.pow 2 bits ≤ wholeBound := Nat.pow_le_pow_right (by decide) h
    rw [nat, reread]
    split
    next hlarge =>
      have hle : wholeBound ≤ n := by simpa using (Bool.and_eq_true_iff.mp hlarge).1
      simp only [asNat?]
      constructor
      · rintro ⟨⟩
      · rintro ⟨hlt, -⟩
        exact absurd hlt (Nat.not_lt.mpr (Nat.le_trans hbound hle))
    next =>
      have hcond : (0 ≤ (n : Int) ∧ n < Nat.pow 2 bits) ↔ HasBits bits n :=
        and_iff_right (Int.natCast_nonneg n)
      simp only [asNat?, Int.toNat_natCast, hcond]
      split
      next hlt => simp [hlt, eq_comm]
      next hge => simp [hge]

theorem readsBack_tag {α : Type} [Tagged α] (h : ∀ a : α, Tagged.ofTag? (tag a) = some a) :
    ReadsBack (ofTag : α → Json) asTag? fun _ => True where
  whole _ := rfl
  ne_null _ := by simp [ofTag, reread]
  reads a b := by simp [ofTag, reread, asTag?, h, eq_comm]

theorem readsBack_strings : ReadsBack ofStrings asStrings? fun _ => True where
  whole items := readsBack_str.list.whole items
  ne_null items := readsBack_str.list.ne_null items
  reads items read := by
    rw [ofStrings, asStrings?, readsBack_str.list.reads]
    simp

theorem readsBack_nat32 : ReadsBack nat asNat32? (HasBits 32) :=
  readsBack_nat (by decide)

end Json

open Json

/-! ## Tags -/

theorem readsBack_language : ReadsBack (ofTag : Language → Json) asTag? fun _ => True := by
  apply readsBack_tag
  intro a
  cases a <;> decide

theorem readsBack_unitKind : ReadsBack (ofTag : UnitKind → Json) asTag? fun _ => True := by
  apply readsBack_tag
  intro a
  cases a <;> decide

theorem readsBack_routineKind : ReadsBack (ofTag : RoutineKind → Json) asTag? fun _ => True := by
  apply readsBack_tag
  intro a
  cases a <;> decide

theorem readsBack_visibility : ReadsBack (ofTag : Visibility → Json) asTag? fun _ => True := by
  apply readsBack_tag
  intro a
  cases a <;> decide

theorem readsBack_stereotype : ReadsBack (ofTag : Stereotype → Json) asTag? fun _ => True := by
  apply readsBack_tag
  intro a
  cases a <;> decide

theorem readsBack_dataOpKind : ReadsBack (ofTag : DataOpKind → Json) asTag? fun _ => True := by
  apply readsBack_tag
  intro a
  cases a <;> decide

theorem readsBack_dependencyScope :
    ReadsBack (ofTag : DependencyScope → Json) asTag? fun _ => True := by
  apply readsBack_tag
  intro a
  cases a <;> decide

theorem readsBack_diagnosticKind :
    ReadsBack (ofTag : DiagnosticKind → Json) asTag? fun _ => True := by
  apply readsBack_tag
  intro a
  cases a <;> decide

/-! ## Records -/

theorem readsBack_param : ReadsBack Param.toJson Param.ofJson? fun _ => True where
  whole p := by
    simp [Param.toJson, isWhole, holdWhole, holdWhole_append,
      holdWhole_present _ readsBack_str.whole]
  ne_null p := by
    simp [Param.toJson, reread]
  reads p v := by
    have hname := readsBack_str.field Param p.toJson "name" p.name (by simp [Param.toJson])
    have htypeName := readsBack_str.optional Param p.toJson "type_name" p.typeName
      (by simp [Param.toJson])
    have hmodifier := readsBack_str.optional Param p.toJson "modifier" p.modifier
      (by simp [Param.toJson])
    simp only [Param.ofJson?, record_reread (show p.toJson.isObject from rfl), hname, htypeName,
      hmodifier, implies_true, true_and, Option.some.injEq]
    exact eq_comm

theorem readsBack_endpoint : ReadsBack Endpoint.toJson Endpoint.ofJson? fun _ => True where
  whole e := by
    simp [Endpoint.toJson, isWhole, holdWhole]
  ne_null e := by
    simp [Endpoint.toJson, reread]
  reads e v := by
    have hhttpMethod := readsBack_str.field Endpoint e.toJson "http_method" e.httpMethod
      (by simp [Endpoint.toJson])
    have hpath := readsBack_str.field Endpoint e.toJson "path" e.path (by simp [Endpoint.toJson])
    simp only [Endpoint.ofJson?, record_reread (show e.toJson.isObject from rfl), hhttpMethod,
      hpath, true_and, Option.some.injEq]
    exact eq_comm

@[mk_iff]
structure Routine.Fits (r : Routine) : Prop where
  complexity : HasBits 32 r.complexity
  line : HasBits 32 r.line

instance (r : Routine) : Decidable r.Fits :=
  decidable_of_iff' _ (Routine.fits_iff r)

theorem readsBack_routine : ReadsBack Routine.toJson Routine.ofJson? Routine.Fits where
  whole r := by
    simp [Routine.toJson, isWhole, holdWhole, holdWhole_append,
      holdWhole_present _ readsBack_str.whole, readsBack_routineKind.whole,
      readsBack_param.list.whole, holdWhole_present _ readsBack_visibility.whole,
      readsBack_nat32.whole, readsBack_strings.whole, holdWhole_present _ readsBack_endpoint.whole]
  ne_null r := by
    simp [Routine.toJson, reread]
  reads r v := by
    have hname := readsBack_str.field Routine r.toJson "name" r.name (by simp [Routine.toJson])
    have howner := readsBack_str.optional Routine r.toJson "owner" r.owner
      (by simp [Routine.toJson])
    have hkind := readsBack_routineKind.field Routine r.toJson "kind" r.kind
      (by simp [Routine.toJson])
    have hparams := readsBack_param.list.field Routine r.toJson "params" r.params
      (by simp [Routine.toJson])
    have hreturnType := readsBack_str.optional Routine r.toJson "return_type" r.returnType
      (by simp [Routine.toJson])
    have hvisibility := readsBack_visibility.optional Routine r.toJson "visibility" r.visibility
      (by simp [Routine.toJson])
    have hcomplexity := readsBack_nat32.field Routine r.toJson "complexity" r.complexity
      (by simp [Routine.toJson])
    have hcallHints := readsBack_strings.field Routine r.toJson "call_hints" r.callHints
      (by simp [Routine.toJson])
    have hisEventHandler :=
      readsBack_bool.fieldD Routine r.toJson "is_event_handler" r.isEventHandler
        (by simp [Routine.toJson])
    have hisClassLevel := readsBack_bool.fieldD Routine r.toJson "is_class_level" r.isClassLevel
      (by simp [Routine.toJson])
    have hhasBody := readsBack_bool.fieldD Routine r.toJson "has_body" r.hasBody
      (by simp [Routine.toJson])
    have hdirectives := readsBack_strings.fieldD Routine r.toJson "directives" r.directives
      (by simp [Routine.toJson])
    have hannotations := readsBack_strings.fieldD Routine r.toJson "annotations" r.annotations
      (by simp [Routine.toJson])
    have hendpoint := readsBack_endpoint.optional Routine r.toJson "endpoint" r.endpoint
      (by simp [Routine.toJson])
    have hline := readsBack_nat32.field Routine r.toJson "line" r.line (by simp [Routine.toJson])
    simp only [Routine.ofJson?, record_reread (show r.toJson.isObject from rfl), hname, howner,
      hkind, hparams, hreturnType, hvisibility, hcomplexity, hcallHints, hisEventHandler,
      hisClassLevel, hhasBody, hdirectives, hannotations, hendpoint, hline, implies_true, true_and,
      Option.some.injEq]
    constructor
    · rintro ⟨hcomplexity, hline, rfl⟩
      exact ⟨⟨hcomplexity, hline⟩, rfl⟩
    · rintro ⟨hfits, rfl⟩
      exact ⟨hfits.complexity, hfits.line, rfl⟩

def Field.Fits (f : Field) : Prop := HasBits 32 f.line

instance (f : Field) : Decidable f.Fits := inferInstanceAs (Decidable (HasBits 32 f.line))

theorem readsBack_field : ReadsBack Field.toJson Field.ofJson? Field.Fits where
  whole f := by
    simp [Field.toJson, isWhole, holdWhole, holdWhole_append,
      holdWhole_present _ readsBack_str.whole, readsBack_visibility.whole, readsBack_strings.whole,
      readsBack_nat32.whole]
  ne_null f := by
    simp [Field.toJson, reread]
  reads f v := by
    have hname := readsBack_str.field Field f.toJson "name" f.name (by simp [Field.toJson])
    have htypeName := readsBack_str.optional Field f.toJson "type_name" f.typeName
      (by simp [Field.toJson])
    have hvisibility := readsBack_visibility.field Field f.toJson "visibility" f.visibility
      (by simp [Field.toJson])
    have hisProperty := readsBack_bool.fieldD Field f.toJson "is_property" f.isProperty
      (by simp [Field.toJson])
    have hannotations := readsBack_strings.fieldD Field f.toJson "annotations" f.annotations
      (by simp [Field.toJson])
    have hline := readsBack_nat32.field Field f.toJson "line" f.line (by simp [Field.toJson])
    simp only [Field.ofJson?, record_reread (show f.toJson.isObject from rfl), hname, htypeName,
      hvisibility, hisProperty, hannotations, hline, implies_true, true_and, Option.some.injEq]
    constructor
    · rintro ⟨hfits, rfl⟩
      exact ⟨hfits, rfl⟩
    · rintro ⟨hfits, rfl⟩
      exact ⟨hfits, rfl⟩

@[mk_iff]
structure ClassDecl.Fits (c : ClassDecl) : Prop where
  methods : ∀ r ∈ c.methods, r.Fits
  fields : ∀ f ∈ c.fields, f.Fits
  line : HasBits 32 c.line

instance (c : ClassDecl) : Decidable c.Fits :=
  decidable_of_iff' _ (ClassDecl.fits_iff c)

theorem readsBack_classDecl : ReadsBack ClassDecl.toJson ClassDecl.ofJson? ClassDecl.Fits where
  whole c := by
    simp [ClassDecl.toJson, isWhole, holdWhole, holdWhole_append,
      holdWhole_present _ readsBack_str.whole, readsBack_strings.whole,
      readsBack_routine.list.whole, readsBack_field.list.whole,
      holdWhole_present _ readsBack_stereotype.whole, readsBack_nat32.whole]
  ne_null c := by
    simp [ClassDecl.toJson, reread]
  reads c v := by
    have hname := readsBack_str.field ClassDecl c.toJson "name" c.name (by simp [ClassDecl.toJson])
    have hparent := readsBack_str.optional ClassDecl c.toJson "parent" c.parent
      (by simp [ClassDecl.toJson])
    have hinterfaces := readsBack_strings.fieldD ClassDecl c.toJson "interfaces" c.interfaces
      (by simp [ClassDecl.toJson])
    have hmethods := readsBack_routine.list.field ClassDecl c.toJson "methods" c.methods
      (by simp [ClassDecl.toJson])
    have hfields := readsBack_field.list.field ClassDecl c.toJson "fields" c.fields
      (by simp [ClassDecl.toJson])
    have hannotations := readsBack_strings.fieldD ClassDecl c.toJson "annotations" c.annotations
      (by simp [ClassDecl.toJson])
    have hstereotype := readsBack_stereotype.optional ClassDecl c.toJson "stereotype" c.stereotype
      (by simp [ClassDecl.toJson])
    have htable := readsBack_str.optional ClassDecl c.toJson "table" c.table
      (by simp [ClassDecl.toJson])
    have hisFormLike := readsBack_bool.field ClassDecl c.toJson "is_form_like" c.isFormLike
      (by simp [ClassDecl.toJson])
    have hisDataModule := readsBack_bool.fieldD ClassDecl c.toJson "is_data_module" c.isDataModule
      (by simp [ClassDecl.toJson])
    have hisDataAccessLike :=
      readsBack_bool.field ClassDecl c.toJson "is_data_access_like" c.isDataAccessLike
        (by simp [ClassDecl.toJson])
    have hline := readsBack_nat32.field ClassDecl c.toJson "line" c.line
      (by simp [ClassDecl.toJson])
    simp only [ClassDecl.ofJson?, record_reread (show c.toJson.isObject from rfl), hname, hparent,
      hinterfaces, hmethods, hfields, hannotations, hstereotype, htable, hisFormLike, hisDataModule,
      hisDataAccessLike, hline, implies_true, true_and, Option.some.injEq]
    constructor
    · rintro ⟨hmethods, hfields, hline, rfl⟩
      exact ⟨⟨hmethods, hfields, hline⟩, rfl⟩
    · rintro ⟨hfits, rfl⟩
      exact ⟨hfits.methods, hfits.fields, hfits.line, rfl⟩

def DataOp.Fits (d : DataOp) : Prop := HasBits 32 d.line

instance (d : DataOp) : Decidable d.Fits := inferInstanceAs (Decidable (HasBits 32 d.line))

theorem readsBack_dataOp : ReadsBack DataOp.toJson DataOp.ofJson? DataOp.Fits where
  whole d := by
    simp [DataOp.toJson, isWhole, holdWhole, holdWhole_append, readsBack_dataOpKind.whole,
      holdWhole_present _ readsBack_str.whole, readsBack_nat32.whole]
  ne_null d := by
    simp [DataOp.toJson, reread]
  reads d v := by
    have hkind := readsBack_dataOpKind.field DataOp d.toJson "kind" d.kind (by simp [DataOp.toJson])
    have hraw := readsBack_str.field DataOp d.toJson "raw" d.raw (by simp [DataOp.toJson])
    have htable := readsBack_str.optional DataOp d.toJson "table" d.table (by simp [DataOp.toJson])
    have hcomponentType := readsBack_str.optional DataOp d.toJson "component_type" d.componentType
      (by simp [DataOp.toJson])
    have howner := readsBack_str.optional DataOp d.toJson "owner" d.owner (by simp [DataOp.toJson])
    have hline := readsBack_nat32.field DataOp d.toJson "line" d.line (by simp [DataOp.toJson])
    simp only [DataOp.ofJson?, record_reread (show d.toJson.isObject from rfl), hkind, hraw, htable,
      hcomponentType, howner, hline, implies_true, true_and, Option.some.injEq]
    constructor
    · rintro ⟨hfits, rfl⟩
      exact ⟨hfits, rfl⟩
    · rintro ⟨hfits, rfl⟩
      exact ⟨hfits, rfl⟩

theorem readsBack_dependency : ReadsBack Dependency.toJson Dependency.ofJson? fun _ => True where
  whole d := by
    simp [Dependency.toJson, isWhole, holdWhole, readsBack_dependencyScope.whole]
  ne_null d := by
    simp [Dependency.toJson, reread]
  reads d v := by
    have hname := readsBack_str.field Dependency d.toJson "name" d.name
      (by simp [Dependency.toJson])
    have hscope := readsBack_dependencyScope.field Dependency d.toJson "scope" d.scope
      (by simp [Dependency.toJson])
    simp only [Dependency.ofJson?, record_reread (show d.toJson.isObject from rfl), hname, hscope,
      true_and, Option.some.injEq]
    exact eq_comm

@[mk_iff]
structure SizeMetrics.Fits (m : SizeMetrics) : Prop where
  totalLines : HasBits 32 m.totalLines
  codeLines : HasBits 32 m.codeLines
  commentLines : HasBits 32 m.commentLines
  blankLines : HasBits 32 m.blankLines
  maxNestingDepth : HasBits 32 m.maxNestingDepth

instance (m : SizeMetrics) : Decidable m.Fits :=
  decidable_of_iff' _ (SizeMetrics.fits_iff m)

theorem readsBack_sizeMetrics :
    ReadsBack SizeMetrics.toJson SizeMetrics.ofJson? SizeMetrics.Fits where
  whole m := by
    simp [SizeMetrics.toJson, isWhole, holdWhole, readsBack_nat32.whole]
  ne_null m := by
    simp [SizeMetrics.toJson, reread]
  reads m v := by
    have htotalLines := readsBack_nat32.field SizeMetrics m.toJson "total_lines" m.totalLines
      (by simp [SizeMetrics.toJson])
    have hcodeLines := readsBack_nat32.field SizeMetrics m.toJson "code_lines" m.codeLines
      (by simp [SizeMetrics.toJson])
    have hcommentLines := readsBack_nat32.field SizeMetrics m.toJson "comment_lines" m.commentLines
      (by simp [SizeMetrics.toJson])
    have hblankLines := readsBack_nat32.field SizeMetrics m.toJson "blank_lines" m.blankLines
      (by simp [SizeMetrics.toJson])
    have hmaxNestingDepth :=
      readsBack_nat32.field SizeMetrics m.toJson "max_nesting_depth" m.maxNestingDepth
        (by simp [SizeMetrics.toJson])
    simp only [SizeMetrics.ofJson?, record_reread (show m.toJson.isObject from rfl), htotalLines,
      hcodeLines, hcommentLines, hblankLines, hmaxNestingDepth, Option.some.injEq]
    constructor
    · rintro ⟨htotalLines, hcodeLines, hcommentLines, hblankLines, hmaxNestingDepth, rfl⟩
      exact ⟨⟨htotalLines, hcodeLines, hcommentLines, hblankLines, hmaxNestingDepth⟩, rfl⟩
    · rintro ⟨hfits, rfl⟩
      exact ⟨hfits.totalLines, hfits.codeLines, hfits.commentLines, hfits.blankLines,
        hfits.maxNestingDepth, rfl⟩

/-- Whether the line of a diagnostic, if it has one, has 32 bits. -/
def Diagnostic.Fits (d : Diagnostic) : Prop := ∀ n ∈ d.line, HasBits 32 n

instance (d : Diagnostic) : Decidable d.Fits := inferInstanceAs (Decidable (∀ n ∈ d.line, HasBits 32 n))

theorem readsBack_diagnostic : ReadsBack Diagnostic.toJson Diagnostic.ofJson? Diagnostic.Fits where
  whole d := by
    simp [Diagnostic.toJson, isWhole, holdWhole, readsBack_diagnosticKind.whole,
      holdWhole_present _ readsBack_nat32.whole]
  ne_null d := by
    simp [Diagnostic.toJson, reread]
  reads d v := by
    have hpath := readsBack_str.field Diagnostic d.toJson "path" d.path
      (by simp [Diagnostic.toJson])
    have hkind := readsBack_diagnosticKind.field Diagnostic d.toJson "kind" d.kind
      (by simp [Diagnostic.toJson])
    have hreason := readsBack_str.field Diagnostic d.toJson "reason" d.reason
      (by simp [Diagnostic.toJson])
    have hline := readsBack_nat32.optional Diagnostic d.toJson "line" d.line
      (by simp [Diagnostic.toJson])
    simp only [Diagnostic.ofJson?, record_reread (show d.toJson.isObject from rfl), hpath, hkind,
      hreason, hline, true_and, Option.some.injEq]
    constructor
    · rintro ⟨hfits, rfl⟩
      exact ⟨hfits, rfl⟩
    · rintro ⟨hfits, rfl⟩
      exact ⟨hfits, rfl⟩

@[mk_iff]
structure SourceUnit.Fits (u : SourceUnit) : Prop where
  classes : ∀ c ∈ u.classes, c.Fits
  routines : ∀ r ∈ u.routines, r.Fits
  dataOps : ∀ d ∈ u.dataOps, d.Fits
  metrics : u.metrics.Fits
  diagnostics : ∀ d ∈ u.diagnostics, d.Fits

instance (u : SourceUnit) : Decidable u.Fits :=
  decidable_of_iff' _ (SourceUnit.fits_iff u)

theorem readsBack_sourceUnit : ReadsBack SourceUnit.toJson SourceUnit.ofJson? SourceUnit.Fits where
  whole u := by
    simp [SourceUnit.toJson, isWhole, holdWhole, readsBack_language.whole, readsBack_unitKind.whole,
      readsBack_classDecl.list.whole, readsBack_routine.list.whole, readsBack_dependency.list.whole,
      readsBack_dataOp.list.whole, readsBack_sizeMetrics.whole, readsBack_diagnostic.list.whole]
  ne_null u := by
    simp [SourceUnit.toJson, reread]
  reads u v := by
    have hname := readsBack_str.field SourceUnit u.toJson "name" u.name
      (by simp [SourceUnit.toJson])
    have hpath := readsBack_str.field SourceUnit u.toJson "path" u.path
      (by simp [SourceUnit.toJson])
    have hlanguage := readsBack_language.field SourceUnit u.toJson "language" u.language
      (by simp [SourceUnit.toJson])
    have hkind := readsBack_unitKind.field SourceUnit u.toJson "kind" u.kind
      (by simp [SourceUnit.toJson])
    have hclasses := readsBack_classDecl.list.field SourceUnit u.toJson "classes" u.classes
      (by simp [SourceUnit.toJson])
    have hroutines := readsBack_routine.list.field SourceUnit u.toJson "routines" u.routines
      (by simp [SourceUnit.toJson])
    have hdependencies :=
      readsBack_dependency.list.field SourceUnit u.toJson "dependencies" u.dependencies
        (by simp [SourceUnit.toJson])
    have hdataOps := readsBack_dataOp.list.field SourceUnit u.toJson "database_ops" u.dataOps
      (by simp [SourceUnit.toJson])
    have hmetrics := readsBack_sizeMetrics.field SourceUnit u.toJson "metrics" u.metrics
      (by simp [SourceUnit.toJson])
    have hdiagnostics :=
      readsBack_diagnostic.list.field SourceUnit u.toJson "diagnostics" u.diagnostics
        (by simp [SourceUnit.toJson])
    simp only [SourceUnit.ofJson?, record_reread (show u.toJson.isObject from rfl), hname, hpath,
      hlanguage, hkind, hclasses, hroutines, hdependencies, hdataOps, hmetrics, hdiagnostics,
      implies_true, true_and, Option.some.injEq]
    constructor
    · rintro ⟨hclasses, hroutines, hdataOps, hmetrics, hdiagnostics, rfl⟩
      exact ⟨⟨hclasses, hroutines, hdataOps, hmetrics, hdiagnostics⟩, rfl⟩
    · rintro ⟨hfits, rfl⟩
      exact ⟨hfits.classes, hfits.routines, hfits.dataOps, hfits.metrics, hfits.diagnostics, rfl⟩

end MigrationAudit
