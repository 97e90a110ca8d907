import MigrationAudit.Coverage.Score

/-!
# Categories

Entities are compared in four categories. Routines are compared with routines and classes with
classes; forms are compared with controllers and data modules with services.
-/

namespace MigrationAudit

inductive Category
  | routines
  | classes
  | forms
  | dataModules
deriving DecidableEq, Repr

namespace Category

/-- The categories in the order in which they are reported. -/
def all : List Category := [.routines, .classes, .forms, .dataModules]

instance : Tagged Category where
  all := all
  tag
    | .routines => "routines"
    | .classes => "classes"
    | .forms => "forms"
    | .dataModules => "data_modules"

end Category

namespace ComparisonSettings

variable {α : Type} (s : ComparisonSettings α)

def routineEntities (p : Project) : List Entity :=
  p.allRoutines.map fun (u, r) => s.routineEntity u.name r

def classEntities (p : Project) (wanted : ClassDecl → Bool) : List Entity :=
  (p.allClasses.filter fun (_, c) => wanted c).map fun (u, c) => s.classEntity u.name c

def sourceEntities (p : Project) (category : Category) : List Entity :=
  sortBy Entity.compare <|
    match category with
    | .routines => s.routineEntities p
    | .classes => s.classEntities p fun _ => true
    | .forms => s.classEntities p (·.isFormLike)
    | .dataModules => s.classEntities p (·.isDataModule)

def targetEntities (p : Project) (category : Category) : List Entity :=
  sortBy Entity.compare <|
    match category with
    | .routines => s.routineEntities p
    | .classes => s.classEntities p fun _ => true
    | .forms => s.classEntities p (·.stereotype == some .controller)
    | .dataModules => s.classEntities p (·.stereotype == some .service)

end ComparisonSettings

inductive CoverageStatus
  | excellent
  | good
  | partly
  | insufficient
deriving DecidableEq, Repr

namespace CoverageStatus

instance : Tagged CoverageStatus where
  all := [.excellent, .good, .partly, .insufficient]
  tag
    | .excellent => "excellent"
    | .good => "good"
    | .partly => "partial"
    | .insufficient => "insufficient"

/-- The status of a percentage: excellent from 90, good from 75, partial from 50. -/
def ofCoverage {α : Type} [Scalar α] (coverage : α) : CoverageStatus :=
  if Scalar.ofNat 90 ≤ coverage then .excellent
  else if Scalar.ofNat 75 ≤ coverage then .good
  else if Scalar.ofNat 50 ≤ coverage then .partly
  else .insufficient

end CoverageStatus

/-- A source entity linked to its counterpart. -/
structure Edge (α : Type) where
  category : Category
  source : Entity
  candidate : Candidate α
deriving DecidableEq, Repr

/-- A source entity without a counterpart, with the best candidate that was too weak. -/
structure Gap (α : Type) where
  category : Category
  source : Entity
  best : Option (Candidate α)
deriving DecidableEq, Repr

/-- The coverage of a category with at least one source entity. -/
structure CategoryCoverage (α : Type) where
  category : Category
  sourceCount : Nat
  targetCount : Nat
  matched : Nat
  coverage : α
  status : CoverageStatus
deriving DecidableEq, Repr

section Scalar

variable {α : Type} [Scalar α]

/-- The percentage that `matched` of `total` make, to two decimals and at most 100. -/
def coverageOf (matched total : Nat) : α :=
  Scalar.roundTo 100 (Scalar.min (Scalar.ratio matched total * Scalar.ofNat 100) (Scalar.ofNat 100))

namespace ComparisonSettings

variable (s : ComparisonSettings α)

/-- The best candidate for an entity, linked when its confidence suffices. -/
def link (category : Category) (targets : List Entity) (source : Entity) : Edge α ⊕ Gap α :=
  match bestCandidate? s source targets with
  | some c =>
    if s.thresholds.minConfidence ≤ c.confidence then .inl ⟨category, source, c⟩
    else .inr ⟨category, source, some c⟩
  | none => .inr ⟨category, source, none⟩

end ComparisonSettings

structure CategoryAudit (α : Type) where
  coverage : CategoryCoverage α
  edges : List (Edge α)
  gaps : List (Gap α)
deriving DecidableEq, Repr

def CategoryAudit.of (s : ComparisonSettings α) (source target : Project) (category : Category) :
    CategoryAudit α :=
  let sources := s.sourceEntities source category
  let targets := s.targetEntities target category
  let links := sources.map (s.link category targets)
  let edges := links.filterMap Sum.getLeft?
  let coverage := coverageOf edges.length sources.length
  { coverage :=
      { category
        sourceCount := sources.length
        targetCount := targets.length
        matched := edges.length
        coverage
        status := .ofCoverage coverage }
    edges
    gaps := links.filterMap Sum.getRight? }

/-- The comparison of one category; a category without source entities has none. -/
def CategoryAudit.of? (s : ComparisonSettings α) (source target : Project) (category : Category) :
    Option (CategoryAudit α) :=
  if (s.sourceEntities source category).isEmpty then none else some (.of s source target category)

end Scalar

end MigrationAudit
