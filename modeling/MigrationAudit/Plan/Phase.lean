import MigrationAudit.Plan.Component

/-!
# Phases

A plan has four phases. Components of high complexity come in the last one; all others are told
apart by their kind. A phase lasts as long as the effort of its components, but never less than its
minimum.
-/

namespace MigrationAudit

/-- A phase of every plan, before components are assigned to it. -/
structure PhaseTemplate where
  name : String
  minWeeks : Nat
  deliverables : List String
deriving DecidableEq, Repr

namespace PhaseTemplate

def preparation : PhaseTemplate where
  name := "Preparation and scaffolding"
  minWeeks := 2
  deliverables :=
    ["Target project skeleton and build configuration", "Shared utilities and validators",
      "Continuous integration pipeline"]

def domain : PhaseTemplate where
  name := "Entities and services"
  minWeeks := 3
  deliverables :=
    ["Persistence entities", "Repositories replacing embedded SQL", "Service layer"]

def web : PhaseTemplate where
  name := "Controllers and APIs"
  minWeeks := 4
  deliverables := ["REST controllers replacing forms", "API contracts"]

def integration : PhaseTemplate where
  name := "High-complexity components and integration"
  minWeeks := 3
  deliverables :=
    ["Migrated high-complexity components", "Integration tests",
      "Data migration and cut-over plan"]

def all : List PhaseTemplate := [preparation, domain, web, integration]

end PhaseTemplate

/-- The place of the phase that components of a kind belong to when they are not of high
complexity. -/
def TargetKind.phaseIndex : TargetKind → Nat
  | .utility | .validator | .component => 0
  | .entity | .service | .repository => 1
  | .controller => 2

def Component.phaseIndex {α : Type} (c : Component) (s : PlanningSettings α) : Nat :=
  if s.highComplexity ≤ c.complexity then 3 else c.targetKind.phaseIndex

structure Phase (α : Type) where
  number : Nat
  name : String
  durationWeeks : α
  effortWeeks : α
  deliverables : List String
  components : List String
deriving DecidableEq, Repr

variable {α : Type} [Scalar α]

def EffortWeeks.total (e : EffortWeeks α) (components : List Component) : α :=
  Scalar.sum (components.map fun c => e.of c.complexity)

namespace Phase

/-- The phase at a place, with those of the components that belong to it. -/
def ofTemplate (s : PlanningSettings α) (components : List Component) (t : PhaseTemplate)
    (index : Nat) : Phase α :=
  let own := components.filter fun c => c.phaseIndex s == index
  let effort := s.effort.total own
  { number := index + 1
    name := t.name
    durationWeeks := Scalar.max (Scalar.ofNat t.minWeeks) effort
    effortWeeks := effort
    deliverables := t.deliverables
    components := own.map (·.id) }

def schedule (s : PlanningSettings α) (components : List Component) : List (Phase α) :=
  PhaseTemplate.all.zipIdx.map fun (t, index) => ofTemplate s components t index

end Phase

end MigrationAudit
