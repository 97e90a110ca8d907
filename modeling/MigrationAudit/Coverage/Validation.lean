import MigrationAudit.Facts.Project
import MigrationAudit.Settings.Basic

/-!
# Validation

Three rules hold a target project against its source: enough must be covered, forms need
controllers, and data access needs entities and repositories. A rule without a reason to apply finds
nothing.
-/

namespace MigrationAudit

/-- The outcome of a rule, or of all of them. -/
inductive Verdict
  | pass
  | warn
  | fail
deriving DecidableEq, Repr

instance : Tagged Verdict where
  all := [.pass, .warn, .fail]
  tag
    | .pass => "PASS"
    | .warn => "WARN"
    | .fail => "FAIL"

/-- The classes of a target project by their stereotypes, and its routines. -/
structure TargetSummary where
  classes : Nat
  routines : Nat
  endpoints : Nat
  controllers : Nat
  services : Nat
  repositories : Nat
  entities : Nat
  configurations : Nat
  components : Nat
deriving DecidableEq, Repr

def TargetSummary.ofProject (p : Project) : TargetSummary :=
  let classes := p.allClasses.map (·.2)
  let routines := p.allRoutines.map (·.2)
  let count (s : Stereotype) := classes.countP (·.stereotype == some s)
  { classes := classes.length
    routines := routines.length
    endpoints := routines.countP (·.endpoint.isSome)
    controllers := count .controller
    services := count .service
    repositories := count .repository
    entities := count .entity
    configurations := count .configuration
    components := count .component }

namespace Project

def hasForms (p : Project) : Bool :=
  p.units.any fun u => u.kind == .form || u.classes.any (·.isFormLike)

def hasDataAccess (p : Project) : Bool :=
  p.units.any fun u => u.kind == .dataModule || !u.dataOps.isEmpty ||
    u.classes.any fun c => c.isDataModule || c.isDataAccessLike

end Project

inductive Finding (α : Type)
  | coverage (overall threshold : α)
  | controllers (count : Nat)
  | persistence (entities repositories : Nat)
deriving DecidableEq, Repr

namespace Finding

variable {α : Type}

def rule : Finding α → String
  | coverage .. => "coverage"
  | controllers _ => "controllers"
  | persistence .. => "persistence"

def verdict [Scalar α] : Finding α → Verdict
  | coverage overall threshold => if threshold ≤ overall then .pass else .warn
  | controllers count => if 0 < count then .pass else .fail
  | persistence entities repositories =>
    if 0 < entities ∧ 0 < repositories then .pass else .warn

end Finding

section Scalar

variable {α : Type} [Scalar α]

/-- The findings of the rules that apply, in the order of the rules. -/
def validate (source : Project) (target : TargetSummary) (overall : α) (s : ComparisonSettings α) :
    List (Finding α) :=
  [.coverage overall s.thresholds.coverageThreshold] ++
    (if source.hasForms then [.controllers target.controllers] else []) ++
    (if source.hasDataAccess then [.persistence target.entities target.repositories] else [])

/-- The outcome of all rules: a failure decides, then warnings that outnumber the passes. -/
def Verdict.aggregate (verdicts : List Verdict) : Verdict :=
  if 0 < verdicts.count .fail then .fail
  else if verdicts.count .pass < verdicts.count .warn then .warn
  else .pass

inductive Priority
  | critical
  | high
deriving DecidableEq, Repr

instance : Tagged Priority where
  all := [.critical, .high]
  tag
    | .critical => "critical"
    | .high => "high"

inductive Recommendation (α : Type)
  | fixFailures (count : Nat)
  | reviewGaps (overall : α) (gaps : Nat)
deriving DecidableEq, Repr

def Recommendation.priority {α : Type} : Recommendation α → Priority
  | fixFailures _ => .critical
  | reviewGaps .. => .high

/-- What follows from the outcomes of the rules, the coverage and the number of gaps. -/
def recommend (verdicts : List Verdict) (overall : α) (gaps : Nat) (s : ComparisonSettings α) :
    List (Recommendation α) :=
  let failed := verdicts.count .fail
  (if 0 < failed then [.fixFailures failed] else []) ++
    (if overall < s.thresholds.recommendationCoverage then [.reviewGaps overall gaps] else [])

end Scalar

end MigrationAudit
