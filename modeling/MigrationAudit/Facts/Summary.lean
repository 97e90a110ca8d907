import MigrationAudit.Facts.Basic
import MigrationAudit.Facts.Lists

/-!
# Counts over a project

The units, classes, routines and lines of a project counted together, with the data-access
technologies that its dependencies reveal.
-/

namespace MigrationAudit

def totalOf {α : Type} (count : α → Nat) (l : List α) : Nat := l.foldr (fun a n => count a + n) 0

@[simp] theorem totalOf_nil {α : Type} (count : α → Nat) : totalOf count [] = 0 := rfl

@[simp] theorem totalOf_cons {α : Type} (count : α → Nat) (a : α) (l : List α) :
    totalOf count (a :: l) = count a + totalOf count l := rfl

structure KindCounts where
  form : Nat
  dataModule : Nat
  service : Nat
  utility : Nat
  plainUnit : Nat
  unknown : Nat
deriving DecidableEq, Repr

structure Summary where
  unitCount : Nat
  unitsByKind : KindCounts
  classCount : Nat
  routineCount : Nat
  fieldCount : Nat
  dataOpCount : Nat
  totalLines : Nat
  codeLines : Nat
  technologies : List String
  stereotypes : List (String × Nat)
deriving DecidableEq, Repr

/-- The data-access technology that a dependency implies. -/
def technologyOf? (dependency : String) : Option String :=
  let lower := dependency.toLower
  let last := lastComponent lower
  if last == "adodb" || last.startsWith "adoint" then some "ADO"
  else if last == "dbtables" || lower.startsWith "bde." then some "BDE"
  else if lower.startsWith "firedac" then some "FireDAC"
  else if lower.startsWith "ibx." ||
      ["ibdatabase", "ibquery", "ibcustomdataset", "ibtable", "ibsql"].contains last then
    some "InterBase"
  else if last == "sqlexpr" || last.startsWith "dbxcommon" || last == "dbxpress" then
    some "dbExpress"
  else if lower.startsWith "javax.persistence" || lower.startsWith "jakarta.persistence" then
    some "JPA"
  else if lower.startsWith "org.springframework.data" then some "Spring Data"
  else if lower.startsWith "java.sql" then some "JDBC"
  else none

/-- The technologies in the order of their names. -/
def knownTechnologies : List String :=
  ["ADO", "BDE", "FireDAC", "InterBase", "JDBC", "JPA", "Spring Data", "dbExpress"]

/-- The stereotypes in the order of their names. -/
def stereotypesByName : List Stereotype :=
  [.component, .configuration, .controller, .entity, .repository, .service]

namespace Summary

def ofUnits (units : List SourceUnit) : Summary :=
  let count (k : UnitKind) := units.countP (·.kind == k)
  let classes := units.flatMap (·.classes)
  let found := (units.flatMap (·.dependencies)).filterMap (technologyOf? ·.name)
  { unitCount := units.length
    unitsByKind :=
      { form := count .form
        dataModule := count .dataModule
        service := count .service
        utility := count .utility
        plainUnit := count .plainUnit
        unknown := count .unknown }
    classCount := classes.length
    routineCount := totalOf (·.allRoutines.length) units
    fieldCount := totalOf (·.fields.length) classes
    dataOpCount := totalOf (·.dataOps.length) units
    totalLines := totalOf (·.metrics.totalLines) units
    codeLines := totalOf (·.metrics.codeLines) units
    technologies := knownTechnologies.filter fun t => found.contains t
    stereotypes := stereotypesByName.filterMap fun s =>
      match classes.countP (·.stereotype == some s) with
      | 0 => none
      | n => some (tag s, n) }

end Summary

end MigrationAudit
