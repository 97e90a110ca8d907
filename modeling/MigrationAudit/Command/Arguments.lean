import MigrationAudit.Settings.Layers
import MigrationAudit.Text.Split

/-!
# Arguments

The arguments of the command name an action with its directories; options may stand before, between
and behind them. An option that is given again behind the name of an action wins over one in front
of it.
-/

namespace MigrationAudit

inductive Action
  | facts (directory : String)
  | plan (directory : String)
  | compare (source target : String)
  | cleanStore
deriving DecidableEq, Repr

structure Options where
  logLevel : Option String := none
  config : Option String := none
  storeDirectory : Option String := none
  noStore : Bool := false
  thresholds : ThresholdOverrides := {}
deriving DecidableEq, Repr

structure Invocation where
  action : Action
  options : Options
deriving DecidableEq, Repr

/-- Why arguments lead to no action: they are wrong, or they ask how to use the command. -/
inductive Refusal
  | usage
  | information
deriving DecidableEq, Repr

inductive ValueOption
  | logLevel
  | config
  | storeDirectory
  | coverageThreshold
  | minConfidence
  | similarityFloor
deriving DecidableEq, Repr

instance : Tagged ValueOption where
  all := [.logLevel, .config, .storeDirectory, .coverageThreshold, .minConfidence, .similarityFloor]
  tag
    | .logLevel => "log-level"
    | .config => "config"
    | .storeDirectory => "cache-dir"
    | .coverageThreshold => "coverage-threshold"
    | .minConfidence => "min-confidence"
    | .similarityFloor => "similarity-floor"

def logLevels : List String := ["trace", "debug", "info", "warn", "error"]

/-- Sets a value that is not set yet. -/
def setOnce {α : Type} (old new : Option α) : Option (Option α) :=
  if old.isSome || new.isNone then none else some new

def nonEmpty? (value : String) : Option String := if value.isEmpty then none else some value

namespace Options

/-- The options with the value of one more. Every option is given at most once. -/
def set? (o : Options) (name : ValueOption) (value : String) : Option Options := do
  let number := Decimal.number? value.toList
  let t := o.thresholds
  match name with
  | .logLevel =>
    let known := if logLevels.contains value then some value else none
    some { o with logLevel := ← setOnce o.logLevel known }
  | .config => some { o with config := ← setOnce o.config (nonEmpty? value) }
  | .storeDirectory =>
    some { o with storeDirectory := ← setOnce o.storeDirectory (nonEmpty? value) }
  | .coverageThreshold =>
    let coverageThreshold ← setOnce t.coverageThreshold number
    some { o with thresholds := { t with coverageThreshold } }
  | .minConfidence =>
    let minConfidence ← setOnce t.minConfidence number
    some { o with thresholds := { t with minConfidence } }
  | .similarityFloor =>
    let similarityFloor ← setOnce t.similarityFloor number
    some { o with thresholds := { t with similarityFloor } }

def contradictory (o : Options) : Bool := o.noStore && o.storeDirectory.isSome

/-- The options of an inner level over those of an outer one. -/
def overriding (inner outer : Options) : Options :=
  { logLevel := inner.logLevel <|> outer.logLevel
    config := inner.config <|> outer.config
    storeDirectory := inner.storeDirectory <|> outer.storeDirectory
    noStore := inner.noStore || outer.noStore
    thresholds :=
      { coverageThreshold := inner.thresholds.coverageThreshold <|> outer.thresholds.coverageThreshold
        minConfidence := inner.thresholds.minConfidence <|> outer.thresholds.minConfidence
        similarityFloor := inner.thresholds.similarityFloor <|> outer.thresholds.similarityFloor } }

end Options

/-- How far the name of the action has been read. -/
inductive ArgumentLevel
  | top
  | facts
  | plan
  | compare
  | store
  | clean
deriving DecidableEq, Repr

namespace ArgumentLevel

/-- The names that lead to inner levels. -/
def inner : ArgumentLevel → List (String × ArgumentLevel)
  | top => [("facts", facts), ("plan", plan), ("compare", compare), ("cache", store)]
  | store => [("clean", clean)]
  | _ => []

def operandCount : ArgumentLevel → Nat
  | facts | plan => 1
  | compare => 2
  | _ => 0

def action? : ArgumentLevel → List String → Option Action
  | facts, [directory] => some (.facts directory)
  | plan, [directory] => some (.plan directory)
  | compare, [source, target] => some (.compare source target)
  | clean, [] => some .cleanStore
  | _, _ => none

/-- Whether names lead from a level to one that can be asked about. -/
def leadsOn : ArgumentLevel → List String → Bool
  | _, [] => true
  | l, name :: names =>
    match l.inner.lookup name with
    | some next => next.leadsOn names
    | none => name == "help" && !l.inner.isEmpty && names.isEmpty

end ArgumentLevel

/-- What has been read of the arguments: the level, the options outside of it and at it, and the
operands. -/
structure ArgumentState where
  level : ArgumentLevel := .top
  outer : Options := {}
  own : Options := {}
  operands : List String := []

namespace ArgumentState

def enter (s : ArgumentState) (level : ArgumentLevel) : Except Refusal ArgumentState :=
  if s.own.contradictory then .error .usage else .ok { level, outer := s.own.overriding s.outer }

def take (s : ArgumentState) (operand : String) : Except Refusal ArgumentState :=
  if operand.isEmpty || s.level.operandCount ≤ s.operands.length then .error .usage
  else .ok { s with operands := s.operands ++ [operand] }

def set (s : ArgumentState) (name : ValueOption) (value : String) : Except Refusal ArgumentState :=
  match s.own.set? name value with
  | some own => .ok { s with own }
  | none => .error .usage

def flag (s : ArgumentState) (name : String) : Except Refusal ArgumentState :=
  if name == "help" || (name == "version" && s.level == .top) then .error .information
  else if name == "no-cache" && !s.own.noStore then
    .ok { s with own := { s.own with noStore := true } }
  else .error .usage

def finish (s : ArgumentState) : Except Refusal Invocation :=
  match s.level.action? s.operands with
  | some action =>
    if s.own.contradictory then .error .usage else .ok ⟨action, s.own.overriding s.outer⟩
  | none => .error .usage

/-- Whether an argument can be the value of an option that stands before it. -/
def isPlain (argument : String) : Bool := !argument.startsWith "-" || argument == "-"

def read (s : ArgumentState) : List String → Except Refusal Invocation
  | [] => s.finish
  | argument :: rest =>
    match s.level.inner.lookup argument, argument.toList with
    | some level, _ => do (← s.enter level).read rest
    | none, ['-', '-'] => do (← rest.foldlM take s).finish
    | none, '-' :: '-' :: body =>
      match Text.splitFirst? '=' body with
      | some (name, value) =>
        match (Tagged.ofTag? (String.ofList name) : Option ValueOption) with
        | some name => do (← s.set name (String.ofList value)).read rest
        | none => .error .usage
      | none =>
        match (Tagged.ofTag? (String.ofList body) : Option ValueOption), rest with
        | some name, value :: rest =>
          if isPlain value then do (← s.set name value).read rest else .error .usage
        | some _, [] => .error .usage
        | none, rest => do (← s.flag (String.ofList body)).read rest
    | none, '-' :: c :: _ =>
      .error (if c == 'h' || (c == 'V' && s.level == .top) then .information else .usage)
    | none, _ =>
      if argument == "help" && !s.level.inner.isEmpty then
        .error (if s.level.leadsOn rest then .information else .usage)
      else do (← s.take argument).read rest

end ArgumentState

def Invocation.read (arguments : List String) : Except Refusal Invocation :=
  ArgumentState.read {} arguments

end MigrationAudit
