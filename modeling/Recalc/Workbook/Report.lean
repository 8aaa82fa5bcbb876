/-
Recalc/Workbook/Report.lean

What went wrong and how far it reaches.  A finding starts at some cells of the graph; it
involves them and everything that depends on them.  A finding that involves a declared
output is critical, any other a warning, and a workbook with a critical finding cannot
proceed.
-/
import Recalc.Graph.Basic

namespace Recalc

/-- The kinds of findings. -/
inductive IssueKind
  | parseError
  | unknownReference
  | arityError
  | circularReference
  | didNotConverge
  | unsupportedConstruct
deriving DecidableEq, Repr

namespace IssueKind

/-- The name of a kind. -/
def tag : IssueKind → String
  | .parseError => "parseError"
  | .unknownReference => "unknownReference"
  | .arityError => "arityError"
  | .circularReference => "circularReference"
  | .didNotConverge => "didNotConverge"
  | .unsupportedConstruct => "unsupportedConstruct"

/-- Every kind. -/
def all : List IssueKind :=
  [.parseError, .unknownReference, .arityError, .circularReference, .didNotConverge,
    .unsupportedConstruct]

end IssueKind

/-- Something that went wrong at some cells. -/
structure Finding where
  kind : IssueKind
  /-- The cell it is told about. -/
  cell : Coordinate
  message : String
  /-- Where in the formula, if anywhere. -/
  position : Option Nat
  /-- The cells it starts at. -/
  sources : List Nat

/-- A finding with its reach. -/
structure Issue where
  kind : IssueKind
  cell : Coordinate
  message : String
  position : Option Nat
  /-- Cells that depend on the failing ones. -/
  impacted : List Coordinate
  /-- Declared outputs among the failing and the impacted cells. -/
  blockedOutputs : List Coordinate
deriving DecidableEq, Repr

/-- The issue reaches a declared output. -/
def Issue.isCritical (i : Issue) : Bool := !i.blockedOutputs.isEmpty

/-- All findings of a workbook. -/
structure ErrorReport where
  criticalErrors : List Issue
  warnings : List Issue
  affectedCells : List Coordinate
  blockedOutputs : List Coordinate
  totalCells : Nat

namespace Graph

/-- The coordinates of some cells. -/
def coordinates (g : Graph) (ids : List Nat) : List Coordinate :=
  (g.nodesOf ids).map Node.coordinate

/-- The cells that a finding involves, in order. -/
def involved (g : Graph) (sources : List Nat) : List Nat :=
  let reached := g.forwardReachable sources
  (List.range g.nodes.size).filter fun id => sources.contains id || reached.contains id

/-- The cell is a declared output. -/
def isOutput (g : Graph) (id : Nat) : Bool := (g.node? id).any (·.role == .output)

/-- A finding with its reach. -/
def issue (g : Graph) (f : Finding) : Issue :=
  let impacted := (g.forwardReachable f.sources).filter fun id => !f.sources.contains id
  ⟨f.kind, f.cell, f.message, f.position, g.coordinates impacted,
    g.coordinates ((g.involved f.sources).filter g.isOutput)⟩

/-- The report of some findings. -/
def report (g : Graph) (findings : List Finding) : ErrorReport :=
  let issues := findings.map g.issue
  let involved := findings.map fun f => g.involved f.sources
  let affected := (List.range g.nodes.size).filter fun id => involved.any (·.contains id)
  { criticalErrors := issues.filter Issue.isCritical,
    warnings := issues.filter fun i => !i.isCritical,
    affectedCells := Coordinate.sort (g.coordinates affected),
    blockedOutputs := Coordinate.sort (g.coordinates (affected.filter g.isOutput)),
    totalCells := g.nodes.size }

end Graph

namespace ErrorReport

/-- No finding reaches a declared output. -/
def canProceed (r : ErrorReport) : Bool := r.criticalErrors.isEmpty

/-- All issues, the critical ones first. -/
def issues (r : ErrorReport) : List Issue := r.criticalErrors ++ r.warnings

/-- The share of cells affected, in percent. -/
def percentageAffected (r : ErrorReport) : Float :=
  if r.totalCells = 0 then 0.0
  else Binary64.ofNat r.affectedCells.length * 100.0 / Binary64.ofNat r.totalCells

end ErrorReport

end Recalc
