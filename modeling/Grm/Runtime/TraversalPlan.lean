import Grm.Backend.QueryExact
import Grm.Runtime.Requests

/-!
# What a traversal find plans

`build_runtime_graph_query` resolves each step to a relationship model and an end model that
fit together, and makes a hop of it. A find asks for the paths along these hops.
-/

open Std

set_option autoImplicit false

/-- A step with the models it is resolved to. -/
structure PlannedStep where
  relModel : RuntimeRelModel
  endModel : RuntimeNodeModel
  dir : Direction

namespace PlannedStep

/-- How a step is resolved from the model it starts at. -/
structure Resolves (catalog : SessionModelCatalog) (start : RuntimeNodeModel) (step : SessionTraversalStep) (p : PlannedStep) :
    Prop where
  ends : catalog.getNodeModel step.endModelName = some p.endModel
  along : p.dir = step.direction
  rel : stepRelModel catalog start p.endModel step = .ok (some p.relModel)
  fits : traversalStepMatchesModels start p.endModel p.relModel p.dir = true

def hop (p : PlannedStep) (current : Nat) : HopMatch where
  start := current
  relType := some p.relModel.relType
  relVar := current + 1
  dir := p.dir
  endVar := current + 2
  endLabels := [p.endModel.label]

def endMatch (p : PlannedStep) (current : Nat) : NodeMatch where
  var := current + 2
  labels := [p.endModel.label]
  idFilter := none
  propertyFilters := []

end PlannedStep

/-- The steps, each resolved from the model the one before it ends at. -/
def Planned (catalog : SessionModelCatalog) : RuntimeNodeModel → List SessionTraversalStep → List PlannedStep → Prop
  | _, [], [] => True
  | start, step :: steps, p :: ps => p.Resolves catalog start step ∧ Planned catalog p.endModel steps ps
  | _, _, _ => False

def plannedHops (current : Nat) : List PlannedStep → List HopMatch
  | [] => []
  | p :: ps => p.hop current :: plannedHops (current + 2) ps

section Plan
variable {catalog : SessionModelCatalog} {st st' : Planning}

end Plan

/-- The variable a find returns. -/
def SessionTraversalReturn.variable (mode : SessionTraversalReturn) (hops : Nat) : Return :=
  match mode with
  | .root => .node 0
  | .endNode => .node (2 * hops)
  | .edge => .rel (2 * hops - 1)

/-- The clause of a find's root. -/
def findRoot (model : RuntimeNodeModel) (idFilter : Option Int) (filters : List PropertyFilter) : NodeMatch where
  var := 0
  labels := [model.label]
  idFilter
  propertyFilters := filters

namespace SessionState
variable [Externals] {s : SessionState}

/-- What a find's plan says of its steps. -/
structure Plans (s : SessionState) (model : RuntimeNodeModel) (query : NodeFindQuery) (filters : List PropertyFilter)
    (plan : RuntimeTraversalPlan) (ps : List PlannedStep) (last : PlannedStep) : Prop where
  planned : Planned s.catalog model query.traversals ps
  isLast : ps.getLast? = some last
  shaped : InMemoryTx.Shaped plan.graphQuery (findRoot model query.idFilter filters) (plannedHops 0 ps)
  rootVar : plan.rootVar = 0
  endVar : plan.endVar = 2 * ps.length
  relVar : plan.returnRelVar = 2 * ps.length - 1
  endModel : plan.endModel = last.endModel
  relModel : plan.returnRelModel = last.relModel
  returned : plan.graphQuery.ret = query.returnMode.variable ps.length
  unpaged : plan.graphQuery.limit = none ∧ plan.graphQuery.offset = none

end SessionState
