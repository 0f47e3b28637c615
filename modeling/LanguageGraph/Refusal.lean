/-
# Refusal — why the graph refuses a change

Every check names the first precondition that a change violates. `Refusal.message` words the cause.
-/
import LanguageGraph.Edge.Stamp
import LanguageGraph.Edge.Type
import LanguageGraph.Element.Id
import LanguageGraph.Element.Kind

namespace LanguageGraph

set_option autoImplicit false

/-- The precondition that a change violates. -/
inductive Refusal where
  /-- An element with this identity is present. -/
  | duplicateElement (id : ElementId)
  /-- The container is not present. -/
  | unknownContainer (id : ElementId)
  /-- The element is not present. -/
  | unknownElement (id : ElementId)
  /-- The destination of a declared edge is not present. -/
  | unknownEdgeDestination (id : ElementId)
  /-- No edge type has this name. -/
  | invalidEdgeType (name : String)
  /-- Other elements are contained in the element or have edges to it. -/
  | hasDependents (id : ElementId)
  /-- The element would have no container, and that is not allowed. -/
  | orphanedElement (id : ElementId)
  /-- No element of the one kind may be held by an element of the other. -/
  | invalidContainment (child container : ElementKind)
  /-- A project enters the graph by a root operation only. -/
  | rootRequired (id : ElementId)
  /-- A root operation needs the empty graph. -/
  | storeNotEmpty (size : Nat)
  /-- The stamp does not belong to such an edge. -/
  | unknownEdgeStamp (source : ElementId) (edgeType : EdgeType) (destination : ElementId)
      (stamp : EdgeStamp)
  /-- Edges and stamps differ in number. -/
  | edgeStampMismatch (edges stamps : Nat)
  /-- There are not as many such edges. -/
  | unknownEdge (source : ElementId) (edgeType : EdgeType) (destination : ElementId)
  /-- The history has no such entry. -/
  | unknownSequence (sequence : Nat)
  /-- The operation cannot be undone. -/
  | notCompensable (sequence : Nat)
  /-- The operation was undone before. -/
  | alreadyCompensated (sequence : Nat)
  /-- A later operation introduced the same element again. -/
  | superseded (sequence later : Nat)
  /-- The entry claims to undo an operation and does something else. -/
  | compensationMismatch (sequence : Nat)
deriving DecidableEq

namespace Refusal

def message : Refusal → String
  | duplicateElement id => s!"Element {id.text} already exists"
  | unknownContainer id => s!"Container {id.text} does not exist"
  | unknownElement id => s!"Element {id.text} does not exist"
  | unknownEdgeDestination id => s!"Edge destination {id.text} does not exist"
  | invalidEdgeType name => s!"Unknown edge type: {name}"
  | hasDependents id => s!"Element {id.text} is still referenced by other elements"
  | orphanedElement id => s!"Element {id.text} has no container"
  | invalidContainment child container => s!"A {container.name} cannot contain a {child.name}"
  | rootRequired id => s!"Project {id.text} can only be introduced by a root operation"
  | storeNotEmpty size =>
      s!"Root operation requires an empty graph ({Text.decimal size} elements present)"
  | unknownEdgeStamp source edgeType destination stamp =>
      s!"Edge {stamp.display} is not a {edgeType.name} edge from {source.text} to {destination.text}"
  | edgeStampMismatch edges stamps =>
      s!"{Text.decimal edges} edges listed with {Text.decimal stamps} stamps"
  | unknownEdge source edgeType destination =>
      s!"No {edgeType.name} edge from {source.text} to {destination.text}"
  | unknownSequence sequence => s!"No operation with sequence number {Text.decimal sequence}"
  | notCompensable sequence => s!"Operation {Text.decimal sequence} has no compensating operation"
  | alreadyCompensated sequence => s!"Operation {Text.decimal sequence} was already compensated"
  | superseded sequence later =>
      s!"Element introduced by operation {Text.decimal sequence} was re-introduced by operation {Text.decimal later}"
  | compensationMismatch sequence =>
      s!"Entry does not hold the compensation of operation {Text.decimal sequence}"

end Refusal

namespace EdgeType

def ofText (text : String) : Except Refusal EdgeType :=
  match ofName? text with
  | some edgeType => .ok edgeType
  | none => .error (.invalidEdgeType text)

end EdgeType

end LanguageGraph
