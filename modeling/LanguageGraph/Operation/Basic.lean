/-
# Operation.Basic — increments of the graph

An operation describes one increment without performing it. Additions can be undone: an element is
removed again, and added edges are removed by exactly the stamps they were given
(`Operation.inverse?`). Removals cannot, since they do not carry what they remove.
-/
import LanguageGraph.Edge.Map
import LanguageGraph.Edge.Stamp
import LanguageGraph.Element.Basic

namespace LanguageGraph

set_option autoImplicit false

/-- One increment of the graph. -/
inductive Operation where
  /-- Start an empty graph with its project. -/
  | root (project : Project)
  /-- Add an element and edges from it. Without a container it is an orphan. -/
  | newElement (element : Element) (container : Option ElementId) (edges : EdgeMap)
  /-- Add edges from a present element. -/
  | newEdge (source : ElementId) (edges : EdgeMap)
  /-- Remove an element, alone or with all it contains. -/
  | removeElement (id : ElementId) (cascade : Bool)
  /-- Remove edges of one element: the latest ones, or with stamps exactly those. -/
  | removeEdge (source : ElementId) (edges : EdgeMap) (stamps : List EdgeStamp)
deriving DecidableEq

namespace Operation

def name : Operation → String
  | root _ => "root"
  | newElement _ _ _ => "new_element"
  | newEdge _ _ => "new_edge"
  | removeElement _ _ => "remove_element"
  | removeEdge _ _ _ => "remove_edge"

/-- The element that an operation creates. -/
def introduced? : Operation → Option ElementId
  | root project => some project.id
  | newElement element _ _ => some element.id
  | newEdge _ _ => none
  | removeElement _ _ => none
  | removeEdge _ _ _ => none

/-- The element that an operation creates without a container, a root apart. -/
def orphan? : Operation → Option ElementId
  | newElement element none _ => some element.id
  | _ => none

/-- The operation that undoes this one, given the stamps of the edges it added. -/
def inverse? (stamps : List EdgeStamp) : Operation → Option Operation
  | root project => some (removeElement project.id false)
  | newElement element _ _ => some (removeElement element.id false)
  | newEdge source edges => some (removeEdge source edges stamps)
  | removeElement _ _ => none
  | removeEdge _ _ _ => none

def addedEdges : Operation → List (ElementId × EdgeType × ElementId)
  | newElement element _ edges => edges.pairs.map fun edge => (element.id, edge)
  | newEdge source edges => edges.pairs.map fun edge => (source, edge)
  | _ => []

/-- How many edges are listed, in brackets. -/
def edgeCountText (edges : EdgeMap) : String :=
  s!"({Text.decimal edges.size} edges)"

/-- An operation in one line: its kind, what it is about, and how many edges it lists. -/
def display (operation : Operation) : String :=
  match operation with
  | root project => s!"{operation.name} {project.id.text}"
  | newElement element _ edges => s!"{operation.name} {element.display} {edgeCountText edges}"
  | newEdge source edges => s!"{operation.name} {source.text} {edgeCountText edges}"
  | removeElement id _ => s!"{operation.name} {id.text}"
  | removeEdge source edges _ => s!"{operation.name} {source.text} {edgeCountText edges}"

end Operation

end LanguageGraph
