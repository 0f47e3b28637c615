/-
# Store.Basic — the graph and its reads

A store lists its elements in the order of their creation, each in a `Slot` with its container, its
outgoing edges and, position by position, the stamps of those edges. Containers and destinations are
identities, never links.

Two indices spare the search for what points at an element: `children` lists what a container holds,
`incoming` lists the source and type of every edge into a destination. Everything here only reads.
-/
import LanguageGraph.Edge.Map
import LanguageGraph.Edge.Stamp
import LanguageGraph.Element.Basic

namespace LanguageGraph

set_option autoImplicit false

/-- An element in the graph. -/
structure Slot where
  element : Element
  container : Option ElementId
  edges : EdgeMap
  stamps : Multimap EdgeType EdgeStamp

namespace Slot

def id (slot : Slot) : ElementId :=
  slot.element.id

def new (element : Element) (container : Option ElementId) : Slot :=
  ⟨element, container, .empty, .empty⟩

def pushEdge (slot : Slot) (edgeType : EdgeType) (destination : ElementId) (stamp : EdgeStamp) :
    Slot :=
  { slot with
    edges := slot.edges.push edgeType destination
    stamps := slot.stamps.push edgeType stamp }

/-- Remove the edge at a position, and its stamp. -/
def removeEdgeAt (slot : Slot) (edgeType : EdgeType) (index : Nat) : Slot :=
  { slot with
    edges := slot.edges.removeAt edgeType index
    stamps := slot.stamps.removeAt edgeType index }

/-- Remove the latest edge of a type to a destination, and then the next one, for as many rounds as are
given or until there is none. -/
def dropEdgesOfType (slot : Slot) (edgeType : EdgeType) (destination : ElementId) : Nat → Slot
  | 0 => slot
  | rounds + 1 =>
      match slot.edges.lastIndexOf? edgeType destination with
      | some index => dropEdgesOfType (slot.removeEdgeAt edgeType index) edgeType destination rounds
      | none => slot

/-- Remove every edge to a destination, type by type. There are no more rounds than edges. -/
def dropEdgesTo (slot : Slot) (destination : ElementId) : Slot :=
  EdgeType.all.foldl (fun slot edgeType =>
    slot.dropEdgesOfType edgeType destination (slot.edges.get edgeType).length) slot

/-- The position of a stamp among the edges of a type. -/
def stampIndex? (slot : Slot) (edgeType : EdgeType) (stamp : EdgeStamp) : Option Nat :=
  (slot.stamps.get edgeType).findIdx? fun other => other = stamp

/-- The destination of the edge of a type that carries a stamp. -/
def stampedDestination? (slot : Slot) (edgeType : EdgeType) (stamp : EdgeStamp) :
    Option ElementId :=
  (slot.stampIndex? edgeType stamp).bind fun index => (slot.edges.get edgeType)[index]?

end Slot

/-- A language graph. -/
structure Store where
  slots : List Slot
  children : Multimap ElementId ElementId
  incoming : Multimap ElementId (ElementId × EdgeType)
  root : Option ElementId
  nextStamp : Nat

namespace Store

def empty : Store :=
  ⟨[], .empty, .empty, none, 0⟩

def slot? (store : Store) (id : ElementId) : Option Slot :=
  store.slots.find? fun slot => slot.id = id

def get? (store : Store) (id : ElementId) : Option Element :=
  (store.slot? id).map Slot.element

def contains (store : Store) (id : ElementId) : Bool :=
  (store.slot? id).isSome

/-- All outgoing edges of a present element. -/
def edgeMap? (store : Store) (id : ElementId) : Option EdgeMap :=
  (store.slot? id).map Slot.edges

/-- The destinations of an element's edges of a type, in the order of addition. -/
def edges (store : Store) (id : ElementId) (edgeType : EdgeType) : List ElementId :=
  match store.slot? id with
  | some slot => slot.edges.get edgeType
  | none => []

/-- The stamps of an element's edges of a type, in the order of `edges`. -/
def edgeStamps (store : Store) (id : ElementId) (edgeType : EdgeType) : List EdgeStamp :=
  match store.slot? id with
  | some slot => slot.stamps.get edgeType
  | none => []

/-- The source and type of every edge into an element. -/
def referrers (store : Store) (id : ElementId) : List (ElementId × EdgeType) :=
  store.incoming.get id

def containerOf? (store : Store) (id : ElementId) : Option ElementId :=
  (store.slot? id).bind Slot.container

/-- What an element holds directly, in the order of creation. -/
def childrenOf (store : Store) (id : ElementId) : List ElementId :=
  store.children.get id

def childrenOfKind (store : Store) (id : ElementId) (kind : ElementKind) : List Element :=
  ((store.childrenOf id).filterMap store.get?).filter fun element => element.kind = kind

def rootElement? (store : Store) : Option Element :=
  store.root.bind store.get?

/-- All elements, in the order of creation. -/
def elements (store : Store) : List Element :=
  store.slots.map Slot.element

/-- The elements without a container, other than the root. -/
def orphans (store : Store) : List Element :=
  (store.slots.filter fun slot => slot.container.isNone && store.root ≠ some slot.id).map Slot.element

def size (store : Store) : Nat :=
  store.slots.length

def isEmpty (store : Store) : Bool :=
  store.slots.isEmpty

def edgeCount (store : Store) : Nat :=
  (store.slots.flatMap fun slot => slot.edges.pairs).length

def modify (store : Store) (id : ElementId) (change : Slot → Slot) : Store :=
  { store with slots := store.slots.map fun slot => if slot.id = id then change slot else slot }

end Store

end LanguageGraph
