/-
# Store.Removal — removing edges and elements

An edge is removed by its ends and type, the latest of equal ones first, or exactly, by its stamp. An
element is removed alone, which is refused while something depends on it, or with everything it
contains, contents first.
-/
import LanguageGraph.Refusal
import LanguageGraph.Store.Basic

namespace LanguageGraph

set_option autoImplicit false

namespace Store

/-! ## Edges -/

def checkRemoveEdge (store : Store) (source : ElementId) (edgeType : EdgeType)
    (destination : ElementId) : Except Refusal Unit :=
  match store.slot? source with
  | none => .error (.unknownElement source)
  | some slot =>
      if slot.edges.contains edgeType destination then .ok ()
      else .error (.unknownEdge source edgeType destination)

/-- Take one edge out of the index of incoming edges, the latest of equal ones. -/
def forgetIncoming (incoming : Multimap ElementId (ElementId × EdgeType)) (source : ElementId)
    (edgeType : EdgeType) (destination : ElementId) : Multimap ElementId (ElementId × EdgeType) :=
  incoming.update destination (eraseLast (source, edgeType))

/-- Drop the edge at a position of its source. -/
def unlinkAt (store : Store) (source : ElementId) (edgeType : EdgeType) (destination : ElementId)
    (index : Nat) : Store :=
  { store.modify source fun slot => slot.removeEdgeAt edgeType index with
    incoming := forgetIncoming store.incoming source edgeType destination }

/-- Remove the latest of the edges with these ends and this type. -/
def removeEdge (store : Store) (source : ElementId) (edgeType : EdgeType)
    (destination : ElementId) : Except Refusal Store :=
  match store.checkRemoveEdge source edgeType destination with
  | .error refusal => .error refusal
  | .ok () =>
      match lastIndexOf? destination (store.edges source edgeType) with
      | some index => .ok (store.unlinkAt source edgeType destination index)
      | none => .ok store

/-- The stamp must belong to an edge with these ends and this type. -/
def checkRemoveStamped (store : Store) (source : ElementId) (edgeType : EdgeType)
    (destination : ElementId) (stamp : EdgeStamp) : Except Refusal Unit :=
  match store.slot? source with
  | none => .error (.unknownElement source)
  | some slot =>
      if slot.stampedDestination? edgeType stamp = some destination then .ok ()
      else .error (.unknownEdgeStamp source edgeType destination stamp)

def removeStamped (store : Store) (source : ElementId) (edgeType : EdgeType)
    (destination : ElementId) (stamp : EdgeStamp) : Except Refusal Store :=
  match store.checkRemoveStamped source edgeType destination stamp with
  | .error refusal => .error refusal
  | .ok () =>
      match (store.slot? source).bind fun slot => slot.stampIndex? edgeType stamp with
      | some index => .ok (store.unlinkAt source edgeType destination index)
      | none => .ok store

/-! ## Elements -/

/-- Without `cascade`, an element stays while another one has it as its container or as the
destination of an edge. -/
def checkRemove (store : Store) (id : ElementId) (cascade : Bool) : Except Refusal Unit :=
  if ¬ store.contains id then .error (.unknownElement id)
  else if cascade then .ok ()
  else if (store.childrenOf id).isEmpty && (store.referrers id).all fun edge => edge.1 = id then
    .ok ()
  else .error (.hasDependents id)

/-- What an element contains down to a depth, contents before their container, the element last. -/
def contentsWithin (store : Store) : Nat → ElementId → List ElementId
  | 0, _ => []
  | depth + 1, id => (store.childrenOf id).flatMap (store.contentsWithin depth) ++ [id]

/-- What an element contains, contents before their container, the element last. No chain of
containers is longer than the number of elements. -/
def contents (store : Store) (id : ElementId) : List ElementId :=
  store.contentsWithin store.size id

/-- The graph without one element, its edges, and the edges into it. -/
def without (store : Store) (slot : Slot) : Store :=
  let id := slot.id
  let incoming := slot.edges.pairs.foldl
    (fun incoming edge => forgetIncoming incoming id edge.1 edge.2) store.incoming
  let sources := (incoming.get id).map Prod.fst
  let others := store.slots.filter fun other => other.id ≠ id
  { store with
    slots := others.map fun other => if other.id ∈ sources then other.dropEdgesTo id else other
    children :=
      (match slot.container with
        | some container => store.children.update container fun siblings =>
            siblings.filter fun sibling => sibling ≠ id
        | none => store.children).erase id
    incoming := incoming.erase id
    root := if store.root = some id then none else store.root }

/-- Take elements out one after the other, and tell which were there. -/
def detachAll : List ElementId → Store → List Element × Store
  | [], store => ([], store)
  | id :: ids, store =>
      match store.slot? id with
      | none => detachAll ids store
      | some slot =>
          let (removed, rest) := detachAll ids (store.without slot)
          (slot.element :: removed, rest)

/-- Remove an element with everything it contains, and tell the removed elements in the order of
removal. Without `cascade` there is nothing else to remove. -/
def remove (store : Store) (id : ElementId) (cascade : Bool) :
    Except Refusal (List Element × Store) :=
  match store.checkRemove id cascade with
  | .error refusal => .error refusal
  | .ok () => .ok (detachAll (store.contents id) store)

end Store

end LanguageGraph
