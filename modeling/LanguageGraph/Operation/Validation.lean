/-
# Operation.Validation — which operations a store accepts

`Operation.validate` names the first precondition that an operation violates at a store. It looks at
that one store only, though the operation changes it step by step; listed edges are therefore counted,
and stamps compared with each other.

Destinations and stamps are looked at as they are listed. Counted edges are not: in which order these
come up is left open (`EdgeOrder`), so where several are missing, any one of them may be named.
-/
import LanguageGraph.Operation.Basic
import LanguageGraph.Store.Growth
import LanguageGraph.Store.Removal

namespace LanguageGraph

set_option autoImplicit false

/-- An order in which counted edges come up. All of them do, and no more is known of it. -/
structure EdgeOrder where
  arrange : List (EdgeType × ElementId) → List (EdgeType × ElementId)
  perm : ∀ edges, (arrange edges).Perm edges

namespace EdgeOrder

def listed : EdgeOrder :=
  ⟨id, .refl⟩

def backwards : EdgeOrder :=
  ⟨List.reverse, List.reverse_perm⟩

end EdgeOrder

namespace Operation

/-- The destinations of new edges must be present; the new element itself counts as present. -/
def checkDestinations (store : Store) (introduced : Option ElementId) (edges : EdgeMap) :
    Except Refusal Unit :=
  match edges.destinations.find? fun destination =>
      introduced ≠ some destination && !store.contains destination with
  | some destination => .error (.unknownEdgeDestination destination)
  | none => .ok ()

/-- Each listed edge must carry its stamp in the store, and no stamp may be listed twice. -/
def checkStamped (store : Store) (source : ElementId) :
    List EdgeStamp → List ((EdgeType × ElementId) × EdgeStamp) → Except Refusal Unit
  | _, [] => .ok ()
  | seen, ((edgeType, destination), stamp) :: rest =>
      if stamp ∈ seen then .error (.unknownEdgeStamp source edgeType destination stamp)
      else
        match store.checkRemoveStamped source edgeType destination stamp with
        | .error refusal => .error refusal
        | .ok () => checkStamped store source (stamp :: seen) rest

/-- An edge that an element has less often than it is listed. -/
def Missing (store : Store) (source : ElementId) (edges : EdgeMap) (edge : EdgeType × ElementId) :
    Prop :=
  (store.edges source edge.1).count edge.2 < edges.pairs.count edge

instance (store : Store) (source : ElementId) (edges : EdgeMap) (edge : EdgeType × ElementId) :
    Decidable (Missing store source edges edge) :=
  inferInstanceAs (Decidable (_ < _))

/-- No listed edge may be missing. Where several are, the one named is the one that comes up first, which
may be any of them. -/
def checkCounts (order : EdgeOrder) (store : Store) (source : ElementId) (edges : EdgeMap) :
    Except Refusal Unit :=
  match (order.arrange edges.pairs).find? fun edge => Missing store source edges edge with
  | some (edgeType, destination) => .error (.unknownEdge source edgeType destination)
  | none => .ok ()

/-- Check every precondition of an operation at a store. -/
def validate (operation : Operation) (order : EdgeOrder) (store : Store) : Except Refusal Unit :=
  match operation with
  | root project =>
      if store.isEmpty then store.checkAdd (.project project) none
      else .error (.storeNotEmpty store.size)
  | newElement element container edges =>
      if element.isRoot then .error (.rootRequired element.id)
      else
        match store.checkAdd element container with
        | .error refusal => .error refusal
        | .ok () => checkDestinations store (some element.id) edges
  | newEdge source edges =>
      if store.contains source then checkDestinations store none edges
      else .error (.unknownElement source)
  | removeElement id cascade => store.checkRemove id cascade
  | removeEdge source edges stamps =>
      if ¬ store.contains source then .error (.unknownElement source)
      else if stamps.isEmpty then checkCounts order store source edges
      else if stamps.length ≠ edges.size then
        .error (.edgeStampMismatch edges.size stamps.length)
      else checkStamped store source [] (edges.pairs.zip stamps)

end Operation

end LanguageGraph
