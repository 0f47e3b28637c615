/-
# Store.Step — single changes and their sequences

Every way to change a store is one of five steps. A sequence of steps runs until one is refused and
keeps what the steps before it did (`Store.perform`); whoever wants all or nothing checks first.
-/
import LanguageGraph.Store.Growth
import LanguageGraph.Store.Removal

namespace LanguageGraph

set_option autoImplicit false

/-- A single change of a store. -/
inductive Step where
  | add (element : Element) (container : Option ElementId)
  | addEdge (source : ElementId) (edgeType : EdgeType) (destination : ElementId)
  | removeEdge (source : ElementId) (edgeType : EdgeType) (destination : ElementId)
  | removeStamped (source : ElementId) (edgeType : EdgeType) (destination : ElementId)
      (stamp : EdgeStamp)
  | remove (id : ElementId) (cascade : Bool)

namespace Store

def step (store : Store) : Step → Except Refusal Store
  | .add element container => store.add element container
  | .addEdge source edgeType destination =>
      (store.addEdge source edgeType destination).map Prod.snd
  | .removeEdge source edgeType destination => store.removeEdge source edgeType destination
  | .removeStamped source edgeType destination stamp =>
      store.removeStamped source edgeType destination stamp
  | .remove id cascade => (store.remove id cascade).map Prod.snd

/-- Run steps in order, up to the first that is refused. The store that comes back holds what was
done until then. -/
def perform : List Step → Store → Except Refusal Unit × Store
  | [], store => (.ok (), store)
  | step :: steps, store =>
      match store.step step with
      | .error refusal => (.error refusal, store)
      | .ok next => perform steps next

end Store

end LanguageGraph
