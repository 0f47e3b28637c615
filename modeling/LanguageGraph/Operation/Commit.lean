/-
# Operation.Commit — operations as steps

An operation is a sequence of steps on the store: an element before its edges, edges in the order in
which they are listed. Committing runs the steps without any check beyond each step's own, so an
operation that was not validated may stop half-way and leave what it did.
-/
import LanguageGraph.Operation.Basic
import LanguageGraph.Store.Step

namespace LanguageGraph

set_option autoImplicit false

namespace Operation

def steps : Operation → List Step
  | root project => [.add (.project project) none]
  | newElement element container edges =>
      .add element container :: edges.pairs.map fun edge => .addEdge element.id edge.1 edge.2
  | newEdge source edges => edges.pairs.map fun edge => .addEdge source edge.1 edge.2
  | removeElement id cascade => [.remove id cascade]
  | removeEdge source edges stamps =>
      if stamps.isEmpty then edges.pairs.map fun edge => .removeEdge source edge.1 edge.2
      else
        (edges.pairs.zip stamps).map fun edge =>
          .removeStamped source edge.1.1 edge.1.2 edge.2

/-- Perform an operation, up to the first step that is refused. -/
def commit (operation : Operation) (store : Store) : Except Refusal Unit × Store :=
  store.perform operation.steps

end Operation

end LanguageGraph
