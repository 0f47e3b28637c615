/-
# Store.Equality — when two graphs are the same

Two stores are the same graph when they hold the same elements with the same containers and the same
edges in the same order, and the same root. Stamps tell how a graph came about and do not count, nor
does the order in which elements were created.
-/
import LanguageGraph.Store.Basic

namespace LanguageGraph

set_option autoImplicit false

/-- Whether two slots agree in all but their stamps. -/
def Slot.same (first second : Slot) : Bool :=
  first.element = second.element && first.container = second.container &&
    first.edges = second.edges

/-- Whether two stores hold the same graph. -/
def Store.same (first second : Store) : Bool :=
  first.root = second.root && first.size = second.size &&
    first.slots.all fun slot =>
      match second.slot? slot.id with
      | some other => slot.same other
      | none => false

end LanguageGraph
