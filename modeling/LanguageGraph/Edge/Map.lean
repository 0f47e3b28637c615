/-
# Edge.Map — the outgoing edges of one element

An edge map lists destinations under edge types. Destinations keep the order of their addition, and a
destination that is added twice stands there twice.
-/
import LanguageGraph.Edge.Occurrence
import LanguageGraph.Edge.Type
import LanguageGraph.Element.Id
import LanguageGraph.Multimap

namespace LanguageGraph

set_option autoImplicit false

/-- Destinations by edge type. -/
abbrev EdgeMap : Type := Multimap EdgeType ElementId

namespace EdgeMap

/-- The destinations of all types, type by type. -/
def destinations (edges : EdgeMap) : List ElementId :=
  edges.pairs.map Prod.snd

/-- The position of the destination added last among equal ones of a type. -/
def lastIndexOf? (edges : EdgeMap) (edgeType : EdgeType) (destination : ElementId) : Option Nat :=
  LanguageGraph.lastIndexOf? destination (edges.get edgeType)

/-- An edge map with edges of one type, in order. -/
def ofDestinations (edgeType : EdgeType) (destinations : List ElementId) : EdgeMap :=
  Multimap.ofPairs (destinations.map fun destination => (edgeType, destination))

end EdgeMap

end LanguageGraph
