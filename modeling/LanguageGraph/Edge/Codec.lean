/-
# Edge.Codec — edges as JSON

An edge map is a record with one field, an object that lists destinations under the names of edge
types. Where an edge type is named twice, the second list counts.
-/
import LanguageGraph.Edge.Map
import LanguageGraph.Edge.Stamp
import LanguageGraph.Element.Codec

namespace LanguageGraph

set_option autoImplicit false

namespace EdgeType

/-- Decode an edge type that stands by itself. -/
def ofJson? (value : Json) : Option EdgeType :=
  value.constant?.bind ofName?

end EdgeType

namespace EdgeStamp

def toJson (stamp : EdgeStamp) : Json :=
  .nat stamp.number

def ofJson? (value : Json) : Option EdgeStamp :=
  value.nat?.map EdgeStamp.mk

end EdgeStamp

namespace EdgeMap

/-- An edge map lists destinations under the names of edge types. -/
def toJson (edges : EdgeMap) : Json :=
  .object [("edges", .object (edges.groups.map fun group =>
    (group.1.name, .list ElementId.toJson group.2)))]

/-- Decode destinations under the names of edge types, after those decoded before. -/
def ofFields? (edges : EdgeMap) : List (String × Json) → Option EdgeMap
  | [] => some edges
  | (name, value) :: fields => do
      let edgeType ← EdgeType.ofName? name
      let destinations ← value.list? ElementId.ofJson?
      ofFields? (edges.set edgeType destinations) fields

/-- Decode the object inside an edge map. -/
def ofLists? : Json → Option EdgeMap
  | .object fields => ofFields? .empty fields
  | _ => none

def ofJson? (value : Json) : Option EdgeMap := do
  let record ← value.record? ["edges"] false
  record.required? "edges" ofLists?

def ofText? (text : String) : Option EdgeMap :=
  (Json.ofText? text).bind ofJson?

end EdgeMap

end LanguageGraph
