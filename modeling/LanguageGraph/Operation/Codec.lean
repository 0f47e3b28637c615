/-
# Operation.Codec — operations as JSON

An operation is a record tagged with its name. The container of a new element may be `null`; stamps
are written only where there are some.
-/
import LanguageGraph.Edge.Codec
import LanguageGraph.Operation.Basic

namespace LanguageGraph

set_option autoImplicit false

namespace Operation

/-- A field that is written only where there is something to list. -/
def listField {α : Type} (name : String) (encode : α → Json) (values : List α) :
    List (String × Json) :=
  if values.isEmpty then [] else [(name, .list encode values)]

def fields : Operation → List (String × Json)
  | root project => [("project", project.toJson)]
  | newElement element container edges =>
      [("element", element.toJson), ("container", .nullable ElementId.toJson container),
       ("edges", edges.toJson)]
  | newEdge source edges => [("source", source.toJson), ("edges", edges.toJson)]
  | removeElement id cascade => [("element", id.toJson), ("cascade", .bool cascade)]
  | removeEdge source edges stamps =>
      [("source", source.toJson), ("edges", edges.toJson)] ++
        listField "stamps" EdgeStamp.toJson stamps

/-- An operation is a record tagged with its name. -/
def toJson (operation : Operation) : Json :=
  .object (("op", .string operation.name) :: operation.fields)

def rootOf? (body : Json) : Option Operation := do
  let record ← body.record? ["project"] false
  return root (← record.required? "project" Project.ofJson?)

def newElementOf? (body : Json) : Option Operation := do
  let record ← body.record? ["element", "container", "edges"] false
  return newElement (← record.required? "element" Element.ofInnerJson?)
    (← record.nullable? "container" ElementId.ofJson?) (← record.required? "edges" EdgeMap.ofJson?)

def newEdgeOf? (body : Json) : Option Operation := do
  let record ← body.record? ["source", "edges"] false
  return newEdge (← record.required? "source" ElementId.ofJson?)
    (← record.required? "edges" EdgeMap.ofJson?)

def removeElementOf? (body : Json) : Option Operation := do
  let record ← body.record? ["element", "cascade"] false
  return removeElement (← record.required? "element" ElementId.ofJson?)
    (← record.required? "cascade" Json.bool?)

def removeEdgeOf? (body : Json) : Option Operation := do
  let record ← body.record? ["source", "edges", "stamps"] false
  return removeEdge (← record.required? "source" ElementId.ofJson?)
    (← record.required? "edges" EdgeMap.ofJson?)
    (← record.defaulted? "stamps" (Json.list? EdgeStamp.ofJson?) [])

def ofJson? (value : Json) : Option Operation := do
  let (tag, body) ← value.tagged? "op"
  match ← tag.string? with
  | "root" => rootOf? body
  | "new_element" => newElementOf? body
  | "new_edge" => newEdgeOf? body
  | "remove_element" => removeElementOf? body
  | "remove_edge" => removeEdgeOf? body
  | _ => none

/-- Decode an operation from a text. The text is kept until the tag is known, so all of it must be
readable. -/
def ofText? (text : String) : Option Operation := do
  let value ← Json.ofText? text
  if value.fits Json.nestingLimit then ofJson? value else none

end Operation

end LanguageGraph
