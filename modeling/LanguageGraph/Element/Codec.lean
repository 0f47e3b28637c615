/-
# Element.Codec — elements as JSON

An element is a record tagged with its kind. Inside an operation the kind may also be given by its
position among the kinds.
-/
import LanguageGraph.Element.Basic
import LanguageGraph.Json.Reader
import LanguageGraph.Json.Record
import LanguageGraph.Time.Text

namespace LanguageGraph

set_option autoImplicit false

/-- How deep arrays and objects may nest in a text that is kept before it is decoded. -/
def Json.nestingLimit : Nat := 127

namespace ElementId

def toJson (id : ElementId) : Json :=
  .string id.text

def ofJson? (value : Json) : Option ElementId :=
  value.string?.bind ofText?

end ElementId

namespace Timestamp

def toJson (time : Timestamp) : Json :=
  .string time.text

def ofJson? (value : Json) : Option Timestamp :=
  value.string?.bind ofText?

end Timestamp

namespace ElementKind

/-- Decode a kind that stands by itself. -/
def ofJson? (value : Json) : Option ElementKind :=
  value.constant?.bind ofName?

def ofTag? (value : Json) : Option ElementKind :=
  value.string?.bind ofName?

/-- Decode the kind in a tag inside an operation: its name, or its position among the kinds. -/
def ofInnerTag? : Json → Option ElementKind
  | .number (.natural position) => all[position]?
  | value => ofTag? value

end ElementKind

namespace Project

def fields (project : Project) : List (String × Json) :=
  [("id", project.id.toJson), ("name", .string project.name),
   ("namespace", .string project.namespaceName), ("copyright", .string project.copyright)]

def toJson (project : Project) : Json :=
  .object project.fields

def ofJson? (value : Json) : Option Project := do
  let record ← value.record? ["id", "name", "namespace", "copyright"] false
  return {
    id := ← record.required? "id" ElementId.ofJson?
    name := ← record.required? "name" Json.string?
    namespaceName := ← record.required? "namespace" Json.string?
    copyright := ← record.required? "copyright" Json.string? }

end Project

namespace Declaration

def fields (declaration : Declaration) : List (String × Json) :=
  [("id", declaration.id.toJson), ("name", .string declaration.name)]

def toJson (declaration : Declaration) : Json :=
  .object declaration.fields

def ofJson? (value : Json) : Option Declaration := do
  let record ← value.record? ["id", "name"] false
  return {
    id := ← record.required? "id" ElementId.ofJson?
    name := ← record.required? "name" Json.string? }

end Declaration

namespace Comment

def fields (comment : Comment) : List (String × Json) :=
  [("id", comment.id.toJson), ("text", .string comment.text), ("author", .string comment.author),
   ("created_at", comment.createdAt.toJson)]

def toJson (comment : Comment) : Json :=
  .object comment.fields

def ofJson? (value : Json) : Option Comment := do
  let record ← value.record? ["id", "text", "author", "created_at"] false
  return {
    id := ← record.required? "id" ElementId.ofJson?
    text := ← record.required? "text" Json.string?
    author := ← record.required? "author" Json.string?
    createdAt := ← record.required? "created_at" Timestamp.ofJson? }

end Comment

namespace Element

/-- The fields of an element besides its kind. -/
def fields : Element → List (String × Json)
  | project p => p.fields
  | library d => d.fields
  | clazz d => d.fields
  | method d => d.fields
  | parameter d => d.fields
  | comment c => c.fields

/-- An element is a record tagged with its kind. -/
def toJson (element : Element) : Json :=
  .object (("kind", .string element.kind.name) :: element.fields)

/-- Decode the record of an element of a kind. -/
def ofBody? (kind : ElementKind) (body : Json) : Option Element :=
  match kind with
  | .project => (Project.ofJson? body).map project
  | .library => (Declaration.ofJson? body).map library
  | .clazz => (Declaration.ofJson? body).map clazz
  | .method => (Declaration.ofJson? body).map method
  | .parameter => (Declaration.ofJson? body).map parameter
  | .comment => (Comment.ofJson? body).map comment

/-- Decode an element, with a decoder of its tag. -/
def ofJsonWith? (decodeKind : Json → Option ElementKind) (value : Json) : Option Element := do
  let (tag, body) ← value.tagged? "kind"
  let kind ← decodeKind tag
  ofBody? kind body

def ofJson? (value : Json) : Option Element :=
  ofJsonWith? ElementKind.ofTag? value

/-- Decode an element inside an operation. -/
def ofInnerJson? (value : Json) : Option Element :=
  ofJsonWith? ElementKind.ofInnerTag? value

/-- Decode an element from a text. The text is kept until the tag is known, so all of it must be
readable. -/
def ofText? (text : String) : Option Element := do
  let value ← Json.ofText? text
  if value.fits Json.nestingLimit then ofJson? value else none

end Element

end LanguageGraph
