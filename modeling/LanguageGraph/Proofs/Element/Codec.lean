/-
# Proofs.Element.Codec — elements read back

Every element is decoded from its JSON as it was, by itself and inside an operation
(`Element.ofJsonWith?_toJson`): its tag names its kind, and the fields behind it are those of the record
of that kind. Nothing in it nests, so it fits wherever one object does, and nothing in it is a number.
-/
import LanguageGraph.Element.Codec
import LanguageGraph.Proofs.Element.Id
import LanguageGraph.Proofs.Json.Record
import LanguageGraph.Proofs.Json.Text
import LanguageGraph.Proofs.Time.Text

namespace LanguageGraph

set_option autoImplicit false

@[simp] theorem ElementId.ofJson?_toJson (id : ElementId) : ofJson? id.toJson = some id := by
  simp [ofJson?, toJson, Json.string?]

@[simp] theorem Timestamp.ofJson?_toJson (time : Timestamp) : ofJson? time.toJson = some time := by
  simp [ofJson?, toJson, Json.string?]

@[simp] theorem Project.ofJson?_fields (project : Project) :
    ofJson? (.object project.fields) = some project := by
  rw [ofJson?, Json.record?_object (by simp [fields]) (by simp [fields])]
  simp [fields, Json.Record.required?, List.lookup_cons, Json.string?]

@[simp] theorem Declaration.ofJson?_fields (declaration : Declaration) :
    ofJson? (.object declaration.fields) = some declaration := by
  rw [ofJson?, Json.record?_object (by simp [fields]) (by simp [fields])]
  simp [fields, Json.Record.required?, List.lookup_cons, Json.string?]

@[simp] theorem Comment.ofJson?_fields (comment : Comment) :
    ofJson? (.object comment.fields) = some comment := by
  rw [ofJson?, Json.record?_object (by simp [fields]) (by simp [fields])]
  simp [fields, Json.Record.required?, List.lookup_cons, Json.string?]

namespace ElementKind

theorem ofTag?_name (kind : ElementKind) : ofTag? (.string kind.name) = some kind :=
  ofName?_name kind

/-- A kind that is named inside an operation is no position. -/
theorem ofInnerTag?_name (kind : ElementKind) : ofInnerTag? (.string kind.name) = some kind :=
  ofName?_name kind

end ElementKind

namespace Element

/-- No record of an element has a field by the name of the tag. -/
theorem kind_not_mem_fields (element : Element) : "kind" ∉ element.fields.map Prod.fst := by
  cases element <;> simp [fields, Project.fields, Declaration.fields, Comment.fields]

theorem ofBody?_fields (element : Element) :
    ofBody? element.kind (.object element.fields) = some element := by
  cases element <;> simp [ofBody?, kind, fields]

/-- An element is decoded as it was, whichever way kinds are decoded, if names of kinds are. -/
theorem ofJsonWith?_toJson {decodeKind : Json → Option ElementKind}
    (named : ∀ kind : ElementKind, decodeKind (.string kind.name) = some kind) (element : Element) :
    ofJsonWith? decodeKind element.toJson = some element := by
  rw [ofJsonWith?, toJson, Json.tagged?_object element.kind_not_mem_fields]
  simp [named, ofBody?_fields]

theorem ofJson?_toJson (element : Element) : ofJson? element.toJson = some element :=
  ofJsonWith?_toJson ElementKind.ofTag?_name element

@[simp] theorem ofInnerJson?_toJson (element : Element) : ofInnerJson? element.toJson = some element :=
  ofJsonWith?_toJson ElementKind.ofInnerTag?_name element

/-- Nothing nests inside an element. -/
theorem fits_toJson (depth : Nat) (element : Element) : element.toJson.fits (depth + 1) = true := by
  cases element <;>
    simp [toJson, fields, Project.fields, Declaration.fields, Comment.fields, ElementId.toJson,
      Timestamp.toJson, Json.fits, Json.fitsFields]

theorem plain_toJson (element : Element) : element.toJson.plain = true := by
  cases element <;>
    simp [toJson, fields, Project.fields, Declaration.fields, Comment.fields, ElementId.toJson,
      Timestamp.toJson, Json.plain, Json.plainFields]

/-- An element is read from every text of its JSON. -/
theorem ofText?_of_json (text : String) (element : Element)
    (denotes : Json.ofText? text = some element.toJson) : ofText? text = some element := by
  simp [ofText?, denotes, Json.nestingLimit, fits_toJson, ofJson?_toJson]

end Element

end LanguageGraph
