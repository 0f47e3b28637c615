/-
# Proofs.Operation.Codec — edges and operations read back

An edge map is decoded as it was, list by list: its keys stand in the order in which they are set again,
an empty list keeps its key, and repetitions stay (`EdgeMap.ofJson?_toJson`). An operation is decoded as
it was, whatever it holds (`Operation.ofJson?_toJson`): what is left off when there is nothing to list is
made up again as the empty list, and a missing container is written as `null`, which no identity is.
-/
import LanguageGraph.Operation.Codec
import LanguageGraph.Proofs.Element.Codec
import LanguageGraph.Proofs.Multimap

namespace LanguageGraph

set_option autoImplicit false

/-! ## Edges -/

@[simp] theorem EdgeStamp.ofJson?_toJson (stamp : EdgeStamp) : ofJson? stamp.toJson = some stamp :=
  rfl

namespace EdgeMap

/-- Groups that are decoded stand behind those decoded before. -/
theorem ofFields?_groups (edges : EdgeMap) (groups : List (EdgeType × List ElementId))
    (nodup : ((edges.groups ++ groups).map Prod.fst).Nodup) :
    ofFields? edges (groups.map fun group => (group.1.name, .list ElementId.toJson group.2)) =
      some ⟨edges.groups ++ groups, nodup⟩ := by
  induction groups generalizing edges with
  | nil => simp [ofFields?]
  | cons group groups ih =>
      obtain ⟨edgeType, destinations⟩ := group
      have absent : edgeType ∉ edges.groups.map Prod.fst := by
        rw [List.map_append, List.nodup_append] at nodup
        intro member
        exact nodup.2.2 _ member _ (by simp) rfl
      have longer : (edges.set edgeType destinations).groups =
          edges.groups ++ [(edgeType, destinations)] :=
        Multimap.setIn_of_not_mem absent
      simp only [List.map_cons, ofFields?, EdgeType.ofName?_name,
        Json.list?_list ElementId.ofJson?_toJson, Option.bind_eq_bind, Option.bind_some]
      rw [ih (edges.set edgeType destinations) (by simpa [longer] using nodup)]
      simp [longer]

@[simp] theorem ofJson?_toJson (edges : EdgeMap) : ofJson? edges.toJson = some edges := by
  rw [ofJson?, toJson, Json.record?_object (by simp) (by simp)]
  have all : ofFields? .empty (edges.groups.map fun group =>
      (group.1.name, .list ElementId.toJson group.2)) = some edges :=
    ofFields?_groups .empty edges.groups edges.nodup
  simpa [Json.Record.required?, ofLists?] using all

/-- A list of destinations is two objects deep. -/
theorem fits_toJson (depth : Nat) (edges : EdgeMap) : edges.toJson.fits (depth + 3) = true := by
  have lists : (Json.object (edges.groups.map fun group =>
      (group.1.name, .list ElementId.toJson group.2))).fits (depth + 2) = true := by
    apply Json.fits_object
    intro field member
    obtain ⟨group, -, rfl⟩ := List.mem_map.1 member
    exact Json.fits_list (fun id => by simp [ElementId.toJson, Json.fits]) group.2
  exact Json.fits_object (by simpa using lists)

theorem plain_toJson (edges : EdgeMap) : edges.toJson.plain = true := by
  have lists : (Json.object (edges.groups.map fun group =>
      (group.1.name, .list ElementId.toJson group.2))).plain = true := by
    apply Json.plain_object
    intro field member
    obtain ⟨group, -, rfl⟩ := List.mem_map.1 member
    exact Json.plain_list fun id _ => by simp [ElementId.toJson, Json.plain]
  exact Json.plain_object (by simpa using lists)

/-- An edge map is read from every text of its JSON. -/
theorem ofText?_of_json (text : String) (edges : EdgeMap)
    (denotes : Json.ofText? text = some edges.toJson) : ofText? text = some edges := by
  simp [ofText?, denotes]

end EdgeMap

/-! ## Operations -/

namespace Operation

/-- A list that is left off when it is empty is read as what it was. -/
theorem defaulted?_listField {α : Type} {encode : α → Json} {decode : Json → Option α}
    (decoded : ∀ value, decode (encode value) = some value) {name : String}
    {front : List (String × Json)} (absent : front.lookup name = none) (values : List α) :
    (⟨false, front ++ listField name encode values⟩ : Json.Record).defaulted? name
      (Json.list? decode) [] = some values := by
  simp only [Json.Record.defaulted?, List.lookup_append, absent, Option.none_or, listField]
  cases values with
  | nil => rfl
  | cons value values => simp [Json.list?_list decoded]

theorem container_ne_null (id : ElementId) : id.toJson ≠ .null := by
  simp [ElementId.toJson]

/-- No record of an operation has a field by the name of the tag. -/
theorem op_not_mem_fields (operation : Operation) : "op" ∉ operation.fields.map Prod.fst := by
  cases operation with
  | removeEdge source edges stamps => cases stamps <;> simp [fields, listField]
  | _ => simp [fields]

theorem rootOf?_fields (project : Project) :
    rootOf? (.object (root project).fields) = some (root project) := by
  rw [rootOf?, Json.record?_object (by simp [fields]) (by simp [fields])]
  simp [fields, Json.Record.required?, Project.toJson]

theorem newElementOf?_fields (element : Element) (container : Option ElementId) (edges : EdgeMap) :
    newElementOf? (.object (newElement element container edges).fields) =
      some (newElement element container edges) := by
  rw [newElementOf?, Json.record?_object (by simp [fields]) (by simp [fields])]
  have held : (⟨false, (newElement element container edges).fields⟩ : Json.Record).nullable?
      "container" ElementId.ofJson? = some container :=
    Json.nullable?_nullable ElementId.ofJson?_toJson container_ne_null (by simp [fields, List.lookup_cons])
  simp only [Option.bind_eq_bind, Option.bind_some, held]
  simp [fields, Json.Record.required?, List.lookup_cons]

theorem newEdgeOf?_fields (source : ElementId) (edges : EdgeMap) :
    newEdgeOf? (.object (newEdge source edges).fields) = some (newEdge source edges) := by
  rw [newEdgeOf?, Json.record?_object (by simp [fields]) (by simp [fields])]
  simp [fields, Json.Record.required?, List.lookup_cons]

theorem removeElementOf?_fields (id : ElementId) (cascade : Bool) :
    removeElementOf? (.object (removeElement id cascade).fields) =
      some (removeElement id cascade) := by
  rw [removeElementOf?, Json.record?_object (by simp [fields]) (by simp [fields])]
  simp [fields, Json.Record.required?, List.lookup_cons, Json.bool?]

theorem removeEdgeOf?_fields (source : ElementId) (edges : EdgeMap) (stamps : List EdgeStamp) :
    removeEdgeOf? (.object (removeEdge source edges stamps).fields) =
      some (removeEdge source edges stamps) := by
  have listed : (⟨false, (removeEdge source edges stamps).fields⟩ : Json.Record).defaulted?
      "stamps" (Json.list? EdgeStamp.ofJson?) [] = some stamps :=
    defaulted?_listField EdgeStamp.ofJson?_toJson rfl stamps
  rw [removeEdgeOf?, Json.record?_object]
  · simp only [Option.bind_eq_bind, Option.bind_some, listed]
    simp [fields, Json.Record.required?, List.lookup_cons]
  · cases stamps <;> simp [fields, listField]
  · cases stamps <;> simp [fields, listField]

@[simp] theorem ofJson?_toJson (operation : Operation) :
    ofJson? operation.toJson = some operation := by
  rw [ofJson?, toJson, Json.tagged?_object operation.op_not_mem_fields]
  cases operation <;>
    simp [name, Json.string?, rootOf?_fields, newElementOf?_fields, newEdgeOf?_fields,
      removeElementOf?_fields, removeEdgeOf?_fields]

/-- Edges nest deepest in an operation. -/
theorem fits_toJson (depth : Nat) (operation : Operation) :
    operation.toJson.fits (depth + 4) = true := by
  apply Json.fits_object
  cases operation with
  | root project =>
      simp [fields, Project.toJson, Project.fields, ElementId.toJson, Json.fits, Json.fitsFields]
  | newElement element container edges =>
      have inside := element.fits_toJson (depth + 2)
      cases container <;>
        simp [fields, Json.nullable, ElementId.toJson, Json.fits, inside, edges.fits_toJson]
  | newEdge source edges => simp [fields, ElementId.toJson, Json.fits, edges.fits_toJson]
  | removeElement id cascade => simp [fields, ElementId.toJson, Json.fits]
  | removeEdge source edges stamps =>
      have inside : (Json.list EdgeStamp.toJson stamps).fits (depth + 3) = true :=
        Json.fits_list (fun stamp => by simp [EdgeStamp.toJson, Json.nat, Json.fits]) stamps
      cases stamps <;>
        simp [fields, listField, ElementId.toJson, Json.fits, edges.fits_toJson, inside]

def namedStamps : Operation → List EdgeStamp
  | removeEdge _ _ stamps => stamps
  | _ => []

/-- An operation can be written when the stamps that it names have at most 64 bits. -/
theorem plain_toJson {operation : Operation}
    (words : ∀ stamp ∈ operation.namedStamps, stamp.number < Text.wordLimit) :
    operation.toJson.plain = true := by
  apply Json.plain_object
  cases operation with
  | root project =>
      simp [fields, Project.toJson, Project.fields, ElementId.toJson, Json.plain, Json.plainFields]
  | newElement element container edges =>
      cases container <;>
        simp [fields, Json.nullable, ElementId.toJson, Json.plain, element.plain_toJson,
          edges.plain_toJson]
  | newEdge source edges => simp [fields, ElementId.toJson, Json.plain, edges.plain_toJson]
  | removeElement id cascade => simp [fields, ElementId.toJson, Json.plain]
  | removeEdge source edges stamps =>
      have inside : (Json.list EdgeStamp.toJson stamps).plain = true :=
        Json.plain_list fun stamp member => by
          simpa [EdgeStamp.toJson, Json.nat, Json.plain] using words stamp member
      cases stamps <;>
        simp [fields, listField, ElementId.toJson, Json.plain, edges.plain_toJson, inside]

/-- An operation is read from every text of its JSON. -/
theorem ofText?_of_json (text : String) (operation : Operation)
    (denotes : Json.ofText? text = some operation.toJson) : ofText? text = some operation := by
  simp [ofText?, denotes, Json.nestingLimit, fits_toJson]

end Operation

end LanguageGraph
