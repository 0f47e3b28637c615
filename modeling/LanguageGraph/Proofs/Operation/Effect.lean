/-
# Proofs.Operation.Effect — what a committed operation does to a graph

An addition puts its element behind all others and its edges behind all others of their source, and
leaves the rest alone (`Added`). A removal only takes away. In either case the elements and edges of the
graph afterwards are among those before and those that the operation declares, in this order
(`Operation.affected`).
-/
import LanguageGraph.Proofs.Operation.Commit
import LanguageGraph.Proofs.Store.Extension
import LanguageGraph.Proofs.Store.Reduction

namespace LanguageGraph

set_option autoImplicit false

namespace Operation

def isAddition : Operation → Bool
  | root _ => true
  | newElement _ _ _ => true
  | newEdge _ _ => true
  | removeElement _ _ => false
  | removeEdge _ _ _ => false

/-- The element that an operation creates, with its container. -/
def place? : Operation → Option (Element × Option ElementId)
  | root project => some (.project project, none)
  | newElement element container _ => some (element, container)
  | newEdge _ _ => none
  | removeElement _ _ => none
  | removeEdge _ _ _ => none

variable {order : EdgeOrder} {operation : Operation} {store final : Store}

theorem introduced?_eq_place? (operation : Operation) :
    operation.introduced? = operation.place?.map fun place => place.1.id := by
  cases operation <;> rfl

theorem introduced?_of_place? {place : Element × Option ElementId}
    (declared : operation.place? = some place) : operation.introduced? = some place.1.id := by
  rw [introduced?_eq_place?, declared, Option.map_some]

theorem inverse?_of_place? {place : Element × Option ElementId}
    (declared : operation.place? = some place) (stamps : List EdgeStamp) :
    operation.inverse? stamps = some (removeElement place.1.id false) := by
  cases operation with
  | root project =>
      cases declared
      rfl
  | newElement element container edges =>
      cases declared
      rfl
  | newEdge source edges => cases declared
  | removeElement id cascade => cases declared
  | removeEdge source edges stamps => cases declared

theorem isAddition_of_place? {place : Element × Option ElementId}
    (declared : operation.place? = some place) : operation.isAddition = true := by
  cases operation with
  | root project => rfl
  | newElement element container edges => rfl
  | newEdge source edges => cases declared
  | removeElement id cascade => cases declared
  | removeEdge source edges stamps => cases declared

/-- Additions are what can be undone. -/
theorem inverse?_eq_none_iff {stamps : List EdgeStamp} :
    operation.inverse? stamps = none ↔ operation.isAddition = false := by
  cases operation <;> simp [inverse?, isAddition]

theorem introduced?_of_inverse? {stamps : List EdgeStamp} {inverse : Operation}
    (inverted : operation.inverse? stamps = some inverse) : inverse.introduced? = none := by
  cases operation with
  | root project =>
      cases inverted
      rfl
  | newElement element container edges =>
      cases inverted
      rfl
  | newEdge source edges =>
      cases inverted
      rfl
  | removeElement id cascade => cases inverted
  | removeEdge source edges stamps => cases inverted

/-- What is added is an element or edges of a present one. -/
theorem place?_or_newEdge (operation : Operation) (addition : operation.isAddition = true) :
    (∃ place, operation.place? = some place) ∨
      ∃ source edges, operation = newEdge source edges := by
  cases operation with
  | root project => exact .inl ⟨_, rfl⟩
  | newElement element container edges => exact .inl ⟨_, rfl⟩
  | newEdge source edges => exact .inr ⟨source, edges, rfl⟩
  | removeElement id cascade => cases addition
  | removeEdge source edges stamps => cases addition

theorem steps_removal (removal : operation.isAddition = false) :
    ∀ step ∈ operation.steps, step.isRemoval = true := by
  cases operation with
  | root project => cases removal
  | newElement element container edges => cases removal
  | newEdge source edges => cases removal
  | removeElement id cascade =>
      intro step member
      rw [List.mem_singleton.1 member]
      rfl
  | removeEdge source edges stamps =>
      intro step member
      rw [steps] at member
      split at member
      · obtain ⟨edge, -, rfl⟩ := List.mem_map.1 member
        rfl
      · obtain ⟨edge, -, rfl⟩ := List.mem_map.1 member
        rfl

theorem removal_declares_nothing (removal : operation.isAddition = false) :
    operation.place? = none ∧ operation.addedEdges = [] := by
  cases operation with
  | root project => cases removal
  | newElement element container edges => cases removal
  | newEdge source edges => cases removal
  | removeElement id cascade => exact ⟨rfl, rfl⟩
  | removeEdge source edges stamps => exact ⟨rfl, rfl⟩

theorem absent_of_validate (valid : operation.validate order store = .ok ()) {id : ElementId}
    (introduced : operation.introduced? = some id) : store.contains id = false := by
  cases operation with
  | root project =>
      cases introduced
      have checked := Store.checkAdd_of_empty (validate_root_eq_ok_iff.1 valid) (.project project)
      exact (Store.checkAdd_eq_ok_iff.1 checked).1
  | newElement element container edges =>
      cases introduced
      obtain ⟨-, checked, -⟩ := validate_newElement_eq_ok_iff.1 valid
      exact (Store.checkAdd_eq_ok_iff.1 checked).1
  | newEdge source edges => cases introduced
  | removeElement id cascade => cases introduced
  | removeEdge source edges stamps => cases introduced

/-! ## Additions -/

/-- A store after an addition: everything declared stands at the end of its list. -/
structure Added (operation : Operation) (store final : Store) : Prop where
  places : final.places = store.places ++ operation.place?.toList
  root : (store.slots = [] ∧ ∃ project, operation = .root project) ∨ final.root = store.root
  nextStamp : final.nextStamp = store.nextStamp + operation.addedEdges.length
  links : ∀ id edgeType, final.links id edgeType = store.links id edgeType ++
    linksAmong id edgeType
      (operation.addedEdges.zip (EdgeStamp.between store.nextStamp final.nextStamp))
  referrers : ∀ destination, final.referrers destination =
    store.referrers destination ++ referrersAmong destination operation.addedEdges

/-- An element that is no project leaves the root as it is. -/
theorem root_insert {element : Element} (unrooted : element.isRoot = false)
    (container : Option ElementId) : (store.insert element container).root = store.root := by
  show (if element.isRoot && container.isNone && store.root.isNone then some element.id
    else store.root) = store.root
  rw [unrooted]
  rfl

theorem Added.root_of_commit {project : Project}
    (valid : (Operation.root project).validate order store = .ok ())
    (done : (Operation.root project).commit store = (.ok (), final)) :
    Added (Operation.root project) store final := by
  have empty := validate_root_eq_ok_iff.1 valid
  obtain ⟨-, rfl⟩ := Store.add_eq_ok_iff.1 (Store.perform_singleton_eq_ok_iff.1 done)
  refine ⟨Store.places_insert store (.project project) none, .inl ⟨empty, project, rfl⟩, rfl,
    ?_, ?_⟩
  · intro id edgeType
    rw [Store.links_insert]
    exact (List.append_nil _).symm
  · intro destination
    exact (List.append_nil _).symm

theorem Added.newElement_of_commit (sound : store.Sound) {element : Element}
    {container : Option ElementId} {edges : EdgeMap}
    (valid : (newElement element container edges).validate order store = .ok ())
    (done : (newElement element container edges).commit store = (.ok (), final)) :
    Added (newElement element container edges) store final := by
  obtain ⟨unrooted, checked, -⟩ := validate_newElement_eq_ok_iff.1 valid
  obtain ⟨next, first, rest⟩ := Store.perform_cons_eq_ok_iff.1 done
  obtain ⟨-, rfl⟩ := Store.add_eq_ok_iff.1 first
  have extended := (sound.insert checked).extended_perform rest
  refine ⟨?_, .inr ?_, extended.nextStamp, ?_, extended.referrers⟩
  · rw [extended.places]
    exact Store.places_insert store element container
  · rw [extended.root]
    exact root_insert unrooted container
  · intro id edgeType
    rw [extended.links, Store.links_insert]
    rfl

theorem Added.newEdge_of_commit (sound : store.Sound) {source : ElementId} {edges : EdgeMap}
    (done : (newEdge source edges).commit store = (.ok (), final)) :
    Added (newEdge source edges) store final := by
  have extended := sound.extended_perform done
  refine ⟨?_, .inr extended.root, extended.nextStamp, extended.links, extended.referrers⟩
  rw [extended.places]
  exact (List.append_nil _).symm

/-- An addition that was accepted does what it declares, and nothing else. -/
theorem added_of_validate (sound : store.Sound) (addition : operation.isAddition = true)
    (valid : operation.validate order store = .ok ()) :
    Added operation store (operation.commit store).2 := by
  obtain ⟨final, done⟩ := commit_of_validate sound valid
  rw [done]
  cases operation with
  | root project => exact .root_of_commit valid done
  | newElement element container edges => exact .newElement_of_commit sound valid done
  | newEdge source edges => exact .newEdge_of_commit sound done
  | removeElement id cascade => cases addition
  | removeEdge source edges stamps => cases addition

/-- After an addition there is what was there, and the element that the addition creates. -/
theorem Added.there_iff (added : Added operation store final) {id : ElementId} :
    final.contains id = true ↔ store.contains id = true ∨ operation.introduced? = some id := by
  rw [Store.contains_iff_ids, Store.contains_iff_ids, added.places, Store.idsOf_append,
    List.mem_append, introduced?_eq_place?]
  apply or_congr_right
  cases operation.place? with
  | none => simp [Store.idsOf]
  | some place => simp [Store.idsOf, eq_comm]

/-- The edges of an addition stand behind the others of their source. -/
theorem Added.edges (added : Added operation store final) (linked : store.Linked)
    (linked' : final.Linked) (id : ElementId) (edgeType : EdgeType) :
    final.edges id edgeType =
      store.edges id edgeType ++ destinationsAmong id edgeType operation.addedEdges := by
  have length : (EdgeStamp.between store.nextStamp final.nextStamp).length =
      operation.addedEdges.length := by
    rw [EdgeStamp.length_between, added.nextStamp, Nat.add_sub_cancel_left]
  rw [← linked.map_fst_links, ← linked'.map_fst_links, added.links, List.map_append,
    map_fst_linksAmong length]

/-! ## Removals of elements -/

theorem commit_removeElement {id : ElementId} {cascade : Bool}
    (checked : store.checkRemove id cascade = .ok ()) :
    (removeElement id cascade).commit store =
      (.ok (), (Store.detachAll (store.contents id) store).2) :=
  Store.perform_singleton_eq_ok_iff.2 (Store.step_remove_eq_ok_iff.2 ⟨checked, rfl⟩)

/-! ## Any operation -/

/-- A store after an operation: nothing is there but what was there and what was declared. -/
structure Affected (operation : Operation) (store final : Store) : Prop where
  places : final.places.Sublist (store.places ++ operation.place?.toList)
  nextStamp : final.nextStamp = store.nextStamp + operation.addedEdges.length
  links : ∀ id edgeType, (final.links id edgeType).Sublist (store.links id edgeType ++
    linksAmong id edgeType
      (operation.addedEdges.zip (EdgeStamp.between store.nextStamp final.nextStamp)))

/-- Whatever an accepted operation does, it brings in no more than it declares. -/
theorem affected_of_validate (sound : store.Sound) (valid : operation.validate order store = .ok ()) :
    Affected operation store (operation.commit store).2 := by
  cases addition : operation.isAddition with
  | true =>
      have added := added_of_validate sound addition valid
      refine ⟨?_, added.nextStamp, ?_⟩
      · rw [added.places]
      · intro id edgeType
        rw [added.links]
  | false =>
      obtain ⟨no_place, no_edges⟩ := removal_declares_nothing addition
      have reduced : store.Reduced (operation.commit store).2 :=
        sound.reduced_perform (steps_removal addition)
      refine ⟨?_, ?_, ?_⟩
      · rw [no_place]
        exact reduced.places.trans (List.sublist_append_left _ _)
      · rw [no_edges]
        exact reduced.nextStamp
      · intro id edgeType
        exact (reduced.links id edgeType).trans (List.sublist_append_left _ _)

end Operation

end LanguageGraph
