/-
# Proofs.Operation.Independence — additions that have nothing to do with each other

New elements and new edges may share containers and destinations and still not meet, as long as no two
create the same element and no two add to the same list of edges (`Independent`). One that a graph accepts
is accepted after the others, since these only add, and not what it is about to create
(`validate_of_more`). What some of them make of a graph is everything they declare, behind what was there
(`Gathered`); it depends on their order only in the order of elements, because each list of edges grows by
one of them at most (`Gathered.alike`).
-/
import LanguageGraph.Proofs.Operation.Effect
import LanguageGraph.Proofs.Store.Alike

namespace LanguageGraph

set_option autoImplicit false

/-- Where no two values give something, the order of the values does not show in what they give. -/
theorem flatMap_eq_of_perm {α β : Type} {give : α → List β} {values values' : List α}
    (perm : values.Perm values')
    (alone : values.Pairwise fun value other => give value = [] ∨ give other = []) :
    values.flatMap give = values'.flatMap give := by
  have symmetric : ∀ value other, (give value = [] ∨ give other = []) →
      give other = [] ∨ give value = [] := fun _ _ => Or.symm
  induction perm with
  | nil => rfl
  | cons value perm ih =>
      rw [List.flatMap_cons, List.flatMap_cons, ih (List.pairwise_cons.1 alone).2]
  | swap value other values =>
      rw [List.flatMap_cons, List.flatMap_cons, List.flatMap_cons, List.flatMap_cons]
      rcases (List.pairwise_cons.1 alone).1 value List.mem_cons_self with gives | gives
      · rw [gives, List.nil_append, List.nil_append]
      · rw [gives, List.nil_append, List.nil_append]
  | trans perm perm' ih ih' =>
      exact (ih alone).trans (ih' ((perm.pairwise_iff @symmetric).1 alone))

namespace Operation

/-- The element to which an operation adds edges without creating it. -/
def edgeSource? : Operation → Option ElementId
  | newEdge source _ => some source
  | _ => none

/-- New elements with identities of their own, and new edges from sources of their own. -/
structure Independent (operations : List Operation) : Prop where
  additions : ∀ operation ∈ operations,
    (∃ element container edges, operation = newElement element container edges) ∨
      ∃ source edges, operation = newEdge source edges
  elements : (operations.filterMap introduced?).Nodup
  sources : (operations.filterMap edgeSource?).Nodup

/-- A store after some additions: everything declared stands at the end of its list. -/
structure Gathered (operations : List Operation) (store final : Store) : Prop where
  places : final.places = store.places ++ operations.filterMap place?
  edges : ∀ id edgeType, final.edges id edgeType = store.edges id edgeType ++
    operations.flatMap fun operation => destinationsAmong id edgeType operation.addedEdges
  root : final.root = store.root

variable {order : EdgeOrder} {operation : Operation} {operations operations' : List Operation}
  {store next final final' : Store}

/-! ## What is independent -/

theorem Independent.perm (independent : Independent operations)
    (perm : operations.Perm operations') : Independent operations' where
  additions operation member := independent.additions operation (perm.mem_iff.2 member)
  elements := (perm.filterMap _).nodup_iff.1 independent.elements
  sources := (perm.filterMap _).nodup_iff.1 independent.sources

theorem Independent.tail (independent : Independent (operation :: operations)) :
    Independent operations where
  additions other member := independent.additions other (List.mem_cons_of_mem _ member)
  elements := independent.elements.sublist ((List.sublist_cons_self _ _).filterMap _)
  sources := independent.sources.sublist ((List.sublist_cons_self _ _).filterMap _)

/-- The others create other elements than the first. -/
theorem Independent.introduced?_ne (independent : Independent (operation :: operations))
    {other : Operation} (member : other ∈ operations) {id : ElementId}
    (introduced : other.introduced? = some id) : operation.introduced? ≠ some id := by
  intro again
  have nodup := independent.elements
  rw [List.filterMap_cons_some again, List.nodup_cons] at nodup
  exact nodup.1 (List.mem_filterMap.2 ⟨other, member, introduced⟩)

theorem Independent.isAddition (independent : Independent operations)
    (member : operation ∈ operations) : operation.isAddition = true := by
  rcases independent.additions operation member with ⟨_, _, _, rfl⟩ | ⟨_, _, rfl⟩
  · rfl
  · rfl

theorem Independent.not_root (independent : Independent operations)
    (member : operation ∈ operations) (project : Project) : operation ≠ .root project := by
  rintro rfl
  rcases independent.additions _ member with ⟨_, _, _, is⟩ | ⟨_, _, is⟩
  · cases is
  · cases is

/-- Edges are added to the element that is created, or to the one that is named. -/
theorem source_of_mem_addedEdges {edge : ElementId × EdgeType × ElementId}
    (added : edge ∈ operation.addedEdges) :
    operation.introduced? = some edge.1 ∨ operation.edgeSource? = some edge.1 := by
  cases operation with
  | newElement element container edges =>
      obtain ⟨_, _, rfl⟩ := List.mem_map.1 added
      exact .inl rfl
  | newEdge source edges =>
      obtain ⟨_, _, rfl⟩ := List.mem_map.1 added
      exact .inr rfl
  | _ => cases added

theorem present_of_edgeSource? (valid : operation.validate order store = .ok ()) {id : ElementId}
    (source : operation.edgeSource? = some id) : store.contains id = true := by
  cases operation with
  | newEdge source edges =>
      cases source
      exact (validate_newEdge_eq_ok_iff.1 valid).1
  | _ => cases source

/-- Of accepted operations that do not meet, one at most adds edges to an element. -/
theorem Independent.alone (independent : Independent operations)
    (valid : ∀ operation ∈ operations, operation.validate order store = .ok ()) (id : ElementId)
    (edgeType : EdgeType) :
    operations.Pairwise fun operation other =>
      destinationsAmong id edgeType operation.addedEdges = [] ∨
        destinationsAmong id edgeType other.addedEdges = [] := by
  have creates_or_names : ∀ operation : Operation,
      destinationsAmong id edgeType operation.addedEdges ≠ [] →
        operation.introduced? = some id ∨ operation.edgeSource? = some id := by
    intro operation gives
    obtain ⟨destination, member⟩ := List.exists_mem_of_ne_nil _ gives
    exact source_of_mem_addedEdges (mem_destinationsAmong.1 member)
  have elements := List.pairwise_filterMap.1 independent.elements
  have sources := List.pairwise_filterMap.1 independent.sources
  refine (elements.and sources).imp_of_mem ?_
  rintro operation other member member' ⟨unlike, unlike'⟩
  by_contra both
  obtain ⟨gives, gives'⟩ := not_or.1 both
  -- What the one creates is absent, and what the other adds edges to is present.
  rcases creates_or_names operation gives with creates | names <;>
    rcases creates_or_names other gives' with creates' | names'
  · exact unlike id creates id creates' rfl
  · have absent := absent_of_validate (valid operation member) creates
    rw [present_of_edgeSource? (valid other member') names'] at absent
    cases absent
  · have absent := absent_of_validate (valid other member') creates'
    rw [present_of_edgeSource? (valid operation member) names] at absent
    cases absent
  · exact unlike' id names id names' rfl

/-! ## Acceptance -/

/-- What may enter a graph may enter one with more in it, as long as it is not there itself. -/
theorem checkAdd_of_more (placed : store.Placed) (placed' : next.Placed)
    (more : store.places ⊆ next.places) {element : Element} {container : Option ElementId}
    (checked : store.checkAdd element container = .ok ())
    (absent : next.contains element.id = false) : next.checkAdd element container = .ok () := by
  refine Store.checkAdd_eq_ok_iff.2 ⟨absent, fun containerId is => ?_⟩
  obtain ⟨parent, got, may⟩ := (Store.checkAdd_eq_ok_iff.1 checked).2 containerId is
  obtain ⟨place, member, same⟩ := (Store.get?_eq_some_iff placed).1 got
  exact ⟨parent, (Store.get?_eq_some_iff placed').2 ⟨place, more member, same⟩, may⟩

theorem checkDestinations_of_more (more : store.places ⊆ next.places)
    {introduced : Option ElementId} {edges : EdgeMap}
    (checked : checkDestinations store introduced edges = .ok ()) :
    checkDestinations next introduced edges = .ok () := by
  refine checkDestinations_eq_ok_iff.2 fun edge member => ?_
  exact (checkDestinations_eq_ok_iff.1 checked edge member).imp_right (Store.contains_of_subset more)

/-- An addition that a graph accepts is accepted with more in the graph, but for what it creates. -/
theorem Independent.validate_of_more (independent : Independent operations)
    (member : operation ∈ operations) (placed : store.Placed) (placed' : next.Placed)
    (more : store.places ⊆ next.places) (valid : operation.validate order store = .ok ())
    (absent : ∀ id, operation.introduced? = some id → next.contains id = false) :
    operation.validate order next = .ok () := by
  rcases independent.additions operation member with
    ⟨element, container, edges, rfl⟩ | ⟨source, edges, rfl⟩
  · obtain ⟨unrooted, checked, destinations⟩ := validate_newElement_eq_ok_iff.1 valid
    exact validate_newElement_eq_ok_iff.2 ⟨unrooted,
      checkAdd_of_more placed placed' more checked (absent _ rfl),
      checkDestinations_of_more more destinations⟩
  · obtain ⟨there, destinations⟩ := validate_newEdge_eq_ok_iff.1 valid
    exact validate_newEdge_eq_ok_iff.2
      ⟨Store.contains_of_subset more there, checkDestinations_of_more more destinations⟩

/-- After the first, the others are accepted as before. -/
theorem Independent.validate_after (independent : Independent (operation :: operations))
    (sound : store.Sound) (valid : operation.validate order store = .ok ())
    (others : ∀ other ∈ operations, other.validate order store = .ok ()) :
    ∀ other ∈ operations, other.validate order (operation.commit store).2 = .ok () := by
  intro other member
  have added := added_of_validate sound (independent.isAddition List.mem_cons_self) valid
  have more : store.places ⊆ (operation.commit store).2.places := by
    rw [added.places]
    exact List.subset_append_left _ _
  refine independent.tail.validate_of_more member sound.toPlaced
    (sound.perform operation.steps).toPlaced more (others other member) fun id introduced => ?_
  have absent := absent_of_validate (others other member) introduced
  rw [Bool.eq_false_iff, ne_eq, added.there_iff]
  rintro (there | again)
  · rw [there] at absent
    cases absent
  · exact independent.introduced?_ne member introduced again

/-! ## What additions make -/

theorem Gathered.refl (store : Store) : Gathered [] store store where
  places := (List.append_nil _).symm
  edges _ _ := (List.append_nil _).symm
  root := rfl

/-- One addition, and then the others. -/
theorem Gathered.cons (added : Added operation store next)
    (unlike : ∀ project, operation ≠ Operation.root project)
    (linked : store.Linked) (linked' : next.Linked) (rest : Gathered operations next final) :
    Gathered (operation :: operations) store final where
  places := by
    rw [rest.places, added.places, List.append_assoc, List.filterMap_cons]
    cases operation.place? <;> rfl
  edges id edgeType := by
    rw [rest.edges, added.edges linked linked', List.append_assoc, List.flatMap_cons]
  root := by
    rcases added.root with ⟨-, project, is⟩ | same
    · exact absurd is (unlike project)
    · exact rest.root.trans same

/-- Two orders of independent additions make the same graph. -/
theorem Gathered.alike (gathered : Gathered operations store final)
    (gathered' : Gathered operations' store final') (independent : Independent operations)
    (valid : ∀ operation ∈ operations, operation.validate order store = .ok ())
    (perm : operations.Perm operations') : Store.Alike final final' where
  places := by
    rw [gathered.places, gathered'.places]
    exact (perm.filterMap _).append_left _
  edges id edgeType := by
    rw [gathered.edges, gathered'.edges,
      flatMap_eq_of_perm perm (independent.alone valid id edgeType)]
  root := gathered.root.trans gathered'.root.symm

end Operation

end LanguageGraph
