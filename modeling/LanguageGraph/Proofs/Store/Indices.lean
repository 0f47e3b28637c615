/-
# Proofs.Store.Indices — the indices agree with a scan of the elements

What an element contains and what has an edge to it could be found by looking at every element. The
store keeps both at hand, and after any changes whatsoever, half-failed commits included, what it keeps
is what a scan finds (`indexed_run`): the children in the order of creation, the referrers as a multiset,
with one entry for each edge.
-/
import LanguageGraph.Proofs.Store.Run

namespace LanguageGraph

set_option autoImplicit false

namespace Store

/-- The source and type of every edge into an element, found by a scan. -/
def edgesInto (store : Store) (destination : ElementId) : List (ElementId × EdgeType) :=
  store.elements.flatMap fun element =>
    EdgeType.all.flatMap fun edgeType =>
      ((store.edges element.id edgeType).filter fun other => other = destination).map fun _ =>
        (element.id, edgeType)

/-- The indices agree with the elements, and nothing refers to what is not there. -/
structure Indexed (store : Store) : Prop where
  /-- The children are the present elements with this container, in the order of creation. -/
  children : ∀ container, store.childrenOf container =
    (store.elements.map Element.id).filter fun id => store.containerOf? id = some container
  children_nodup : ∀ container, (store.childrenOf container).Nodup
  /-- The referrers are the sources of edges, one for each edge. -/
  referrers : ∀ destination, (store.referrers destination).Perm (store.edgesInto destination)
  container_present : ∀ id container, store.containerOf? id = some container →
    store.contains container = true
  destination_present : ∀ id edgeType, ∀ destination ∈ store.edges id edgeType,
    store.contains destination = true
  children_absent : ∀ id, store.contains id = false → store.childrenOf id = []
  referrers_absent : ∀ id, store.contains id = false → store.referrers id = []

variable {store : Store}

theorem ids_elements (store : Store) : store.elements.map Element.id = idsOf store.places := by
  simp only [elements, idsOf, places, List.map_map]
  rfl

/-- Elements and containers are read off the places. -/
theorem elements_eq_map (store : Store) : store.elements = store.places.map Prod.fst := by
  rw [elements, places, List.map_map]
  rfl

theorem containerOf?_eq_find (store : Store) (id : ElementId) :
    store.containerOf? id = (store.places.find? fun place => place.1.id = id).bind Prod.snd := by
  rw [containerOf?, slot?, places, List.find?_map, Option.bind_map]
  rfl

theorem Placed.containerOf?_of_mem (placed : store.Placed) {place : Element × Option ElementId}
    (member : place ∈ store.places) : store.containerOf? place.1.id = place.2 := by
  obtain ⟨slot, inSlots, rfl⟩ := List.mem_map.1 member
  show (store.slot? slot.id).bind Slot.container = _
  rw [placed.slot?_of_mem inSlots]
  rfl

theorem Placed.childrenOf_eq_scan (placed : store.Placed) (container : ElementId) :
    store.childrenOf container =
      (store.elements.map Element.id).filter fun id => store.containerOf? id = some container := by
  rw [placed.children, ids_elements, heldBy, idsOf, idsOf, List.filter_map]
  congr 1
  refine List.filter_congr fun place member => ?_
  rw [Function.comp, placed.containerOf?_of_mem member]

theorem mem_childrenOf_of_containerOf? (placed : store.Placed) {id container : ElementId}
    (held : store.containerOf? id = some container) : id ∈ store.childrenOf container := by
  obtain ⟨slot, found, holder⟩ := Option.bind_eq_some_iff.1 held
  rw [placed.children, mem_heldBy]
  exact ⟨slot.place, List.mem_map_of_mem (mem_of_slot? found), holder, id_of_slot? found⟩

/-- How often a scan of some elements meets the edges of a type from a source. -/
theorem count_scan (store : Store) (destination source : ElementId) (edgeType : EdgeType)
    {elements : List Element} (nodup : (elements.map Element.id).Nodup) :
    (elements.flatMap fun element =>
      EdgeType.all.flatMap fun edgeType =>
        ((store.edges element.id edgeType).filter fun other => other = destination).map fun _ =>
          (element.id, edgeType)).count (source, edgeType) =
      if source ∈ elements.map Element.id then (store.edges source edgeType).count destination
      else 0 := by
  obtain rfl := edgeType.eq_typeOf
  induction elements with
  | nil => rfl
  | cons element elements ih =>
      rw [List.map_cons, List.nodup_cons] at nodup
      have counted : ((EdgeType.all.flatMap fun edgeType =>
          ((store.edges element.id edgeType).filter fun other => other = destination).map fun _ =>
            (element.id, edgeType)).count (source, EdgeType.typeOf)) =
          if source = element.id then (store.edges source .typeOf).count destination else 0 := by
        rw [EdgeType.all, List.flatMap_singleton, List.map_const', List.count_replicate]
        by_cases mine : source = element.id
        · subst mine
          rw [if_pos BEq.rfl, if_pos rfl, ← List.countP_eq_length_filter]
          rfl
        · rw [if_neg fun pair => mine (Prod.mk.inj (eq_of_beq pair)).1.symm, if_neg mine]
      rw [List.flatMap_cons, List.count_append, counted, ih nodup.2, List.map_cons]
      by_cases mine : source = element.id
      · subst mine
        rw [if_pos rfl, if_neg nodup.1, if_pos List.mem_cons_self, Nat.add_zero]
      · rw [if_neg mine, Nat.zero_add]
        by_cases later : source ∈ elements.map Element.id
        · rw [if_pos later, if_pos (List.mem_cons_of_mem _ later)]
        · rw [if_neg later, if_neg fun member => (List.mem_cons.1 member).elim mine later]

theorem Sound.referrers_perm (sound : store.Sound) (destination : ElementId) :
    (store.referrers destination).Perm (store.edgesInto destination) := by
  rw [List.perm_iff_count]
  rintro ⟨source, edgeType⟩
  have nodup := sound.nodup
  rw [← ids_elements] at nodup
  rw [sound.incoming, edgesInto, count_scan store destination source edgeType nodup, ids_elements]
  split
  · rfl
  · rename_i absent
    have gone : store.contains source = false :=
      Bool.eq_false_iff.2 fun there => absent (contains_iff_ids.1 there)
    rw [edges_of_absent gone, List.count_nil]

theorem Linked.present_of_edge (linked : store.Linked) {id destination : ElementId}
    {edgeType : EdgeType} (member : destination ∈ store.edges id edgeType) :
    store.contains destination = true := by
  cases found : store.slot? id with
  | none => simp [edges, found] at member
  | some slot =>
      rw [edges_of_slot? found] at member
      exact linked.present slot (mem_of_slot? found) edgeType destination member

theorem Sound.indexed (sound : store.Sound) : store.Indexed where
  children := sound.toPlaced.childrenOf_eq_scan
  children_nodup container := by
    rw [sound.toPlaced.childrenOf_eq_scan, ids_elements]
    exact sound.nodup.filter _
  referrers := sound.referrers_perm
  container_present id container held :=
    sound.toPlaced.contains_container (mem_childrenOf_of_containerOf? sound.toPlaced held)
  destination_present _ _ _ member := sound.toLinked.present_of_edge member
  children_absent id absent := by
    refine List.eq_nil_iff_forall_not_mem.2 fun child held => ?_
    rw [sound.toPlaced.contains_container held] at absent
    cases absent
  referrers_absent id absent := by
    refine List.eq_nil_iff_forall_not_mem.2 fun edge member => ?_
    have counted := List.count_pos_iff.2 member
    rw [sound.incoming, List.count_pos_iff] at counted
    rw [sound.toLinked.present_of_edge counted] at absent
    cases absent

/-- **Whatever changes made a graph, its indices agree with a scan of its elements.** -/
theorem indexed_run (changes : List Change) : (Store.empty.run changes).Indexed :=
  (sound_run changes).indexed

end Store

end LanguageGraph
