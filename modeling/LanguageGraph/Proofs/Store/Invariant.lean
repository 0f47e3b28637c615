/-
# Proofs.Store.Invariant — what holds of every graph that changes made

A store is `Sound` in two respects that change separately.

* `Placed` speaks of elements and containers: no identity twice, each container before what it contains
  and of a kind that may contain it, and `children` the result of a scan.
* `Linked` speaks of edges: destinations and stamps in step, no stamp twice and none from the future,
  every destination present, and `incoming` the result of a scan, as a multiset.

`Placed` reads a store through `places` and `childrenOf` only, so changing edges cannot disturb it
(`Placed.of_places`).
-/
import LanguageGraph.Proofs.Store.Slot
import LanguageGraph.Store.Equality
import Mathlib.Data.List.Nodup

namespace LanguageGraph

set_option autoImplicit false

/-- What a slot says of its element besides edges. -/
def Slot.place (slot : Slot) : Element × Option ElementId :=
  (slot.element, slot.container)

@[simp] theorem Slot.place_dropEdgesTo (slot : Slot) (destination : ElementId) :
    (slot.dropEdgesTo destination).place = slot.place := by
  simp [Slot.place]

namespace Store

/-- All elements with their containers, in the order of creation. -/
def places (store : Store) : List (Element × Option ElementId) :=
  store.slots.map Slot.place

def idsOf (places : List (Element × Option ElementId)) : List ElementId :=
  places.map fun place => place.1.id

/-- Every container stands before what it contains, and may contain it. -/
def Nested (places : List (Element × Option ElementId)) : Prop :=
  ∀ before element container after, places = before ++ (element, some container) :: after →
    ∃ parent ∈ before, parent.1.id = container ∧ parent.1.kind.canContain element.kind = true

/-- What a container holds, found by a scan. -/
def heldBy (places : List (Element × Option ElementId)) (container : ElementId) : List ElementId :=
  idsOf (places.filter fun place => place.2 = some container)

/-- Elements and containers are in order, and `children` agrees with them. -/
structure Placed (store : Store) : Prop where
  nodup : (idsOf store.places).Nodup
  nested : Nested store.places
  children : ∀ container, store.childrenOf container = heldBy store.places container

/-- Edges and stamps are in order, and `incoming` agrees with them. -/
structure Linked (store : Store) : Prop where
  sound : ∀ slot ∈ store.slots, slot.Sound
  below : ∀ slot ∈ store.slots, ∀ edgeType, ∀ stamp ∈ slot.stamps.get edgeType,
    stamp.number < store.nextStamp
  apart : ∀ first ∈ store.slots, ∀ second ∈ store.slots, ∀ edgeType edgeType' stamp,
    stamp ∈ first.stamps.get edgeType → stamp ∈ second.stamps.get edgeType' →
      first.id = second.id ∧ edgeType = edgeType'
  present : ∀ slot ∈ store.slots, ∀ edgeType, ∀ destination ∈ slot.edges.get edgeType,
    store.contains destination = true
  incoming : ∀ destination source edgeType,
    (store.referrers destination).count (source, edgeType) =
      (store.edges source edgeType).count destination

/-- What holds of every graph that changes made. -/
structure Sound (store : Store) : Prop extends Placed store, Linked store

theorem idsOf_append (first second : List (Element × Option ElementId)) :
    idsOf (first ++ second) = idsOf first ++ idsOf second :=
  List.map_append

theorem heldBy_append (first second : List (Element × Option ElementId)) (container : ElementId) :
    heldBy (first ++ second) container = heldBy first container ++ heldBy second container := by
  rw [heldBy, List.filter_append, idsOf_append]
  rfl

variable {store : Store} {id : ElementId} {slot : Slot}

/-! ## Finding a slot -/

theorem ids_eq (store : Store) : store.slots.map Slot.id = idsOf store.places := by
  simp only [idsOf, places, List.map_map]
  rfl

theorem isEmpty_eq_places (store : Store) : store.isEmpty = store.places.isEmpty := by
  rw [places, List.isEmpty_map, isEmpty]

theorem id_of_slot? (found : store.slot? id = some slot) : slot.id = id := by
  simpa using List.find?_some found

theorem mem_of_slot? (found : store.slot? id = some slot) : slot ∈ store.slots :=
  List.mem_of_find?_eq_some found

theorem contains_iff : store.contains id = true ↔ ∃ slot ∈ store.slots, slot.id = id := by
  simp [contains, slot?]

theorem contains_iff_ids : store.contains id = true ↔ id ∈ idsOf store.places := by
  rw [contains_iff, ← ids_eq, List.mem_map]

theorem contains_of_mem (member : slot ∈ store.slots) : store.contains slot.id = true :=
  contains_iff.2 ⟨slot, member, rfl⟩

theorem contains_eq_isSome : store.contains id = (store.slot? id).isSome := rfl

theorem slot?_of_contains (there : store.contains id = true) :
    ∃ slot, store.slot? id = some slot :=
  Option.isSome_iff_exists.1 there

theorem slot?_eq_none (absent : store.contains id = false) : store.slot? id = none :=
  Option.not_isSome_iff_eq_none.1 (by rw [← contains_eq_isSome, absent]; exact Bool.false_ne_true)

theorem Placed.eq_of_id (placed : store.Placed) {first second : Slot}
    (member : first ∈ store.slots) (member' : second ∈ store.slots) (same : first.id = second.id) :
    first = second := by
  have nodup := placed.nodup
  rw [← ids_eq] at nodup
  exact List.inj_on_of_nodup_map nodup member member' same

theorem Placed.slot?_of_mem (placed : store.Placed) (member : slot ∈ store.slots) :
    store.slot? slot.id = some slot := by
  obtain ⟨other, found⟩ := slot?_of_contains (contains_of_mem member)
  rw [found, placed.eq_of_id (mem_of_slot? found) member (id_of_slot? found)]

theorem edges_of_slot? (found : store.slot? id = some slot) (edgeType : EdgeType) :
    store.edges id edgeType = slot.edges.get edgeType := by
  rw [edges, found]

theorem edges_of_absent (absent : store.contains id = false) (edgeType : EdgeType) :
    store.edges id edgeType = [] := by
  rw [edges, slot?_eq_none absent]

theorem Placed.edges_of_mem (placed : store.Placed) (member : slot ∈ store.slots)
    (edgeType : EdgeType) : store.edges slot.id edgeType = slot.edges.get edgeType :=
  edges_of_slot? (placed.slot?_of_mem member) edgeType

theorem get?_eq_some_iff (placed : store.Placed) {element : Element} :
    store.get? id = some element ↔ ∃ place ∈ store.places, place.1 = element ∧ element.id = id := by
  constructor
  · intro got
    obtain ⟨slot, found, rfl⟩ := Option.map_eq_some_iff.1 got
    exact ⟨slot.place, List.mem_map_of_mem (mem_of_slot? found), rfl, id_of_slot? found⟩
  · rintro ⟨place, member, rfl, rfl⟩
    obtain ⟨slot, inSlots, rfl⟩ := List.mem_map.1 member
    have found := placed.slot?_of_mem inSlots
    exact Option.map_eq_some_iff.2 ⟨slot, found, rfl⟩

/-- Stores with the same places in any order, the same edges and the same root are the same graph. -/
theorem same_of_edges {first second : Store} (sound : first.Sound) (sound' : second.Sound)
    (places : first.places.Perm second.places) (root : first.root = second.root)
    (edges : ∀ id edgeType, first.edges id edgeType = second.edges id edgeType) :
    first.same second = true := by
  have size : first.size = second.size := by
    rw [Store.size, Store.size, ← List.length_map Slot.place, ← List.length_map Slot.place]
    exact places.length_eq
  rw [same, root, size, Bool.and_eq_true, Bool.and_eq_true, List.all_eq_true]
  refine ⟨⟨decide_eq_true rfl, decide_eq_true rfl⟩, fun slot member => ?_⟩
  have placed : slot.place ∈ second.places := places.subset (List.mem_map_of_mem member)
  obtain ⟨other, member', same⟩ := List.mem_map.1 placed
  have element : other.element = slot.element := congrArg Prod.fst same
  have container : other.container = slot.container := congrArg Prod.snd same
  have id : other.id = slot.id := congrArg Element.id element
  have edge_maps : slot.edges = other.edges := by
    refine Multimap.eq_of_get (sound.sound slot member).edges_tight
      (sound'.sound other member').edges_tight EdgeType.eq_typeOf ?_
    rw [← sound.toPlaced.edges_of_mem member, ← sound'.toPlaced.edges_of_mem member', edges, id]
  rw [← id, sound'.toPlaced.slot?_of_mem member']
  simp only [Slot.same, element, container, edge_maps, decide_true, Bool.and_self]

/-! ## Changing edges leaves the places -/

/-- Presence is a matter of places. -/
theorem contains_of_subset {first second : Store} (more : first.places ⊆ second.places)
    (there : first.contains id = true) : second.contains id = true :=
  contains_iff_ids.2 (List.map_subset _ more (contains_iff_ids.1 there))

theorem contains_of_perm {first second : Store} (same : first.places.Perm second.places)
    (id : ElementId) : first.contains id = second.contains id :=
  Bool.eq_iff_iff.2 ⟨contains_of_subset same.subset, contains_of_subset same.symm.subset⟩

theorem contains_of_places {first second : Store} (same : first.places = second.places)
    (id : ElementId) : first.contains id = second.contains id :=
  contains_of_perm (.of_eq same) id

/-- What holds of places and children does not depend on edges. -/
theorem Placed.of_places {first second : Store} (placed : first.Placed)
    (places : second.places = first.places) (children : second.children = first.children) :
    second.Placed where
  nodup := places ▸ placed.nodup
  nested := places ▸ placed.nested
  children container := by
    rw [places, ← placed.children]
    exact congrArg (Multimap.get · container) children

theorem mem_modify {change : Slot → Slot} {slot' : Slot} :
    slot' ∈ (store.modify id change).slots ↔
      ∃ slot ∈ store.slots, (if slot.id = id then change slot else slot) = slot' := by
  simp [modify]

/-- Changing a slot changes what is found under its identity, and nothing else. -/
theorem slot?_modify (store : Store) (id : ElementId) (change : Slot → Slot)
    (keeps : ∀ slot, (change slot).id = slot.id) (other : ElementId) :
    (store.modify id change).slot? other =
      if other = id then (store.slot? id).map change else store.slot? other := by
  simp only [slot?, modify]
  induction store.slots with
  | nil => simp
  | cons slot slots ih =>
      simp only [List.map_cons, List.find?_cons, ih]
      by_cases here : slot.id = id <;> by_cases same : other = id <;>
        by_cases found : slot.id = other <;> simp_all

theorem places_modify (store : Store) (id : ElementId) (change : Slot → Slot)
    (keeps : ∀ slot, (change slot).place = slot.place) :
    (store.modify id change).places = store.places := by
  simp only [places, modify, List.map_map]
  refine List.map_congr_left fun slot _ => ?_
  simp only [Function.comp]
  split
  · exact keeps slot
  · rfl

/-! ## Links -/

/-- The destinations of an element's edges of a type beside their stamps. -/
def links (store : Store) (id : ElementId) (edgeType : EdgeType) : List (ElementId × EdgeStamp) :=
  match store.slot? id with
  | some slot => slot.links edgeType
  | none => []

theorem links_of_slot? (found : store.slot? id = some slot)
    (edgeType : EdgeType) : store.links id edgeType = slot.links edgeType := by
  rw [links, found]

theorem Linked.map_fst_links (linked : store.Linked) (id : ElementId) (edgeType : EdgeType) :
    (store.links id edgeType).map Prod.fst = store.edges id edgeType := by
  cases found : store.slot? id with
  | none => rw [links, edges, found]; rfl
  | some slot =>
      rw [links_of_slot? found, edges_of_slot? found]
      exact (linked.sound slot (mem_of_slot? found)).map_fst_links edgeType

theorem Linked.map_snd_links (linked : store.Linked) (id : ElementId) (edgeType : EdgeType) :
    (store.links id edgeType).map Prod.snd = store.edgeStamps id edgeType := by
  cases found : store.slot? id with
  | none => rw [links, edgeStamps, found]; rfl
  | some slot =>
      rw [links_of_slot? found, edgeStamps, found]
      exact (linked.sound slot (mem_of_slot? found)).map_snd_links edgeType

/-- Links are what the two reads give, side by side. -/
theorem zip_edges_edgeStamps (store : Store) (id : ElementId) (edgeType : EdgeType) :
    (store.edges id edgeType).zip (store.edgeStamps id edgeType) = store.links id edgeType := by
  rw [edges, edgeStamps, links]
  cases store.slot? id <;> rfl

theorem links_of_absent (absent : store.contains id = false) (edgeType : EdgeType) :
    store.links id edgeType = [] := by
  rw [links, slot?_eq_none absent]

/-- Stamps go up along the edges of an element. -/
theorem Linked.increasing (linked : store.Linked) (id : ElementId) (edgeType : EdgeType) :
    (store.edgeStamps id edgeType).Pairwise fun first second => first.number < second.number := by
  rw [edgeStamps]
  cases found : store.slot? id with
  | none => exact List.Pairwise.nil
  | some slot => exact (linked.sound slot (mem_of_slot? found)).increasing edgeType

theorem Linked.stamps_nodup (linked : store.Linked) (id : ElementId) (edgeType : EdgeType) :
    ((store.links id edgeType).map Prod.snd).Nodup := by
  cases found : store.slot? id with
  | none => rw [links, found]; exact List.nodup_nil
  | some slot =>
      rw [links_of_slot? found]
      exact (linked.sound slot (mem_of_slot? found)).links_nodup_stamps edgeType

theorem Linked.mem_links (linked : store.Linked) {edgeType : EdgeType}
    {link : ElementId × EdgeStamp} (there : link ∈ store.links id edgeType) :
    ∃ slot ∈ store.slots, slot.id = id ∧ link.2 ∈ slot.stamps.get edgeType := by
  cases found : store.slot? id with
  | none => simp [links, found] at there
  | some slot =>
      rw [links_of_slot? found] at there
      refine ⟨slot, mem_of_slot? found, id_of_slot? found, ?_⟩
      rw [← (linked.sound slot (mem_of_slot? found)).map_snd_links]
      exact List.mem_map_of_mem there

theorem Linked.links_below (linked : store.Linked) {edgeType : EdgeType}
    {link : ElementId × EdgeStamp} (there : link ∈ store.links id edgeType) :
    link.2.number < store.nextStamp := by
  obtain ⟨slot, member, -, inStamps⟩ := linked.mem_links there
  exact linked.below slot member edgeType link.2 inStamps

theorem Linked.links_apart (linked : store.Linked) {other : ElementId}
    {edgeType edgeType' : EdgeType} {link link' : ElementId × EdgeStamp}
    (there : link ∈ store.links id edgeType) (there' : link' ∈ store.links other edgeType')
    (same : link.2 = link'.2) : id = other ∧ edgeType = edgeType' := by
  obtain ⟨first, member, rfl, inFirst⟩ := linked.mem_links there
  obtain ⟨second, member', rfl, inSecond⟩ := linked.mem_links there'
  rw [← same] at inSecond
  exact linked.apart first member second member' edgeType edgeType' link.2 inFirst inSecond

end Store

end LanguageGraph
