/-
# Proofs.Store.Alike — graphs that are the same go on being the same

Two stores are compared element by element, with the edges of each; stamps, the order of creation and
both indices are left out (`Store.same`). Yet checks ask the indices, and a cascade goes down the lists of
children. In a sound store these say no more than elements and edges do, up to order, and order decides
nothing: what is asked is whether a list is empty or whether something stands in it.

So two stores that are the same (`Alike`) answer every read alike (`Alike.reads`), and a step is refused
by both for the same reason or leaves both alike (`Alike.step`). Only a step that names a stamp can tell
them apart.
-/
import LanguageGraph.Proofs.Store.Cascade

namespace LanguageGraph

set_option autoImplicit false

def Step.stamp? : Step → Option EdgeStamp
  | .removeStamped _ _ _ stamp => some stamp
  | _ => none

namespace Store

/-- Two stores with the same elements in the same containers, the same edges and the same root. -/
structure Alike (first second : Store) : Prop where
  places : first.places.Perm second.places
  edges : ∀ id edgeType, first.edges id edgeType = second.edges id edgeType
  root : first.root = second.root

/-- Two stores answer every read alike, lists in any order; those about stamps apart. -/
structure ReadsAlike (first second : Store) : Prop where
  get? : ∀ id, first.get? id = second.get? id
  contains : ∀ id, first.contains id = second.contains id
  containerOf? : ∀ id, first.containerOf? id = second.containerOf? id
  edges : ∀ id edgeType, first.edges id edgeType = second.edges id edgeType
  edgeMap? : ∀ id, first.edgeMap? id = second.edgeMap? id
  root : first.root = second.root
  rootElement? : first.rootElement? = second.rootElement?
  size : first.size = second.size
  edgeCount : first.edgeCount = second.edgeCount
  elements : first.elements.Perm second.elements
  childrenOf : ∀ id, (first.childrenOf id).Perm (second.childrenOf id)
  childrenOfKind : ∀ id kind, (first.childrenOfKind id kind).Perm (second.childrenOfKind id kind)
  orphans : first.orphans.Perm second.orphans
  referrers : ∀ id, (first.referrers id).Perm (second.referrers id)

variable {first second store : Store} {id : ElementId}

/-! ## What reads are made of -/

theorem orphans_eq_filter (store : Store) :
    store.orphans = (store.places.filter fun place =>
      place.2.isNone && store.root ≠ some place.1.id).map Prod.fst := by
  rw [orphans, places, List.filter_map, List.map_map]
  rfl

/-- A present element has a map of its edges, an absent one none. -/
theorem Placed.edgeMap?_of_mem (placed : store.Placed) {slot : Slot} (member : slot ∈ store.slots) :
    store.edgeMap? slot.id = some slot.edges := by
  rw [edgeMap?, placed.slot?_of_mem member]
  rfl

theorem Placed.edgeCount_eq (placed : store.Placed) :
    store.edgeCount = ((idsOf store.places).flatMap fun id =>
      ((store.edgeMap? id).elim [] Multimap.pairs)).length := by
  rw [edgeCount, ← ids_eq, List.flatMap_map]
  congr 1
  apply List.flatMap_congr
  intro slot member
  rw [placed.edgeMap?_of_mem member]
  rfl

theorem Placed.containerOf?_eq_some_iff (placed : store.Placed) {container : ElementId} :
    store.containerOf? id = some container ↔
      ∃ place ∈ store.places, place.2 = some container ∧ place.1.id = id := by
  rw [← mem_heldBy, ← placed.children]
  exact placed.mem_childrenOf_iff.symm

theorem checkRemoveEdge_eq (source : ElementId) (edgeType : EdgeType) (destination : ElementId) :
    store.checkRemoveEdge source edgeType destination =
      match store.edgeMap? source with
      | none => .error (.unknownElement source)
      | some edges =>
          if edges.contains edgeType destination then .ok ()
          else .error (.unknownEdge source edgeType destination) := by
  rw [checkRemoveEdge, edgeMap?]
  cases store.slot? source <;> rfl

/-! ## Being the same -/

/-- Stores are the same when each slot of the one has its like in the other. -/
theorem same_iff_slots :
    first.same second = true ↔ first.root = second.root ∧ first.size = second.size ∧
      ∀ slot ∈ first.slots, ∃ other, second.slot? slot.id = some other ∧
        other.place = slot.place ∧ other.edges = slot.edges := by
  have slot_same : ∀ slot other : Slot, slot.same other = true ↔
      other.place = slot.place ∧ other.edges = slot.edges := by
    intro slot other
    simp only [Slot.same, Slot.place, Bool.and_eq_true, decide_eq_true_iff, Prod.mk.injEq]
    simp only [eq_comm]
  simp only [same, Bool.and_eq_true, decide_eq_true_iff, List.all_eq_true, and_assoc]
  refine and_congr_right fun _ => and_congr_right fun _ => forall₂_congr fun slot _ => ?_
  cases second.slot? slot.id <;> simp [slot_same]

theorem Sound.alike_of_same (sound : first.Sound) (same : first.same second = true) :
    Alike first second := by
  obtain ⟨root, size, matched⟩ := same_iff_slots.1 same
  have subset : first.places ⊆ second.places := by
    intro place member
    obtain ⟨slot, inSlots, rfl⟩ := List.mem_map.1 member
    obtain ⟨other, found, is, -⟩ := matched slot inSlots
    rw [← is]
    exact List.mem_map_of_mem (mem_of_slot? found)
  have lengths : second.places.length ≤ first.places.length := by
    rw [Store.places, Store.places, List.length_map, List.length_map]
    exact Nat.le_of_eq size.symm
  have places : first.places.Perm second.places :=
    (List.subperm_of_subset (List.Nodup.of_map _ sound.nodup) subset).perm_of_length_le lengths
  refine ⟨places, ?_, root⟩
  intro id edgeType
  cases there : first.contains id with
  | true =>
      obtain ⟨slot, found⟩ := slot?_of_contains there
      obtain ⟨other, found', -, edges⟩ := matched slot (mem_of_slot? found)
      rw [id_of_slot? found] at found'
      rw [edges_of_slot? found, edges_of_slot? found', edges]
  | false =>
      have there' : second.contains id = false := (contains_of_perm places id).symm.trans there
      rw [edges_of_absent there, edges_of_absent there']

/-- Two sound stores are the same graph exactly when they are alike. -/
theorem Sound.same_iff_alike (sound : first.Sound) (sound' : second.Sound) :
    first.same second = true ↔ Alike first second :=
  ⟨sound.alike_of_same, fun alike =>
    same_of_edges sound sound' alike.places alike.root alike.edges⟩

namespace Alike

/-! ## Reads -/

theorem contains (alike : Alike first second) (id : ElementId) :
    first.contains id = second.contains id :=
  contains_of_perm alike.places id

theorem isEmpty (alike : Alike first second) : first.isEmpty = second.isEmpty := by
  rw [isEmpty_eq_places, isEmpty_eq_places, alike.places.isEmpty_eq]

theorem size (alike : Alike first second) : first.size = second.size := by
  rw [Store.size, Store.size, ← List.length_map Slot.place, ← List.length_map Slot.place]
  exact alike.places.length_eq

theorem get? (alike : Alike first second) (placed : first.Placed) (placed' : second.Placed)
    (id : ElementId) : first.get? id = second.get? id := by
  apply Option.ext
  intro element
  rw [get?_eq_some_iff placed, get?_eq_some_iff placed']
  simp only [alike.places.mem_iff]

theorem containerOf? (alike : Alike first second) (placed : first.Placed)
    (placed' : second.Placed) (id : ElementId) :
    first.containerOf? id = second.containerOf? id := by
  apply Option.ext
  intro container
  rw [placed.containerOf?_eq_some_iff, placed'.containerOf?_eq_some_iff]
  simp only [alike.places.mem_iff]

/-- There is one type of edge, so the lists of destinations make up the map of edges. -/
theorem edgeMap? (alike : Alike first second) (sound : first.Sound) (sound' : second.Sound)
    (id : ElementId) : first.edgeMap? id = second.edgeMap? id := by
  have there := alike.contains id
  cases found : first.slot? id with
  | none =>
      have absent : second.contains id = false := by
        rw [← there, Store.contains, found]
        rfl
      rw [Store.edgeMap?, Store.edgeMap?, found, slot?_eq_none absent]
  | some slot =>
      have present : second.contains id = true := by
        rw [← there, Store.contains, found]
        rfl
      obtain ⟨other, found'⟩ := slot?_of_contains present
      have same : slot.edges = other.edges := by
        apply Multimap.eq_of_get (sound.sound slot (mem_of_slot? found)).edges_tight
          (sound'.sound other (mem_of_slot? found')).edges_tight EdgeType.eq_typeOf
        rw [← edges_of_slot? found, ← edges_of_slot? found', alike.edges]
      rw [Store.edgeMap?, Store.edgeMap?, found, found', Option.map_some, Option.map_some, same]

theorem childrenOf (alike : Alike first second) (placed : first.Placed) (placed' : second.Placed)
    (id : ElementId) : (first.childrenOf id).Perm (second.childrenOf id) := by
  rw [placed.children, placed'.children]
  exact (alike.places.filter _).map _

theorem referrers (alike : Alike first second) (linked : first.Linked) (linked' : second.Linked)
    (id : ElementId) : (first.referrers id).Perm (second.referrers id) := by
  rw [List.perm_iff_count]
  rintro ⟨source, edgeType⟩
  rw [linked.incoming, linked'.incoming, alike.edges]

/-- Stores that are alike answer every read alike. -/
theorem reads (alike : Alike first second) (sound : first.Sound) (sound' : second.Sound) :
    ReadsAlike first second := by
  have got : first.get? = second.get? := funext (alike.get? sound.toPlaced sound'.toPlaced)
  have ids : (idsOf first.places).Perm (idsOf second.places) := alike.places.map _
  constructor
  · exact congrFun got
  · exact alike.contains
  · exact alike.containerOf? sound.toPlaced sound'.toPlaced
  · exact alike.edges
  · exact alike.edgeMap? sound sound'
  · exact alike.root
  · rw [rootElement?, rootElement?, alike.root, got]
  · exact alike.size
  · rw [sound.toPlaced.edgeCount_eq, sound'.toPlaced.edgeCount_eq,
      funext (alike.edgeMap? sound sound')]
    exact (ids.flatMap_right _).length_eq
  · rw [elements_eq_map, elements_eq_map]
    exact alike.places.map _
  · exact alike.childrenOf sound.toPlaced sound'.toPlaced
  · intro id kind
    rw [childrenOfKind, childrenOfKind, got]
    exact ((alike.childrenOf sound.toPlaced sound'.toPlaced id).filterMap _).filter _
  · rw [orphans_eq_filter, orphans_eq_filter, alike.root]
    exact (alike.places.filter _).map _
  · exact alike.referrers sound.toLinked sound'.toLinked

/-! ## Checks -/

theorem checkAdd (alike : Alike first second) (placed : first.Placed) (placed' : second.Placed)
    (element : Element) (container : Option ElementId) :
    first.checkAdd element container = second.checkAdd element container := by
  simp only [Store.checkAdd, alike.contains, alike.get? placed placed']

theorem checkEdge (alike : Alike first second) (source destination : ElementId) :
    first.checkEdge source destination = second.checkEdge source destination := by
  simp only [Store.checkEdge, alike.contains]

theorem checkRemoveEdge (alike : Alike first second) (sound : first.Sound) (sound' : second.Sound)
    (source : ElementId) (edgeType : EdgeType) (destination : ElementId) :
    first.checkRemoveEdge source edgeType destination =
      second.checkRemoveEdge source edgeType destination := by
  rw [checkRemoveEdge_eq, checkRemoveEdge_eq, alike.edgeMap? sound sound']

/-- The check asks both indices, but not for the order of what is in them. -/
theorem checkRemove (alike : Alike first second) (sound : first.Sound) (sound' : second.Sound)
    (id : ElementId) (cascade : Bool) :
    first.checkRemove id cascade = second.checkRemove id cascade := by
  have children := (alike.childrenOf sound.toPlaced sound'.toPlaced id).isEmpty_eq
  have referrers := (alike.referrers sound.toLinked sound'.toLinked id).all_eq
    (f := fun edge => decide (edge.1 = id))
  rw [Store.checkRemove, Store.checkRemove, alike.contains, children, referrers]

/-! ## Changes -/

theorem insert (alike : Alike first second) (element : Element) (container : Option ElementId) :
    Alike (first.insert element container) (second.insert element container) where
  places := by
    rw [places_insert, places_insert]
    exact alike.places.append_right _
  edges id edgeType := by rw [edges_insert, edges_insert, alike.edges]
  root := by
    show (if element.isRoot && container.isNone && first.root.isNone then some element.id
      else first.root) = _
    rw [alike.root]
    rfl

theorem link (alike : Alike first second) {source : ElementId}
    (there : first.contains source = true) (edgeType : EdgeType) (destination : ElementId) :
    Alike (first.link source edgeType destination) (second.link source edgeType destination) where
  places := by
    rw [places_link, places_link]
    exact alike.places
  edges id edgeType' := by
    have there' : second.contains source = true := (alike.contains source).symm.trans there
    rw [edges_link there, edges_link there', alike.edges]
  root := alike.root

theorem unlinkAt (alike : Alike first second) (source : ElementId) (edgeType : EdgeType)
    (destination : ElementId) (index : Nat) :
    Alike (first.unlinkAt source edgeType destination index)
      (second.unlinkAt source edgeType destination index) where
  places := by
    rw [places_unlinkAt, places_unlinkAt]
    exact alike.places
  edges id edgeType' := by rw [edges_unlinkAt, edges_unlinkAt, alike.edges, alike.edges]
  root := alike.root

/-- Without the same elements both are alike. -/
theorem cleared (alike : Alike first second) (sound : first.Sound) (sound' : second.Sound)
    {gone : List ElementId} {left left' : Store} (out : Cleared gone first left)
    (out' : Cleared gone second left') (linked : left.Linked) (linked' : left'.Linked) :
    Alike left left' where
  places := by
    rw [out.places, out'.places]
    exact alike.places.filter _
  edges id edgeType := by
    rw [out.edges sound.toLinked linked, out'.edges sound'.toLinked linked', alike.edges]
  root := by rw [out.root, out'.root, alike.root]

/-- The same elements lie in an element, however its children are listed. -/
theorem mem_contents_iff (alike : Alike first second) (placed : first.Placed)
    (placed' : second.Placed) (there : first.contains id = true) (other : ElementId) :
    other ∈ first.contents id ↔ other ∈ second.contents id := by
  have there' : second.contains id = true := (alike.contains id).symm.trans there
  have held : first.LiesIn = second.LiesIn := by
    funext child container
    rw [LiesIn, LiesIn, alike.containerOf? placed placed']
  rw [placed.mem_contents_iff there, placed'.mem_contents_iff there', held]

theorem detachAll (alike : Alike first second) (sound : first.Sound) (sound' : second.Sound)
    (there : first.contains id = true) :
    Alike (Store.detachAll (first.contents id) first).2
      (Store.detachAll (second.contents id) second).2 := by
  have placed := sound.toPlaced
  have placed' := sound'.toPlaced
  have there' : second.contains id = true := (alike.contains id).symm.trans there
  have out := (sound.cleared_contents there).congr (alike.mem_contents_iff placed placed' there)
  have out' := sound'.cleared_contents there'
  exact alike.cleared sound sound' out out'
    (sound.detachAll (placed.childrenFirst_contents there)).toLinked
    (sound'.detachAll (placed'.childrenFirst_contents there')).toLinked

/-! ## Steps -/

/-- A step that names no stamp is refused by both for the same reason, or leaves both alike. -/
theorem step (alike : Alike first second) (sound : first.Sound) (sound' : second.Sound)
    {step : Step} (unstamped : step.stamp? = none) :
    (∃ refusal, first.step step = .error refusal ∧ second.step step = .error refusal) ∨
      ∃ next next', first.step step = .ok next ∧ second.step step = .ok next' ∧
        Alike next next' := by
  cases step with
  | add element container =>
      rw [Store.step, Store.step, add, add, alike.checkAdd sound.toPlaced sound'.toPlaced]
      cases second.checkAdd element container with
      | error refusal => exact .inl ⟨refusal, rfl, rfl⟩
      | ok _ => exact .inr ⟨_, _, rfl, rfl, alike.insert element container⟩
  | addEdge source edgeType destination =>
      rw [Store.step, Store.step, addEdge, addEdge, ← alike.checkEdge]
      cases checked : first.checkEdge source destination with
      | error refusal => exact .inl ⟨refusal, rfl, rfl⟩
      | ok _ =>
          have there := (checkEdge_eq_ok_iff.1 checked).1
          exact .inr ⟨_, _, rfl, rfl, alike.link there edgeType destination⟩
  | removeEdge source edgeType destination =>
      rw [Store.step, Store.step, removeEdge, removeEdge, alike.checkRemoveEdge sound sound',
        alike.edges]
      cases second.checkRemoveEdge source edgeType destination with
      | error refusal => exact .inl ⟨refusal, rfl, rfl⟩
      | ok _ =>
          cases lastIndexOf? destination (second.edges source edgeType) with
          | none => exact .inr ⟨_, _, rfl, rfl, alike⟩
          | some index => exact .inr ⟨_, _, rfl, rfl, alike.unlinkAt source edgeType destination index⟩
  | removeStamped source edgeType destination stamp => cases unstamped
  | remove id cascade =>
      rw [Store.step, Store.step, remove, remove, ← alike.checkRemove sound sound']
      cases checked : first.checkRemove id cascade with
      | error refusal => exact .inl ⟨refusal, rfl, rfl⟩
      | ok _ =>
          have there := checkRemove_contains checked
          exact .inr ⟨_, _, rfl, rfl, alike.detachAll sound sound' there⟩

/-- Steps that name no stamps stop at the same refusal, or do not stop, and leave both alike. -/
theorem perform (alike : Alike first second) (sound : first.Sound) (sound' : second.Sound)
    {steps : List Step} (unstamped : ∀ step ∈ steps, step.stamp? = none) :
    (first.perform steps).1 = (second.perform steps).1 ∧
      Alike (first.perform steps).2 (second.perform steps).2 := by
  induction steps generalizing first second with
  | nil => exact ⟨rfl, alike⟩
  | cons step steps ih =>
      rw [List.forall_mem_cons] at unstamped
      unfold Store.perform
      rcases alike.step sound sound' unstamped.1 with
        ⟨refusal, refused, refused'⟩ | ⟨next, next', done, done', still⟩
      · rw [refused, refused']
        exact ⟨rfl, alike⟩
      · rw [done, done']
        exact ih still (sound.step done) (sound'.step done') unstamped.2

end Alike

end Store

end LanguageGraph
