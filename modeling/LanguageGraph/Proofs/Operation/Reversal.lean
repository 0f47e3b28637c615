/-
# Proofs.Operation.Reversal — a graph after an addition was taken back

What an addition put at the end of each list is what taking it back takes out of it: an element with its
edges (`Added.restored_of_plucked`), or edges by their stamps (`Added.restored_of_stripped`). So the graph
is the one before, in every slot and in both indices; only the next stamp stays where the addition moved
it (`Restored`).

The addition is one graph, the taking back starts at another: in between, later additions came and went.
All that is asked of the second graph is that it is the first one `Restored`.
-/
import LanguageGraph.Proofs.Operation.Effect
import LanguageGraph.Proofs.Store.Dependents
import LanguageGraph.Proofs.Store.Root
import LanguageGraph.Proofs.Store.Stripping

namespace LanguageGraph

set_option autoImplicit false

namespace Store

/-- One store is another again, up to the next stamp. -/
structure Restored (store restored : Store) : Prop where
  slots : restored.slots = store.slots
  childrenOf : ∀ container, restored.childrenOf container = store.childrenOf container
  referrers : ∀ destination, restored.referrers destination = store.referrers destination
  root : restored.root = store.root

/-- Two stores answer every read in the same way. -/
structure ReadsAs (store other : Store) : Prop where
  elements : other.elements = store.elements
  get? : ∀ id, other.get? id = store.get? id
  contains : ∀ id, other.contains id = store.contains id
  edgeMap? : ∀ id, other.edgeMap? id = store.edgeMap? id
  edges : ∀ id edgeType, other.edges id edgeType = store.edges id edgeType
  edgeStamps : ∀ id edgeType, other.edgeStamps id edgeType = store.edgeStamps id edgeType
  referrers : ∀ id, other.referrers id = store.referrers id
  containerOf? : ∀ id, other.containerOf? id = store.containerOf? id
  childrenOf : ∀ id, other.childrenOf id = store.childrenOf id
  childrenOfKind : ∀ id kind, other.childrenOfKind id kind = store.childrenOfKind id kind
  root : other.root = store.root
  rootElement? : other.rootElement? = store.rootElement?
  orphans : other.orphans = store.orphans
  size : other.size = store.size
  edgeCount : other.edgeCount = store.edgeCount

variable {store restored : Store}

namespace Restored

theorem refl (store : Store) : Restored store store :=
  ⟨rfl, fun _ => rfl, fun _ => rfl, rfl⟩

theorem slot? (again : Restored store restored) (id : ElementId) :
    restored.slot? id = store.slot? id := by
  rw [Store.slot?, again.slots]
  rfl

theorem places (again : Restored store restored) : restored.places = store.places := by
  rw [Store.places, again.slots]
  rfl

theorem links (again : Restored store restored) (id : ElementId) (edgeType : EdgeType) :
    restored.links id edgeType = store.links id edgeType := by
  rw [Store.links, again.slot?]
  rfl

/-- Every read is made of slots, root and indices. -/
theorem readsAs (again : Restored store restored) : ReadsAs store restored := by
  have get? : restored.get? = store.get? := by
    funext id
    rw [Store.get?, again.slot?]
    rfl
  constructor
  · rw [elements, again.slots]
    rfl
  · exact congrFun get?
  · intro id
    rw [contains, again.slot?]
    rfl
  · intro id
    rw [edgeMap?, again.slot?]
    rfl
  · intro id edgeType
    rw [edges, again.slot?]
    rfl
  · intro id edgeType
    rw [edgeStamps, again.slot?]
    rfl
  · exact again.referrers
  · intro id
    rw [containerOf?, again.slot?]
    rfl
  · exact again.childrenOf
  · intro id kind
    rw [childrenOfKind, again.childrenOf, get?]
    rfl
  · exact again.root
  · rw [rootElement?, again.root, get?]
    rfl
  · rw [orphans, again.slots, again.root]
    rfl
  · rw [size, again.slots]
    rfl
  · rw [edgeCount, again.slots]
    rfl

theorem noDependents (again : Restored store restored) {id : ElementId}
    (free : store.NoDependents id) : restored.NoDependents id := by
  intro other unlike
  rw [again.readsAs.containerOf?]
  refine ⟨(free other unlike).1, fun edgeType => ?_⟩
  rw [again.readsAs.edges]
  exact (free other unlike).2 edgeType

theorem same (again : Restored store restored) (sound : store.Sound) (sound' : restored.Sound) :
    restored.same store = true :=
  same_of_edges sound' sound (.of_eq again.places) again.root again.readsAs.edges

end Restored

/-- A sound store is known from its places, its links, its root and the order of its referrers. -/
theorem Sound.restored_of_links (sound : store.Sound) (sound' : restored.Sound)
    (places : restored.places = store.places)
    (links : ∀ id edgeType, restored.links id edgeType = store.links id edgeType)
    (referrers : ∀ destination, restored.referrers destination = store.referrers destination)
    (root : restored.root = store.root) : Restored store restored where
  slots := by
    have length : restored.slots.length = store.slots.length := by
      rw [← List.length_map Slot.place, ← List.length_map Slot.place]
      exact congrArg List.length places
    apply List.ext_getElem length
    intro index bound' bound
    have member' : restored.slots[index] ∈ restored.slots := List.getElem_mem bound'
    have member : store.slots[index] ∈ store.slots := List.getElem_mem bound
    have place : restored.slots[index].place = store.slots[index].place := by
      have entries := congrArg (fun places => places[index]?) places
      simpa [Store.places, bound, bound'] using entries
    have same_id : restored.slots[index].id = store.slots[index].id :=
      congrArg (fun place => place.1.id) place
    apply Slot.ext_links (sound'.sound _ member') (sound.sound _ member)
      (congrArg Prod.fst place) (congrArg Prod.snd place)
    intro edgeType
    rw [← links_of_slot? (sound'.toPlaced.slot?_of_mem member'),
      ← links_of_slot? (sound.toPlaced.slot?_of_mem member), same_id, links]
  childrenOf container := by
    rw [sound'.toPlaced.children, sound.toPlaced.children, places]
  referrers := referrers
  root := root

/-! ## The order of referrers when edges go -/

/-- Removing listed edges by their stamps takes their entries out of the index one after the other. -/
theorem Sound.referrers_perform_removeStamped (sound : store.Sound) {source : ElementId}
    {listed : List ((EdgeType × ElementId) × EdgeStamp)} {final : Store}
    (done : store.perform (listed.map fun edge =>
      .removeStamped source edge.1.1 edge.1.2 edge.2) = (.ok (), final))
    (destination : ElementId) :
    final.referrers destination =
      eraseEach (referrersAmong destination (listed.map fun edge => (source, edge.1)))
        (store.referrers destination) := by
  induction listed generalizing store with
  | nil =>
      cases done
      rfl
  | cons edge listed ih =>
      obtain ⟨next, removed, rest⟩ := perform_cons_eq_ok_iff.1 done
      rw [ih (sound.removeStamped removed) rest]
      obtain ⟨index, -, rfl⟩ := (removeStamped_eq_ok_iff sound.toLinked).1 removed
      rw [referrers_unlinkAt, List.map_cons, referrersAmong_cons]
      split
      · rfl
      · rfl

end Store

namespace Operation

open Store

variable {operation : Operation} {store grown left final : Store}

/-- An operation that creates an element adds edges from that element only. -/
theorem source_of_addedEdges {place : Element × Option ElementId}
    (declared : operation.place? = some place) :
    ∀ edge ∈ operation.addedEdges, edge.1 = place.1.id := by
  cases operation with
  | root project =>
      intro edge none_added
      cases none_added
  | newElement element container edges =>
      intro edge added
      cases declared
      obtain ⟨_, _, rfl⟩ := List.mem_map.1 added
      rfl
  | newEdge source edges => cases declared
  | removeElement id cascade => cases declared
  | removeEdge source edges stamps => cases declared

/-! ## Elements -/

section Elements

variable {place : Element × Option ElementId}

/-- Nothing depends on an element that has just entered. -/
theorem Added.noDependents (added : Added operation store grown) (sound : store.Sound)
    (sound' : grown.Sound) (declared : operation.place? = some place)
    (absent : store.contains place.1.id = false) : grown.NoDependents place.1.id := by
  intro other unlike
  constructor
  · intro held
    obtain ⟨slot, found, holder⟩ := Option.bind_eq_some_iff.1 held
    have inPlaces : slot.place ∈ grown.places := List.mem_map_of_mem (mem_of_slot? found)
    rw [added.places, declared] at inPlaces
    rcases List.mem_append.1 inPlaces with old | new
    · -- The other element was there before, and so was its container.
      have held_before : store.containerOf? slot.place.1.id = some place.1.id :=
        (sound.toPlaced.containerOf?_of_mem old).trans holder
      have there := sound.indexed.container_present _ _ held_before
      rw [absent] at there
      cases there
    · have is : slot.place = place := List.mem_singleton.1 new
      apply unlike
      rw [← id_of_slot? found, ← is]
      rfl
  · intro edgeType refers
    have from_elsewhere : ∀ edge ∈ operation.addedEdges.zip
        (EdgeStamp.between store.nextStamp grown.nextStamp), edge.1.1 ≠ other := by
      intro edge inZip same
      have source := source_of_addedEdges declared edge.1 (List.of_mem_zip inZip).1
      exact unlike (same.symm.trans source)
    rw [← sound'.toLinked.map_fst_links, added.links, linksAmong_of_source_ne from_elsewhere,
      List.append_nil, sound.toLinked.map_fst_links] at refers
    have there := sound.indexed.destination_present other edgeType _ refers
    rw [absent] at there
    cases there

theorem Added.root_of_plucked (added : Added operation store grown) (rooted : store.Rooted)
    (rooted' : grown.Rooted) (declared : operation.place? = some place)
    (absent : store.contains place.1.id = false) :
    (if grown.root = some place.1.id then none else grown.root) = store.root := by
  have not_root : store.root ≠ some place.1.id := by
    intro is
    rw [rooted _ is] at absent
    cases absent
  rcases added.root with ⟨empty, -⟩ | unchanged
  · have no_root : store.root = none := by
      by_contra some_root
      obtain ⟨id, is⟩ := Option.ne_none_iff_exists'.1 some_root
      obtain ⟨slot, member, -⟩ := contains_iff.1 (rooted id is)
      rw [empty] at member
      cases member
    have only : ∀ id, grown.root = some id → id = place.1.id := by
      intro id is
      have there := contains_iff_ids.1 (rooted' id is)
      rw [added.places, Store.places, empty, declared] at there
      exact List.mem_singleton.1 there
    rw [no_root]
    split
    · rfl
    · rename_i other
      cases is : grown.root with
      | none => rfl
      | some id => exact absurd (is.trans (congrArg some (only id is))) other
  · rw [unchanged, if_neg not_root]

/-- Where an element came and nothing else, taking it out leaves nothing else. -/
theorem Added.restored_of_plucked (added : Added operation store grown) (sound : store.Sound)
    (rooted : store.Rooted) (rooted' : grown.Rooted) (declared : operation.place? = some place)
    (absent : store.contains place.1.id = false) (again : Restored grown left)
    (plucked : Plucked place.1.id left final) (sound' : final.Sound) : Restored store final := by
  have strangers : ∀ other ∈ store.places, decide (other.1.id ≠ place.1.id) = true := by
    intro other inPlaces
    apply decide_eq_true
    intro same
    have there := contains_iff_ids.2 (List.mem_map.2 ⟨other, inPlaces, same⟩)
    rw [absent] at there
    cases there
  apply sound.restored_of_links sound'
  · rw [plucked.places, again.places, added.places, declared, List.filter_append,
      List.filter_eq_self.2 strangers]
    simp
  · intro id edgeType
    rw [plucked.links]
    split
    · rename_i same
      rw [same, links_of_absent absent]
    · rename_i other
      have from_elsewhere : ∀ edge ∈ operation.addedEdges.zip
          (EdgeStamp.between store.nextStamp grown.nextStamp), edge.1.1 ≠ id := by
        intro edge inZip same
        exact other (same.symm.trans
          (source_of_addedEdges declared edge.1 (List.of_mem_zip inZip).1))
      rw [again.links, added.links, linksAmong_of_source_ne from_elsewhere, List.append_nil]
  · intro destination
    have old : ∀ edge ∈ store.referrers destination, decide (edge.1 ≠ place.1.id) = true := by
      rintro ⟨source, edgeType⟩ listed
      apply decide_eq_true
      rintro rfl
      have edge := sound.toLinked.mem_referrers_iff.1 listed
      rw [edges_of_absent absent] at edge
      cases edge
    have new : ∀ edge ∈ referrersAmong destination operation.addedEdges,
        ¬ decide (edge.1 ≠ place.1.id) = true := by
      intro edge listed stays
      obtain ⟨edge', chosen, rfl⟩ := List.mem_map.1 listed
      exact of_decide_eq_true stays
        (source_of_addedEdges declared edge' (List.mem_filter.1 chosen).1)
    rw [plucked.referrers, again.referrers, added.referrers, List.filter_append,
      List.filter_eq_self.2 old, List.filter_eq_nil_iff.2 new, List.append_nil]
  · rw [plucked.root, again.root]
    exact added.root_of_plucked rooted rooted' declared absent

end Elements

/-! ## Edges -/

/-- The stamps that an addition gives out are in the graph. -/
theorem Added.stamps_there (added : Added operation store grown) (sound' : grown.Sound)
    {stamp : EdgeStamp} (given : stamp ∈ EdgeStamp.between store.nextStamp grown.nextStamp) :
    ∃ id edgeType, stamp ∈ grown.edgeStamps id edgeType := by
  have length : (EdgeStamp.between store.nextStamp grown.nextStamp).length =
      operation.addedEdges.length := by
    rw [EdgeStamp.length_between, added.nextStamp, Nat.add_sub_cancel_left]
  have stamps := List.map_snd_zip (Nat.le_of_eq length)
  rw [← stamps] at given
  obtain ⟨⟨⟨id, edgeType, destination⟩, stamp⟩, inZip, rfl⟩ := List.mem_map.1 given
  refine ⟨id, edgeType, ?_⟩
  have link : (destination, stamp) ∈ grown.links id edgeType := by
    rw [added.links]
    exact List.mem_append_right _ (mem_linksAmong.2 inZip)
  rw [← sound'.toLinked.map_snd_links]
  exact List.mem_map_of_mem link

/-- Where edges came and nothing else, taking them out leaves nothing else. -/
theorem Added.restored_of_stripped (added : Added operation store grown) (sound : store.Sound)
    (filled : store.slots ≠ []) (unplaced : operation.place? = none) (again : Restored grown left)
    (stripped : Stripped (EdgeStamp.between store.nextStamp grown.nextStamp) left final)
    (referrers : ∀ destination, final.referrers destination =
      eraseEach (referrersAmong destination operation.addedEdges) (left.referrers destination))
    (sound' : final.Sound) : Restored store final := by
  apply sound.restored_of_links sound'
  · rw [stripped.places, again.places, added.places, unplaced]
    exact List.append_nil _
  · intro id edgeType
    have old : ∀ link ∈ store.links id edgeType,
        decide (link.2 ∉ EdgeStamp.between store.nextStamp grown.nextStamp) = true := by
      intro link there
      apply decide_eq_true
      intro new
      have below := sound.toLinked.links_below there
      exact absurd below (Nat.not_lt.2 (EdgeStamp.mem_between.1 new).1)
    have new : ∀ link ∈ linksAmong id edgeType
        (operation.addedEdges.zip (EdgeStamp.between store.nextStamp grown.nextStamp)),
        ¬ decide (link.2 ∉ EdgeStamp.between store.nextStamp grown.nextStamp) = true := by
      intro link there stays
      exact of_decide_eq_true stays (List.of_mem_zip (mem_linksAmong.1 there)).2
    rw [stripped.links, again.links, added.links, List.filter_append, List.filter_eq_self.2 old,
      List.filter_eq_nil_iff.2 new, List.append_nil]
  · intro destination
    rw [referrers, again.referrers, added.referrers]
    exact eraseEach_append_of_perm _ (List.Perm.refl _)
  · rw [stripped.root, again.root]
    exact added.root.resolve_left fun brought => filled brought.1

end Operation

end LanguageGraph
