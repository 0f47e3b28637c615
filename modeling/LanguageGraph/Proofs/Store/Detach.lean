/-
# Proofs.Store.Detach — taking out one element keeps a graph sound

Taking out an element that contains nothing removes its slot, filters every link to it out of the other
slots (`slots_without`), filters it out of its container's list (`childrenOf_without`), and removes its
entries from the index. The index is consulted to find the slots to filter, so `slots_without` needs
that the index is right.
-/
import LanguageGraph.Proofs.Store.Unlink

namespace LanguageGraph

set_option autoImplicit false

namespace Store

variable {store : Store} {slot : Slot}

/-! ## The index of incoming edges -/

/-- Forgetting the edges of one source takes each out as often as it is listed. -/
theorem count_forgetIncoming (id : ElementId) (edges : List (EdgeType × ElementId))
    (incoming : Multimap ElementId (ElementId × EdgeType)) (destination source : ElementId)
    (edgeType : EdgeType) :
    ((edges.foldl (fun incoming edge => forgetIncoming incoming id edge.1 edge.2) incoming).get
        destination).count (source, edgeType) =
      (incoming.get destination).count (source, edgeType) -
        if source = id then edges.count (edgeType, destination) else 0 := by
  induction edges generalizing incoming with
  | nil => simp
  | cons edge edges ih =>
      obtain ⟨edgeType', destination'⟩ := edge
      rw [List.foldl_cons, ih, forgetIncoming, Multimap.get_update, count_cons_ite]
      dsimp only
      by_cases mine : source = id
      · subst mine
        rw [if_pos rfl, if_pos rfl]
        by_cases here : destination = destination'
        · subst here
          rw [if_pos rfl, count_eraseLast]
          by_cases typed : edgeType = edgeType'
          · subst typed
            rw [if_pos rfl, if_pos rfl]
            omega
          · rw [if_neg fun pair => typed (Prod.mk.inj pair).2,
              if_neg fun pair => typed (Prod.mk.inj pair).1]
            omega
        · rw [if_neg here, if_neg fun pair => here (Prod.mk.inj pair).2]
          rfl
      · rw [if_neg mine, if_neg mine]
        split
        · rename_i here
          rw [here, count_eraseLast, if_neg fun pair => mine (Prod.mk.inj pair).1]
          rfl
        · rfl

/-- The index without an element's own edges. -/
def incomingBeside (store : Store) (slot : Slot) : Multimap ElementId (ElementId × EdgeType) :=
  slot.edges.pairs.foldl (fun incoming edge => forgetIncoming incoming slot.id edge.1 edge.2)
    store.incoming

theorem Sound.count_incomingBeside (sound : store.Sound) (member : slot ∈ store.slots)
    (destination source : ElementId) (edgeType : EdgeType) :
    ((store.incomingBeside slot).get destination).count (source, edgeType) =
      if source = slot.id then 0 else (store.edges source edgeType).count destination := by
  have counted := sound.incoming destination source edgeType
  rw [referrers] at counted
  rw [incomingBeside, count_forgetIncoming, counted, Multimap.count_pairs]
  split
  · rename_i mine
    rw [mine, sound.toPlaced.edges_of_mem member, Nat.sub_self]
  · rfl

/-- What the index lists for an element, besides itself, is what has an edge to it. -/
theorem Sound.mem_incomingBeside (sound : store.Sound) (member : slot ∈ store.slots)
    {destination source : ElementId} :
    source ∈ ((store.incomingBeside slot).get destination).map Prod.fst ↔
      source ≠ slot.id ∧ ∃ edgeType, destination ∈ store.edges source edgeType := by
  simp only [List.mem_map, Prod.exists, exists_and_right, exists_eq_right]
  rw [← exists_and_left]
  refine exists_congr fun edgeType => ?_
  rw [← List.count_pos_iff, sound.count_incomingBeside member]
  split
  · rename_i mine
    simp [mine]
  · rename_i other
    rw [List.count_pos_iff]
    simp [other]

/-! ## The slots and places that stay -/

theorem Sound.slots_without (sound : store.Sound) (member : slot ∈ store.slots) :
    (store.without slot).slots =
      (store.slots.filter fun other => other.id ≠ slot.id).map fun other =>
        other.dropEdgesTo slot.id := by
  show (store.slots.filter fun other => other.id ≠ slot.id).map (fun other =>
    if other.id ∈ ((store.incomingBeside slot).get slot.id).map Prod.fst then
      other.dropEdgesTo slot.id else other) = _
  refine List.map_congr_left fun other inOthers => ?_
  obtain ⟨old, unlike⟩ := List.mem_filter.1 inOthers
  split
  · rfl
  · rename_i unlisted
    refine (Slot.dropEdgesTo_of_not_mem (sound.sound other old) fun edgeType inEdges => ?_).symm
    refine unlisted ((sound.mem_incomingBeside member).2 ⟨of_decide_eq_true unlike, edgeType, ?_⟩)
    rwa [sound.toPlaced.edges_of_mem old]

theorem Sound.places_without (sound : store.Sound) (member : slot ∈ store.slots) :
    (store.without slot).places =
      store.places.filter fun place => place.1.id ≠ slot.id := by
  have unmoved : Slot.place ∘ (fun other => other.dropEdgesTo slot.id) = Slot.place :=
    funext fun other => other.place_dropEdgesTo slot.id
  rw [places, sound.slots_without member, List.map_map, unmoved, places, List.filter_map]
  rfl

theorem Sound.contains_without (sound : store.Sound) (member : slot ∈ store.slots)
    (other : ElementId) :
    (store.without slot).contains other = (store.contains other && decide (other ≠ slot.id)) := by
  rw [Bool.eq_iff_iff, Bool.and_eq_true, decide_eq_true_iff, contains_iff_ids, contains_iff_ids,
    sound.places_without member]
  simp only [idsOf, List.mem_map, List.mem_filter, decide_eq_true_iff]
  constructor
  · rintro ⟨place, ⟨old, unlike⟩, rfl⟩
    exact ⟨⟨place, old, rfl⟩, unlike⟩
  · rintro ⟨⟨place, old, rfl⟩, unlike⟩
    exact ⟨place, ⟨old, unlike⟩, rfl⟩

theorem Sound.slot?_without (sound : store.Sound) (member : slot ∈ store.slots)
    (other : ElementId) :
    (store.without slot).slot? other =
      if other = slot.id then none
      else (store.slot? other).map fun found => found.dropEdgesTo slot.id := by
  rw [slot?, sound.slots_without member, List.find?_map, List.find?_filter]
  split
  · rename_i gone
    subst gone
    rw [Option.map_eq_none_iff, List.find?_eq_none]
    intro found _ both
    obtain ⟨unlike, same⟩ := of_decide_eq_true both
    rw [Function.comp_apply, Slot.id_dropEdgesTo] at same
    exact of_decide_eq_true unlike (of_decide_eq_true same)
  · rename_i stays
    congr 2
    funext found
    simp only [Function.comp, Slot.id_dropEdgesTo]
    by_cases here : found.id = other
    · simp [here, stays]
    · simp [here]

theorem Sound.edges_without (sound : store.Sound) (member : slot ∈ store.slots)
    (other : ElementId) (edgeType : EdgeType) :
    (store.without slot).edges other edgeType =
      if other = slot.id then []
      else (store.edges other edgeType).filter fun destination => destination ≠ slot.id := by
  rw [edges, sound.slot?_without member]
  by_cases gone : other = slot.id
  · rw [if_pos gone, if_pos gone]
  · rw [if_neg gone, if_neg gone]
    cases found : store.slot? other with
    | none => simp [edges, found]
    | some slot' =>
        rw [edges_of_slot? found]
        exact Slot.edges_dropEdgesTo (sound.sound slot' (mem_of_slot? found)) slot.id edgeType

theorem Sound.links_without (sound : store.Sound) (member : slot ∈ store.slots)
    (other : ElementId) (edgeType : EdgeType) :
    (store.without slot).links other edgeType =
      if other = slot.id then []
      else (store.links other edgeType).filter fun link => link.1 ≠ slot.id := by
  rw [links, sound.slot?_without member]
  by_cases gone : other = slot.id
  · rw [if_pos gone, if_pos gone]
  · rw [if_neg gone, if_neg gone]
    cases found : store.slot? other with
    | none => simp [links, found]
    | some slot' =>
        rw [links_of_slot? found]
        exact Slot.links_dropEdgesTo (sound.sound slot' (mem_of_slot? found)) slot.id edgeType

/-! ## Children -/

theorem mem_heldBy {places : List (Element × Option ElementId)} {container child : ElementId} :
    child ∈ heldBy places container ↔
      ∃ place ∈ places, place.2 = some container ∧ place.1.id = child := by
  simp [heldBy, idsOf, and_assoc]

theorem heldBy_filter (places : List (Element × Option ElementId)) (container gone : ElementId) :
    heldBy (places.filter fun place => place.1.id ≠ gone) container =
      (heldBy places container).filter fun child => child ≠ gone := by
  simp only [heldBy, idsOf, List.filter_map, List.filter_filter, Function.comp_def, Bool.and_comm]

/-- Taking an element out visits the list of its container alone. -/
theorem childrenOf_without (store : Store) (slot : Slot) (container : ElementId) :
    (store.without slot).childrenOf container =
      if container = slot.id then []
      else if slot.container = some container then
        (store.childrenOf container).filter fun child => child ≠ slot.id
      else store.childrenOf container := by
  rw [childrenOf, Store.without, Multimap.get_erase]
  split
  · rfl
  · cases slot.container with
    | none => rfl
    | some holder =>
        show (store.children.update holder _).get container = _
        rw [Multimap.get_update]
        by_cases held : container = holder
        · rw [if_pos held, if_pos (congrArg some held.symm), held]
          rfl
        · rw [if_neg held, if_neg fun same => held (Option.some.inj same).symm]
          rfl

/-- An element that is taken out is no longer in any list of children. -/
theorem Placed.childrenOf_without (placed : store.Placed) (member : slot ∈ store.slots)
    (container : ElementId) :
    (store.without slot).childrenOf container =
      if container = slot.id then []
      else (store.childrenOf container).filter fun child => child ≠ slot.id := by
  rw [Store.childrenOf_without]
  by_cases held : slot.container = some container
  · rw [if_pos held]
  · rw [if_neg held]
    have unlisted : ∀ child ∈ store.childrenOf container, child ≠ slot.id := by
      intro child listed same
      rw [placed.children, mem_heldBy] at listed
      obtain ⟨place, inPlaces, holder, is⟩ := listed
      obtain ⟨other, old, rfl⟩ := List.mem_map.1 inPlaces
      obtain rfl := placed.eq_of_id old member (is.trans same)
      exact held holder
    rw [List.filter_eq_self.2 fun child listed => decide_eq_true (unlisted child listed)]

/-- Where elements are taken out that contain nothing, containers still stand first. -/
theorem Nested.filter {places : List (Element × Option ElementId)} (nested : Nested places)
    {gone : ElementId} (childless : heldBy places gone = []) :
    Nested (places.filter fun place => place.1.id ≠ gone) := by
  intro before element container after split
  obtain ⟨before', rest, rfl, rfl, tail⟩ := List.filter_eq_append_iff.1 split
  obtain ⟨passed, after', rfl, dropped, -, rfl⟩ := List.filter_eq_cons_iff.1 tail
  rw [← List.append_assoc] at nested childless
  obtain ⟨parent, inBefore, same, may⟩ := nested _ element container after' rfl
  have stays : parent.1.id ≠ gone := by
    intro is
    have held : element.id ∈ heldBy (before' ++ passed ++ (element, some container) :: after')
        gone :=
      mem_heldBy.2 ⟨(element, some container), by simp, by rw [← is, same], rfl⟩
    rw [childless] at held
    cases held
  refine ⟨parent, ?_, same, may⟩
  rcases List.mem_append.1 inBefore with early | late
  · exact List.mem_filter.2 ⟨early, decide_eq_true stays⟩
  · exact absurd (decide_eq_true stays) (dropped parent late)

/-! ## Soundness -/

theorem Sound.without (sound : store.Sound) (member : slot ∈ store.slots)
    (childless : store.childrenOf slot.id = []) : (store.without slot).Sound := by
  have held : heldBy store.places slot.id = [] := by rw [← sound.children, childless]
  refine ⟨⟨?_, ?_, fun container => ?_⟩, sound.toLinked.shrink rfl ?_ ?_⟩
  · rw [sound.places_without member]
    exact sound.nodup.sublist (List.filter_sublist.map _)
  · rw [sound.places_without member]
    exact sound.nested.filter held
  · rw [sound.toPlaced.childrenOf_without member, sound.places_without member, heldBy_filter,
      ← sound.children]
    split
    · rename_i gone
      rw [gone, childless]
      rfl
    · rfl
  · intro slot' inSlots
    rw [sound.slots_without member] at inSlots
    obtain ⟨other, inOthers, rfl⟩ := List.mem_map.1 inSlots
    obtain ⟨old, -⟩ := List.mem_filter.1 inOthers
    have inStep : other.Sound := sound.sound other old
    refine ⟨other, old, Slot.id_dropEdgesTo slot.id, inStep.dropEdgesTo slot.id, fun edgeType => ?_,
      fun edgeType destination inEdges => ?_⟩
    · rw [Slot.stamps_dropEdgesTo inStep, ← inStep.map_snd_links]
      exact List.map_subset _ (List.filter_sublist.subset)
    · rw [Slot.edges_dropEdgesTo inStep, List.mem_filter] at inEdges
      refine ⟨inEdges.1, fun present => ?_⟩
      rw [sound.contains_without member, present]
      exact inEdges.2
  · intro destination source edgeType
    show (((store.incomingBeside slot).erase slot.id).get destination).count (source, edgeType) = _
    rw [Multimap.get_erase, sound.edges_without member]
    by_cases mine : source = slot.id
    · rw [if_pos mine, List.count_nil]
      split
      · rfl
      · rw [sound.count_incomingBeside member, if_pos mine]
    · rw [if_neg mine]
      by_cases gone : destination = slot.id
      · rw [if_pos gone, gone, List.count_nil]
        exact (List.count_eq_zero_of_not_mem fun still => by simp at still).symm
      · rw [if_neg gone, sound.count_incomingBeside member, if_neg mine, List.count_filter]
        exact decide_eq_true gone

end Store

end LanguageGraph
