/-
# Proofs.Store.Growth — adding keeps a graph sound

An element that passes its check stands behind everything else, and so behind its container
(`Sound.insert`). An edge that passes its check gets a stamp that no edge had before (`Sound.link`), and
both the list of its source and the index of its destination grow by it.
-/
import LanguageGraph.Proofs.Store.Invariant
import LanguageGraph.Store.Growth

namespace LanguageGraph

set_option autoImplicit false

namespace Store

variable {store : Store}

/-! ## Elements -/

theorem checkAdd_eq_ok_iff {element : Element} {container : Option ElementId} :
    store.checkAdd element container = .ok () ↔
      store.contains element.id = false ∧ ∀ containerId, container = some containerId →
        ∃ parent, store.get? containerId = some parent ∧
          parent.kind.canContain element.kind = true := by
  unfold checkAdd
  cases there : store.contains element.id with
  | true => simp
  | false =>
      cases container with
      | none => simp
      | some containerId =>
          cases got : store.get? containerId with
          | none => simp [got]
          | some parent =>
              by_cases may : parent.kind.canContain element.kind = true <;> simp [got, may]

theorem checkAdd_of_empty (empty : store.slots = []) (element : Element) :
    store.checkAdd element none = .ok () := by
  have absent : store.contains element.id = false := by
    rw [contains, slot?, empty]
    rfl
  refine checkAdd_eq_ok_iff.2 ⟨absent, ?_⟩
  intro container held
  cases held

theorem add_eq_ok_iff {element : Element} {container : Option ElementId} {next : Store} :
    store.add element container = .ok next ↔
      store.checkAdd element container = .ok () ∧ store.insert element container = next := by
  unfold add
  cases store.checkAdd element container <;> simp

theorem places_insert (store : Store) (element : Element) (container : Option ElementId) :
    (store.insert element container).places = store.places ++ [(element, container)] :=
  List.map_append

theorem slot?_insert (store : Store) (element : Element) (container : Option ElementId)
    (other : ElementId) :
    (store.insert element container).slot? other =
      (store.slot? other).or
        (if element.id = other then some (Slot.new element container) else none) := by
  simp only [slot?, insert, List.find?_append, List.find?_cons, List.find?_nil, Slot.id, Slot.new]
  by_cases same : element.id = other <;> simp [same]

theorem contains_insert (store : Store) (element : Element) (container : Option ElementId)
    (other : ElementId) :
    (store.insert element container).contains other =
      (store.contains other || decide (element.id = other)) := by
  simp only [contains, slot?_insert]
  cases store.slot? other <;> by_cases same : element.id = other <;> simp [same]

theorem edges_insert (element : Element) (container : Option ElementId) (other : ElementId)
    (edgeType : EdgeType) :
    (store.insert element container).edges other edgeType = store.edges other edgeType := by
  simp only [edges, slot?_insert]
  cases store.slot? other with
  | some slot => rfl
  | none => by_cases same : element.id = other <;> simp [same]

theorem links_insert (element : Element) (container : Option ElementId) (other : ElementId)
    (edgeType : EdgeType) :
    (store.insert element container).links other edgeType = store.links other edgeType := by
  simp only [links, slot?_insert]
  cases store.slot? other with
  | some slot => rfl
  | none => by_cases same : element.id = other <;> simp [same]

theorem childrenOf_insert (element : Element) (container : Option ElementId) (other : ElementId) :
    (store.insert element container).childrenOf other =
      store.childrenOf other ++ if container = some other then [element.id] else [] := by
  cases container with
  | none => simp [childrenOf, insert]
  | some containerId =>
      by_cases same : containerId = other
      · subst same; simp [childrenOf, insert]
      · simp [childrenOf, insert, same, Ne.symm same]

/-- What is added at the end needs its container before it. -/
theorem Nested.append {places : List (Element × Option ElementId)} (nested : Nested places)
    {element : Element} {container : Option ElementId}
    (fits : ∀ containerId, container = some containerId →
      ∃ parent ∈ places, parent.1.id = containerId ∧
        parent.1.kind.canContain element.kind = true) :
    Nested (places ++ [(element, container)]) := by
  intro before child containerId after split
  rcases split_concat split with ⟨rfl, last⟩ | ⟨between, rfl, -⟩
  · cases last
    exact fits containerId rfl
  · exact nested before child containerId between rfl

theorem Placed.insert (placed : store.Placed) {element : Element} {container : Option ElementId}
    (checked : store.checkAdd element container = .ok ()) :
    (store.insert element container).Placed := by
  obtain ⟨absent, fits⟩ := checkAdd_eq_ok_iff.1 checked
  constructor
  · rw [places_insert, idsOf_append]
    refine List.nodup_append.2 ⟨placed.nodup, List.nodup_singleton _, ?_⟩
    intro id member _ last same
    obtain rfl : id = element.id := same.trans (List.mem_singleton.1 last)
    rw [contains_iff_ids.2 member] at absent
    cases absent
  · rw [places_insert]
    refine placed.nested.append fun containerId is => ?_
    obtain ⟨parent, got, may⟩ := fits containerId is
    obtain ⟨place, member, rfl, same⟩ := (get?_eq_some_iff placed).1 got
    exact ⟨place, member, same, may⟩
  · intro other
    rw [childrenOf_insert, places_insert, heldBy_append, placed.children]
    congr 1
    by_cases same : container = some other <;> simp [heldBy, idsOf, same]

theorem Linked.insert (linked : store.Linked) (element : Element) (container : Option ElementId) :
    (store.insert element container).Linked := by
  have cases_on : ∀ slot ∈ (store.insert element container).slots,
      slot ∈ store.slots ∨ slot = Slot.new element container := by
    intro slot member
    exact (List.mem_append.1 member).imp_right List.mem_singleton.1
  constructor
  · intro slot member
    rcases cases_on slot member with old | rfl
    · exact linked.sound slot old
    · exact Slot.new_sound element container
  · intro slot member edgeType stamp inStamps
    rcases cases_on slot member with old | rfl
    · exact linked.below slot old edgeType stamp inStamps
    · cases inStamps
  · intro first member second member' edgeType edgeType' stamp inFirst inSecond
    rcases cases_on first member with old | rfl
    · rcases cases_on second member' with old' | rfl
      · exact linked.apart first old second old' edgeType edgeType' stamp inFirst inSecond
      · cases inSecond
    · cases inFirst
  · intro slot member edgeType destination inEdges
    rw [contains_insert, Bool.or_eq_true]
    rcases cases_on slot member with old | rfl
    · exact .inl (linked.present slot old edgeType destination inEdges)
    · cases inEdges
  · intro destination source edgeType
    rw [edges_insert]
    exact linked.incoming destination source edgeType

theorem Sound.insert (sound : store.Sound) {element : Element} {container : Option ElementId}
    (checked : store.checkAdd element container = .ok ()) :
    (store.insert element container).Sound :=
  ⟨sound.toPlaced.insert checked, sound.toLinked.insert element container⟩

/-! ## Edges -/

theorem checkEdge_eq_ok_iff {source destination : ElementId} :
    store.checkEdge source destination = .ok () ↔
      store.contains source = true ∧ store.contains destination = true := by
  unfold checkEdge
  cases store.contains source <;> cases store.contains destination <;> simp

theorem places_link (store : Store) (source : ElementId) (edgeType : EdgeType)
    (destination : ElementId) :
    (store.link source edgeType destination).places = store.places :=
  places_modify store source _ fun _ => rfl

theorem contains_link (store : Store) (source : ElementId) (edgeType : EdgeType)
    (destination other : ElementId) :
    (store.link source edgeType destination).contains other = store.contains other :=
  contains_of_places (places_link store source edgeType destination) other

theorem slot?_link (store : Store) (source : ElementId) (edgeType : EdgeType)
    (destination other : ElementId) :
    (store.link source edgeType destination).slot? other =
      if other = source then
        (store.slot? source).map fun slot => slot.pushEdge edgeType destination ⟨store.nextStamp⟩
      else store.slot? other :=
  slot?_modify store source (fun slot => slot.pushEdge edgeType destination ⟨store.nextStamp⟩)
    (fun _ => rfl) other

theorem edges_link {source : ElementId} (there : store.contains source = true)
    (edgeType : EdgeType) (destination other : ElementId) (edgeType' : EdgeType) :
    (store.link source edgeType destination).edges other edgeType' =
      store.edges other edgeType' ++
        if other = source ∧ edgeType' = edgeType then [destination] else [] := by
  obtain ⟨slot, found⟩ := slot?_of_contains there
  by_cases same : other = source
  · subst same
    rw [edges, slot?_link, if_pos rfl, found, edges_of_slot? found]
    show (slot.edges.push edgeType destination).get edgeType' = _
    rw [Multimap.get_push]
    by_cases typed : edgeType' = edgeType
    · rw [if_pos typed, if_pos ⟨rfl, typed⟩, typed]
    · rw [if_neg typed, if_neg fun both => typed both.2, List.append_nil]
  · rw [edges, slot?_link, if_neg same, if_neg fun both => same both.1, List.append_nil]
    rfl

theorem Linked.links_link (linked : store.Linked) {source : ElementId}
    (there : store.contains source = true) (edgeType : EdgeType)
    (destination other : ElementId) (edgeType' : EdgeType) :
    (store.link source edgeType destination).links other edgeType' =
      store.links other edgeType' ++
        if other = source ∧ edgeType' = edgeType then [(destination, ⟨store.nextStamp⟩)]
        else [] := by
  obtain ⟨slot, found⟩ := slot?_of_contains there
  by_cases same : other = source
  · subst same
    rw [links, slot?_link, if_pos rfl, found, links_of_slot? found]
    show (slot.pushEdge edgeType destination _).links edgeType' = _
    rw [Slot.links_pushEdge (linked.sound slot (mem_of_slot? found))]
    by_cases typed : edgeType' = edgeType
    · rw [if_pos typed, if_pos ⟨rfl, typed⟩, typed]
    · rw [if_neg typed, if_neg fun both => typed both.2, List.append_nil]
  · rw [links, slot?_link, if_neg same, if_neg fun both => same both.1, List.append_nil]
    rfl

/-- A slot after adding an edge is an old one, or the source with one edge more. -/
theorem mem_slots_link {source destination : ElementId} {edgeType : EdgeType} {slot' : Slot}
    (member : slot' ∈ (store.link source edgeType destination).slots) :
    ∃ slot ∈ store.slots, slot'.id = slot.id ∧
      (slot' = slot ∨
        slot.id = source ∧ slot' = slot.pushEdge edgeType destination ⟨store.nextStamp⟩) := by
  obtain ⟨slot, old, rfl⟩ := mem_modify.1 member
  refine ⟨slot, old, ?_⟩
  split
  · rename_i here
    exact ⟨rfl, .inr ⟨here, rfl⟩⟩
  · exact ⟨rfl, .inl rfl⟩

/-- A stamp after adding an edge is an old one of the same slot, or the next one at the source. -/
theorem mem_stamps_link {source destination : ElementId} {edgeType other : EdgeType} {slot' : Slot}
    {stamp : EdgeStamp} (member : slot' ∈ (store.link source edgeType destination).slots)
    (inStamps : stamp ∈ slot'.stamps.get other) :
    ∃ slot ∈ store.slots, slot'.id = slot.id ∧
      (stamp ∈ slot.stamps.get other ∨
        stamp = ⟨store.nextStamp⟩ ∧ slot.id = source ∧ other = edgeType) := by
  obtain ⟨slot, old, same, rfl | ⟨here, rfl⟩⟩ := mem_slots_link member
  · exact ⟨_, old, rfl, .inl inStamps⟩
  · refine ⟨slot, old, same, ?_⟩
    by_cases typed : other = edgeType
    · subst typed
      rw [Slot.pushEdge, Multimap.get_push, if_pos rfl, List.mem_append,
        List.mem_singleton] at inStamps
      exact inStamps.imp_right fun is => ⟨is, here, rfl⟩
    · rw [Slot.pushEdge, Multimap.get_push, if_neg typed] at inStamps
      exact .inl inStamps

theorem Linked.apart_link (linked : store.Linked) (source : ElementId) (edgeType : EdgeType)
    (destination : ElementId) :
    ∀ first ∈ (store.link source edgeType destination).slots,
      ∀ second ∈ (store.link source edgeType destination).slots, ∀ edgeType₁ edgeType₂ stamp,
        stamp ∈ first.stamps.get edgeType₁ → stamp ∈ second.stamps.get edgeType₂ →
          first.id = second.id ∧ edgeType₁ = edgeType₂ := by
  intro first member second member' edgeType₁ edgeType₂ stamp inFirst inSecond
  obtain ⟨old₁, inOld₁, same₁, is₁⟩ := mem_stamps_link member inFirst
  obtain ⟨old₂, inOld₂, same₂, is₂⟩ := mem_stamps_link member' inSecond
  rw [same₁, same₂]
  rcases is₁ with earlier₁ | ⟨rfl, here₁, rfl⟩ <;> rcases is₂ with earlier₂ | ⟨next, here₂, rfl⟩
  · exact linked.apart old₁ inOld₁ old₂ inOld₂ edgeType₁ edgeType₂ stamp earlier₁ earlier₂
  · subst next
    exact absurd (linked.below old₁ inOld₁ edgeType₁ _ earlier₁) (Nat.lt_irrefl _)
  · exact absurd (linked.below old₂ inOld₂ edgeType₂ _ earlier₂) (Nat.lt_irrefl _)
  · exact ⟨here₁.trans here₂.symm, rfl⟩

/-- The index of incoming edges grows by the edge that its source grows by. -/
theorem Linked.incoming_link (linked : store.Linked) {source : ElementId}
    (there : store.contains source = true) (edgeType : EdgeType)
    (destination destination' source' : ElementId) (edgeType' : EdgeType) :
    ((store.link source edgeType destination).referrers destination').count (source', edgeType') =
      ((store.link source edgeType destination).edges source' edgeType').count destination' := by
  show ((store.incoming.push destination (source, edgeType)).get destination').count _ = _
  rw [edges_link there, List.count_append, ← linked.incoming, Multimap.get_push]
  by_cases here : destination' = destination
  · subst here
    rw [if_pos rfl, List.count_append, referrers]
    congr 1
    by_cases same : source' = source ∧ edgeType' = edgeType
    · obtain ⟨rfl, rfl⟩ := same
      simp
    · have unlike : (source', edgeType') ∉ [(source, edgeType)] := by
        intro only
        cases List.mem_singleton.1 only
        exact same ⟨rfl, rfl⟩
      rw [if_neg same, List.count_eq_zero_of_not_mem unlike, List.count_nil]
  · have none_here : destination' ∉
        if source' = source ∧ edgeType' = edgeType then [destination] else [] := by
      split
      · exact fun only => here (List.mem_singleton.1 only)
      · exact List.not_mem_nil
    rw [if_neg here, List.count_eq_zero_of_not_mem none_here, Nat.add_zero]
    rfl

theorem Linked.link (linked : store.Linked) {source destination : ElementId}
    (checked : store.checkEdge source destination = .ok ()) (edgeType : EdgeType) :
    (store.link source edgeType destination).Linked := by
  obtain ⟨source_there, destination_there⟩ := checkEdge_eq_ok_iff.1 checked
  constructor
  · intro slot' member
    obtain ⟨slot, old, -, rfl | ⟨-, rfl⟩⟩ := mem_slots_link member
    · exact linked.sound _ old
    · exact (linked.sound slot old).pushEdge edgeType destination
        fun earlier inStamps => linked.below slot old edgeType earlier inStamps
  · intro slot' member other stamp inStamps
    show stamp.number < store.nextStamp + 1
    obtain ⟨slot, old, -, earlier | ⟨rfl, -, -⟩⟩ := mem_stamps_link member inStamps
    · have := linked.below slot old other stamp earlier
      omega
    · exact Nat.lt_succ_self _
  · exact linked.apart_link source edgeType destination
  · intro slot' member other destination' inEdges
    rw [contains_link]
    obtain ⟨slot, old, -, rfl | ⟨-, rfl⟩⟩ := mem_slots_link member
    · exact linked.present _ old other destination' inEdges
    · rw [Slot.pushEdge, Multimap.get_push] at inEdges
      split at inEdges
      · rcases List.mem_append.1 inEdges with earlier | last
        · exact linked.present slot old edgeType destination' earlier
        · rw [List.mem_singleton.1 last]
          exact destination_there
      · exact linked.present slot old other destination' inEdges
  · intro destination' source' edgeType'
    exact linked.incoming_link source_there edgeType destination destination' source' edgeType'

theorem Sound.link (sound : store.Sound) {source destination : ElementId}
    (checked : store.checkEdge source destination = .ok ()) (edgeType : EdgeType) :
    (store.link source edgeType destination).Sound :=
  ⟨sound.toPlaced.of_places (places_link store source edgeType destination) rfl,
    sound.toLinked.link checked edgeType⟩

end Store

end LanguageGraph
