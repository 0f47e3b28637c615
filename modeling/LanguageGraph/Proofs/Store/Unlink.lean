/-
# Proofs.Store.Unlink — removing one edge keeps a graph sound

Removing the latest of equal edges and removing the edge with a stamp both drop one position of one
source (`removeEdge_eq_ok_iff`, `removeStamped_eq_ok_iff`); they differ in which one. Wherever an edge
to the destination stands, dropping its position there and the latest of equal entries in the index
keeps both in agreement, because the index is compared as a multiset (`Sound.unlinkAt`).
-/
import LanguageGraph.Proofs.Store.Invariant
import LanguageGraph.Store.Removal

namespace LanguageGraph

set_option autoImplicit false

namespace Slot

variable {slot : Slot}

theorem stampIndex?_eq_some_iff (sound : slot.Sound) {edgeType : EdgeType} {stamp : EdgeStamp}
    {index : Nat} :
    slot.stampIndex? edgeType stamp = some index ↔
      (slot.stamps.get edgeType)[index]? = some stamp := by
  rw [stampIndex?, List.findIdx?_eq_some_iff_getElem, List.getElem?_eq_some_iff]
  constructor
  · rintro ⟨bound, here, -⟩
    exact ⟨bound, of_decide_eq_true here⟩
  · rintro ⟨bound, here⟩
    refine ⟨bound, decide_eq_true here, fun earlier less same => ?_⟩
    have twice := of_decide_eq_true same
    rw [← here] at twice
    have := (sound.stamps_nodup edgeType).getElem_inj_iff.1 twice
    omega

theorem getElem?_links {edgeType : EdgeType} {index : Nat} {destination : ElementId}
    {stamp : EdgeStamp} :
    (slot.links edgeType)[index]? = some (destination, stamp) ↔
      (slot.edges.get edgeType)[index]? = some destination ∧
        (slot.stamps.get edgeType)[index]? = some stamp :=
  List.getElem?_zip_eq_some

/-- The edge with a stamp goes to a destination when the two stand side by side. -/
theorem stampedDestination?_eq_some_iff (sound : slot.Sound) {edgeType : EdgeType}
    {stamp : EdgeStamp} {destination : ElementId} :
    slot.stampedDestination? edgeType stamp = some destination ↔
      (destination, stamp) ∈ slot.links edgeType := by
  rw [stampedDestination?, Option.bind_eq_some_iff, List.mem_iff_getElem?]
  refine exists_congr fun index => ?_
  rw [stampIndex?_eq_some_iff sound, getElem?_links, and_comm]

end Slot

namespace Store

variable {store : Store} {source : ElementId} {edgeType : EdgeType} {destination : ElementId}

/-! ## What the checks say -/

theorem checkRemoveEdge_eq_ok_iff :
    store.checkRemoveEdge source edgeType destination = .ok () ↔
      destination ∈ store.edges source edgeType := by
  cases found : store.slot? source with
  | none => simp [checkRemoveEdge, edges, found]
  | some slot => simp [checkRemoveEdge, edges, found, Multimap.contains]

theorem checkRemoveStamped_eq_ok_iff (linked : store.Linked) {stamp : EdgeStamp} :
    store.checkRemoveStamped source edgeType destination stamp = .ok () ↔
      (destination, stamp) ∈ store.links source edgeType := by
  cases found : store.slot? source with
  | none => simp [checkRemoveStamped, links, found]
  | some slot =>
      rw [links_of_slot? found,
        ← Slot.stampedDestination?_eq_some_iff (linked.sound slot (mem_of_slot? found))]
      simp [checkRemoveStamped, found]

theorem removeEdge_eq_ok_iff {next : Store} :
    store.removeEdge source edgeType destination = .ok next ↔
      ∃ index, lastIndexOf? destination (store.edges source edgeType) = some index ∧
        store.unlinkAt source edgeType destination index = next := by
  have check : store.checkRemoveEdge source edgeType destination = .ok () ↔
      destination ∈ store.edges source edgeType := checkRemoveEdge_eq_ok_iff
  unfold removeEdge
  cases checked : store.checkRemoveEdge source edgeType destination with
  | error refusal =>
      have missing : destination ∉ store.edges source edgeType := by
        intro member
        rw [check.2 member] at checked
        cases checked
      simp [lastIndexOf?_eq_none_iff.2 missing]
  | ok _ =>
      obtain ⟨index, found⟩ := exists_lastIndexOf? (check.1 checked)
      simp [found]

theorem removeStamped_eq_ok_iff (linked : store.Linked) {stamp : EdgeStamp} {next : Store} :
    store.removeStamped source edgeType destination stamp = .ok next ↔
      ∃ index, (store.links source edgeType)[index]? = some (destination, stamp) ∧
        store.unlinkAt source edgeType destination index = next := by
  unfold removeStamped
  cases checked : store.checkRemoveStamped source edgeType destination stamp with
  | error refusal =>
      have missing : (destination, stamp) ∉ store.links source edgeType := by
        intro member
        rw [(checkRemoveStamped_eq_ok_iff linked).2 member] at checked
        cases checked
      simp only [reduceCtorEq, false_iff]
      rintro ⟨index, here, -⟩
      exact missing (List.mem_of_getElem? here)
  | ok _ =>
      have member := (checkRemoveStamped_eq_ok_iff linked).1 checked
      obtain ⟨index, here⟩ := List.mem_iff_getElem?.1 member
      cases found : store.slot? source with
      | none => simp [links, found] at member
      | some slot =>
          have sound := linked.sound slot (mem_of_slot? found)
          rw [links_of_slot? found] at here ⊢
          have position : slot.stampIndex? edgeType stamp = some index :=
            (Slot.stampIndex?_eq_some_iff sound).2 (Slot.getElem?_links.1 here).2
          simp only [Option.bind_some, position, Except.ok.injEq]
          constructor
          · rintro rfl
            exact ⟨index, here, rfl⟩
          · rintro ⟨other, there, rfl⟩
            have same := (Slot.stampIndex?_eq_some_iff sound).2 (Slot.getElem?_links.1 there).2
            rw [position] at same
            cases same
            rfl

/-! ## What dropping a position does -/

theorem places_unlinkAt (store : Store) (source : ElementId) (edgeType : EdgeType)
    (destination : ElementId) (index : Nat) :
    (store.unlinkAt source edgeType destination index).places = store.places :=
  places_modify store source (fun slot => slot.removeEdgeAt edgeType index) fun _ => rfl

theorem contains_unlinkAt (store : Store) (source : ElementId) (edgeType : EdgeType)
    (destination : ElementId) (index : Nat) (other : ElementId) :
    (store.unlinkAt source edgeType destination index).contains other = store.contains other :=
  contains_of_places (places_unlinkAt store source edgeType destination index) other

theorem slot?_unlinkAt (store : Store) (source : ElementId) (edgeType : EdgeType)
    (destination : ElementId) (index : Nat) (other : ElementId) :
    (store.unlinkAt source edgeType destination index).slot? other =
      if other = source then
        (store.slot? source).map fun slot => slot.removeEdgeAt edgeType index
      else store.slot? other :=
  slot?_modify store source (fun slot => slot.removeEdgeAt edgeType index) (fun _ => rfl) other

theorem edges_unlinkAt (store : Store) (source : ElementId) (edgeType : EdgeType)
    (destination : ElementId) (index : Nat) (other : ElementId) (edgeType' : EdgeType) :
    (store.unlinkAt source edgeType destination index).edges other edgeType' =
      if other = source ∧ edgeType' = edgeType then (store.edges source edgeType).eraseIdx index
      else store.edges other edgeType' := by
  by_cases same : other = source
  · subst same
    rw [edges, slot?_unlinkAt, if_pos rfl]
    cases found : store.slot? other with
    | none => simp [edges, found]
    | some slot =>
        show (slot.edges.removeAt edgeType index).get edgeType' = _
        rw [Multimap.get_removeAt, edges_of_slot? found]
        by_cases typed : edgeType' = edgeType
        · rw [if_pos typed, if_pos ⟨rfl, typed⟩]
        · rw [if_neg typed, if_neg fun both => typed both.2]
  · rw [edges, slot?_unlinkAt, if_neg same, if_neg fun both => same both.1]
    rfl

theorem Linked.links_unlinkAt (linked : store.Linked) (source : ElementId) (edgeType : EdgeType)
    (destination : ElementId) (index : Nat) (other : ElementId) (edgeType' : EdgeType) :
    (store.unlinkAt source edgeType destination index).links other edgeType' =
      if other = source ∧ edgeType' = edgeType then (store.links source edgeType).eraseIdx index
      else store.links other edgeType' := by
  by_cases same : other = source
  · subst same
    rw [links, slot?_unlinkAt, if_pos rfl]
    cases found : store.slot? other with
    | none => simp [links, found]
    | some slot =>
        show (slot.removeEdgeAt edgeType index).links edgeType' = _
        rw [Slot.links_removeEdgeAt (linked.sound slot (mem_of_slot? found)),
          links_of_slot? found]
        by_cases typed : edgeType' = edgeType
        · rw [if_pos typed, if_pos ⟨rfl, typed⟩]
        · rw [if_neg typed, if_neg fun both => typed both.2]
  · rw [links, slot?_unlinkAt, if_neg same, if_neg fun both => same both.1]
    rfl

/-- To drop the position of a stamp is to drop the stamp, everywhere. -/
theorem Linked.links_unlinkAt_eq_filter (linked : store.Linked) {stamp : EdgeStamp} {index : Nat}
    (here : (store.links source edgeType)[index]? = some (destination, stamp)) (other : ElementId)
    (edgeType' : EdgeType) :
    (store.unlinkAt source edgeType destination index).links other edgeType' =
      (store.links other edgeType').filter fun link => link.2 ≠ stamp := by
  rw [linked.links_unlinkAt]
  split
  · rename_i same
    obtain ⟨rfl, typed⟩ := same
    obtain ⟨before, after, whole, rfl⟩ := split_of_getElem? here
    have nodup := linked.stamps_nodup other edgeType
    rw [whole, List.map_append, List.map_cons, List.nodup_middle, List.nodup_cons,
      List.mem_append] at nodup
    have stays : (before ++ after).filter (fun link => link.2 ≠ stamp) = before ++ after := by
      refine List.filter_eq_self.2 fun link member => decide_eq_true fun same => nodup.1 ?_
      have inStamps : link.2 ∈ (before ++ after).map Prod.snd := List.mem_map_of_mem member
      rwa [List.map_append, List.mem_append, same] at inStamps
    have goes : ¬ decide ((destination, stamp).2 ≠ stamp) = true := by simp
    rw [typed, whole, eraseIdx_split, ← stays, List.filter_append, List.filter_append,
      List.filter_cons, if_neg goes]
  · rename_i elsewhere
    have stays : (store.links other edgeType').filter (fun link => link.2 ≠ stamp) =
        store.links other edgeType' := by
      refine List.filter_eq_self.2 fun link there => decide_eq_true fun same => elsewhere ?_
      exact linked.links_apart there (List.mem_of_getElem? here) same
    rw [stays]

/-! ## Soundness -/

/-- Taking edges away leaves the edges in order, when the index still agrees. -/
theorem Linked.shrink (linked : store.Linked) {next : Store}
    (nextStamp : next.nextStamp = store.nextStamp)
    (from_old : ∀ slot' ∈ next.slots, ∃ slot ∈ store.slots, slot'.id = slot.id ∧ slot'.Sound ∧
      (∀ edgeType, slot'.stamps.get edgeType ⊆ slot.stamps.get edgeType) ∧
      ∀ edgeType, ∀ destination ∈ slot'.edges.get edgeType,
        destination ∈ slot.edges.get edgeType ∧
          (store.contains destination = true → next.contains destination = true))
    (incoming : ∀ destination source edgeType,
      (next.referrers destination).count (source, edgeType) =
        (next.edges source edgeType).count destination) :
    next.Linked := by
  constructor
  · intro slot' member
    obtain ⟨-, -, -, sound, -, -⟩ := from_old slot' member
    exact sound
  · intro slot' member edgeType stamp inStamps
    obtain ⟨slot, old, -, -, stamps, -⟩ := from_old slot' member
    rw [nextStamp]
    exact linked.below slot old edgeType stamp (stamps edgeType inStamps)
  · intro first member second member' edgeType edgeType' stamp inFirst inSecond
    obtain ⟨slot, old, same, -, stamps, -⟩ := from_old first member
    obtain ⟨slot', old', same', -, stamps', -⟩ := from_old second member'
    rw [same, same']
    exact linked.apart slot old slot' old' edgeType edgeType' stamp (stamps edgeType inFirst)
      (stamps' edgeType' inSecond)
  · intro slot' member edgeType destination inEdges
    obtain ⟨slot, old, -, -, -, edges⟩ := from_old slot' member
    obtain ⟨inOld, stays⟩ := edges edgeType destination inEdges
    exact stays (linked.present slot old edgeType destination inOld)
  · exact incoming

theorem Linked.incoming_unlinkAt (linked : store.Linked) {index : Nat}
    (there : (store.edges source edgeType)[index]? = some destination)
    (destination' source' : ElementId) (edgeType' : EdgeType) :
    ((store.unlinkAt source edgeType destination index).referrers destination').count
        (source', edgeType') =
      ((store.unlinkAt source edgeType destination index).edges source' edgeType').count
        destination' := by
  show ((store.incoming.update destination (eraseLast (source, edgeType))).get destination').count
    (source', edgeType') = _
  rw [Multimap.get_update, edges_unlinkAt]
  by_cases here : destination' = destination
  · subst here
    rw [if_pos rfl, count_eraseLast]
    have counted := linked.incoming destination' source' edgeType'
    rw [referrers] at counted
    by_cases same : source' = source ∧ edgeType' = edgeType
    · obtain ⟨rfl, rfl⟩ := same
      rw [if_pos rfl, if_pos ⟨rfl, rfl⟩, count_eraseIdx there, if_pos rfl, counted]
    · have unlike : (source', edgeType') ≠ (source, edgeType) := by
        intro pair
        cases pair
        exact same ⟨rfl, rfl⟩
      rw [if_neg unlike, if_neg same, counted, Nat.sub_zero]
  · rw [if_neg here]
    have counted := linked.incoming destination' source' edgeType'
    rw [referrers] at counted
    rw [counted]
    split
    · rename_i same
      obtain ⟨rfl, rfl⟩ := same
      rw [count_eraseIdx there, if_neg here, Nat.sub_zero]
    · rfl

theorem Sound.unlinkAt (sound : store.Sound) {index : Nat}
    (there : (store.edges source edgeType)[index]? = some destination) :
    (store.unlinkAt source edgeType destination index).Sound := by
  refine ⟨sound.toPlaced.of_places (places_unlinkAt store source edgeType destination index) rfl,
    sound.toLinked.shrink rfl ?_ (sound.toLinked.incoming_unlinkAt there)⟩
  intro slot' member
  obtain ⟨slot, old, rfl⟩ := mem_modify.1 member
  have slot_sound := sound.toLinked.sound slot old
  have stays : ∀ destination', store.contains destination' = true →
      (store.unlinkAt source edgeType destination index).contains destination' = true := by
    intro destination' present
    rwa [contains_unlinkAt]
  refine ⟨slot, old, ?_⟩
  split
  · refine ⟨rfl, slot_sound.removeEdgeAt edgeType index, fun other => ?_,
      fun other destination' inEdges => ⟨?_, stays destination'⟩⟩
    · rw [Slot.removeEdgeAt, Multimap.get_removeAt]
      split
      · rename_i typed
        exact typed ▸ List.eraseIdx_subset
      · exact List.Subset.refl _
    · rw [Slot.removeEdgeAt, Multimap.get_removeAt] at inEdges
      split at inEdges
      · rename_i typed
        exact typed ▸ List.eraseIdx_subset inEdges
      · exact inEdges
  · exact ⟨rfl, slot_sound, fun _ => List.Subset.refl _,
      fun _ destination' inEdges => ⟨inEdges, stays destination'⟩⟩

theorem Sound.removeEdge (sound : store.Sound) {next : Store}
    (removed : store.removeEdge source edgeType destination = .ok next) : next.Sound := by
  obtain ⟨index, found, rfl⟩ := removeEdge_eq_ok_iff.1 removed
  exact sound.unlinkAt (getElem?_lastIndexOf? found)

theorem Sound.removeStamped (sound : store.Sound) {stamp : EdgeStamp} {next : Store}
    (removed : store.removeStamped source edgeType destination stamp = .ok next) : next.Sound := by
  obtain ⟨index, here, rfl⟩ := (removeStamped_eq_ok_iff sound.toLinked).1 removed
  refine sound.unlinkAt ?_
  rw [← sound.toLinked.map_fst_links, List.getElem?_map, here]
  rfl

end Store

end LanguageGraph
