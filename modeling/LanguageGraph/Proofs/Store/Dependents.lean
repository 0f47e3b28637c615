/-
# Proofs.Store.Dependents — removing an element on which nothing depends

An element is removed alone when no other element has it as its container or as the destination of an
edge. The check asks the two indices; since these agree with the elements, it refuses in no other case
(`Sound.checkRemove_alone_iff`). Edges of the element to itself do not count.

What is left is the graph without the slot of that element (`Plucked`): no other slot changes, for none
had anything to do with it.
-/
import LanguageGraph.Proofs.Store.Indices
import LanguageGraph.Proofs.Store.Referrers

namespace LanguageGraph

set_option autoImplicit false

namespace Store

/-- No other element has this one as its container or as the destination of an edge. -/
def NoDependents (store : Store) (id : ElementId) : Prop :=
  ∀ other, other ≠ id →
    store.containerOf? other ≠ some id ∧ ∀ edgeType, id ∉ store.edges other edgeType

/-- One store is another without one element; entries of that element are gone from the indices. -/
structure Plucked (id : ElementId) (store plucked : Store) : Prop where
  slots : plucked.slots = store.slots.filter fun slot => slot.id ≠ id
  childrenOf : ∀ container, plucked.childrenOf container =
    (store.childrenOf container).filter fun child => child ≠ id
  referrers : ∀ destination, plucked.referrers destination =
    (store.referrers destination).filter fun edge => edge.1 ≠ id
  root : plucked.root = if store.root = some id then none else store.root
  nextStamp : plucked.nextStamp = store.nextStamp

variable {store : Store} {id : ElementId}

/-! ## What the check says -/

theorem Placed.containerOf?_of_mem_childrenOf (placed : store.Placed) {container child : ElementId}
    (held : child ∈ store.childrenOf container) : store.containerOf? child = some container := by
  rw [placed.childrenOf_eq_scan] at held
  exact of_decide_eq_true (List.mem_filter.1 held).2

theorem Placed.childless_iff (placed : store.Placed) :
    store.childrenOf id = [] ↔ ∀ other, other ≠ id → store.containerOf? other ≠ some id := by
  constructor
  · intro childless other _ held
    have listed := mem_childrenOf_of_containerOf? placed held
    rw [childless] at listed
    cases listed
  · intro none_held
    apply List.eq_nil_iff_forall_not_mem.2
    intro child held
    have behind := placed.position_lt held
    have unlike : child ≠ id := by
      intro same
      rw [same] at behind
      exact absurd behind (Nat.lt_irrefl _)
    exact none_held child unlike (placed.containerOf?_of_mem_childrenOf held)

theorem Linked.mem_referrers_iff (linked : store.Linked) {source : ElementId} {edgeType : EdgeType} :
    (source, edgeType) ∈ store.referrers id ↔ id ∈ store.edges source edgeType := by
  rw [← List.count_pos_iff, linked.incoming, List.count_pos_iff]

/-- Nothing else refers to an element exactly when no other element has an edge to it. -/
theorem Linked.unreferred_iff (linked : store.Linked) :
    (∀ edge ∈ store.referrers id, edge.1 = id) ↔
      ∀ other, other ≠ id → ∀ edgeType, id ∉ store.edges other edgeType := by
  constructor
  · intro own other unlike edgeType refers
    exact unlike (own (other, edgeType) (linked.mem_referrers_iff.2 refers))
  · rintro none_refers ⟨source, edgeType⟩ listed
    by_contra unlike
    exact none_refers source unlike edgeType (linked.mem_referrers_iff.1 listed)

/-- **An element may be removed alone exactly when it is present and nothing else depends on it.** -/
theorem Sound.checkRemove_alone_iff (sound : store.Sound) :
    store.checkRemove id false = .ok () ↔ store.contains id = true ∧ store.NoDependents id := by
  rw [checkRemove_eq_ok_iff, sound.toPlaced.childless_iff, sound.toLinked.unreferred_iff]
  constructor
  · rintro ⟨there, cascade | ⟨unheld, unreferred⟩⟩
    · cases cascade
    · exact ⟨there, fun other unlike => ⟨unheld other unlike, unreferred other unlike⟩⟩
  · rintro ⟨there, free⟩
    exact ⟨there, .inr ⟨fun other unlike => (free other unlike).1,
      fun other unlike => (free other unlike).2⟩⟩

/-! ## What is left -/

/-- Without children an element is all its contents. -/
theorem contents_of_childless (there : store.contains id = true)
    (childless : store.childrenOf id = []) : store.contents id = [id] := by
  have some_there := position_lt_size there
  obtain ⟨depth, size⟩ := Nat.exists_eq_succ_of_ne_zero (Nat.ne_of_gt (Nat.zero_lt_of_lt some_there))
  rw [contents, size, contentsWithin, childless]
  rfl

theorem detachAll_singleton {slot : Slot} (found : store.slot? id = some slot) :
    Store.detachAll [id] store = ([slot.element], store.without slot) := by
  simp only [Store.detachAll, found]

/-- Taking out an element on which nothing depends changes no other slot. -/
theorem Sound.plucked_without (sound : store.Sound) {slot : Slot} (member : slot ∈ store.slots)
    (free : store.NoDependents slot.id) : Plucked slot.id store (store.without slot) where
  slots := by
    have unchanged : ∀ other ∈ store.slots.filter (fun other => other.id ≠ slot.id),
        other.dropEdgesTo slot.id = other := by
      intro other inOthers
      obtain ⟨old, unlike⟩ := List.mem_filter.1 inOthers
      apply Slot.dropEdgesTo_of_not_mem (sound.sound other old)
      intro edgeType refers
      rw [← sound.toPlaced.edges_of_mem old] at refers
      exact (free other.id (of_decide_eq_true unlike)).2 edgeType refers
    rw [sound.slots_without member, List.map_congr_left unchanged, List.map_id']
  childrenOf container := by
    have childless : store.childrenOf slot.id = [] :=
      sound.toPlaced.childless_iff.2 fun other unlike => (free other unlike).1
    rw [sound.toPlaced.childrenOf_without member]
    split
    · rename_i same
      rw [same, childless]
      rfl
    · rfl
  referrers destination := by
    rw [sound.referrers_without member]
    split
    · rename_i same
      have own : ∀ edge ∈ store.referrers slot.id, edge.1 = slot.id :=
        sound.toLinked.unreferred_iff.2 fun other unlike => (free other unlike).2
      have none_left : (store.referrers slot.id).filter (fun edge => edge.1 ≠ slot.id) = [] := by
        apply List.filter_eq_nil_iff.2
        intro edge listed stays
        exact of_decide_eq_true stays (own edge listed)
      rw [same, none_left]
    · rfl
  root := rfl
  nextStamp := rfl

theorem Sound.plucked_of_checkRemove (sound : store.Sound)
    (checked : store.checkRemove id false = .ok ()) :
    Plucked id store (Store.detachAll (store.contents id) store).2 := by
  obtain ⟨there, free⟩ := sound.checkRemove_alone_iff.1 checked
  have childless : store.childrenOf id = [] :=
    sound.toPlaced.childless_iff.2 fun other unlike => (free other unlike).1
  obtain ⟨slot, found⟩ := slot?_of_contains there
  rw [contents_of_childless there childless, detachAll_singleton found]
  obtain rfl := id_of_slot? found
  exact sound.plucked_without (mem_of_slot? found) free

namespace Plucked

variable {plucked : Store}

theorem places (taken : Plucked id store plucked) :
    plucked.places = store.places.filter fun place => place.1.id ≠ id := by
  rw [Store.places, taken.slots, Store.places, List.filter_map]
  rfl

theorem elements (taken : Plucked id store plucked) :
    plucked.elements = store.elements.filter fun element => element.id ≠ id := by
  rw [Store.elements, taken.slots, Store.elements, List.filter_map]
  rfl

/-- Under every other identity the same slot is found. -/
theorem slot? (taken : Plucked id store plucked) (other : ElementId) :
    plucked.slot? other = if other = id then none else store.slot? other := by
  rw [Store.slot?, taken.slots, List.find?_filter]
  split
  · rename_i gone
    apply List.find?_eq_none.2
    intro slot _ both
    obtain ⟨unlike, same⟩ := of_decide_eq_true both
    exact of_decide_eq_true unlike ((of_decide_eq_true same).trans gone)
  · rename_i stays
    have same_test : (fun slot : Slot => decide (decide (slot.id ≠ id) = true ∧
        decide (slot.id = other) = true)) = fun slot => decide (slot.id = other) := by
      funext slot
      apply decide_eq_decide.2
      rw [decide_eq_true_iff, decide_eq_true_iff]
      exact ⟨fun both => both.2, fun same => ⟨fun is => stays (same.symm.trans is), same⟩⟩
    rw [same_test]
    rfl

theorem links (taken : Plucked id store plucked) (other : ElementId) (edgeType : EdgeType) :
    plucked.links other edgeType = if other = id then [] else store.links other edgeType := by
  rw [Store.links, taken.slot?]
  by_cases gone : other = id
  · rw [if_pos gone, if_pos gone]
  · rw [if_neg gone, if_neg gone]
    rfl

end Plucked

end Store

end LanguageGraph
