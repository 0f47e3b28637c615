/-
# Proofs.Store.Contents — removing an element with its contents keeps a graph sound

`Store.contents` looks no deeper than the number of elements. That is deep enough: a container stands
before what it holds (`Placed.position_lt`), so a chain of containers climbs through the list of
elements and has no more links than there are places left. Hence every child stands in the list of
contents before its container (`childrenFirst_contents`), and when the elements are taken out in that
order, each has lost its children by its turn (`Sound.detachAll`).
-/
import LanguageGraph.Proofs.Store.Detach

namespace LanguageGraph

set_option autoImplicit false

namespace Store

variable {store : Store}

/-- Where an element stands in the order of creation. -/
def position (store : Store) (id : ElementId) : Nat :=
  (idsOf store.places).idxOf id

theorem length_ids (store : Store) : (idsOf store.places).length = store.size := by
  rw [← ids_eq, List.length_map, size]

theorem position_lt_size {id : ElementId} (there : store.contains id = true) :
    store.position id < store.size := by
  rw [← length_ids]
  exact List.idxOf_lt_length_of_mem (contains_iff_ids.1 there)

/-- What is held stands in the list of elements, and its container before it. -/
theorem Placed.container_before (placed : store.Placed) {container child : ElementId}
    (held : child ∈ store.childrenOf container) :
    ∃ before element after, store.places = before ++ (element, some container) :: after ∧
      element.id = child ∧ container ∈ idsOf before := by
  rw [placed.children, mem_heldBy] at held
  obtain ⟨⟨element, holder⟩, member, is, rfl⟩ := held
  cases is
  obtain ⟨before, after, split⟩ := List.append_of_mem member
  obtain ⟨parent, inBefore, rfl, -⟩ := placed.nested before element _ after split
  exact ⟨before, element, after, split, rfl, List.mem_map_of_mem inBefore⟩

theorem Placed.position_lt (placed : store.Placed) {container child : ElementId}
    (held : child ∈ store.childrenOf container) :
    store.position container < store.position child := by
  obtain ⟨before, element, after, split, rfl, early⟩ := placed.container_before held
  have nodup := placed.nodup
  rw [split, idsOf_append] at nodup
  have late : element.id ∉ idsOf before := fun twice =>
    List.disjoint_of_nodup_append nodup twice List.mem_cons_self
  rw [position, position, split, idsOf_append, List.idxOf_append_of_mem early,
    List.idxOf_append_of_notMem late]
  exact Nat.lt_add_right _ (List.idxOf_lt_length_of_mem early)

theorem Placed.contains_child (placed : store.Placed) {container child : ElementId}
    (held : child ∈ store.childrenOf container) : store.contains child = true := by
  obtain ⟨before, element, after, split, rfl, -⟩ := placed.container_before held
  rw [contains_iff_ids, split, idsOf_append]
  exact List.mem_append_right _ List.mem_cons_self

theorem Placed.contains_container (placed : store.Placed) {container child : ElementId}
    (held : child ∈ store.childrenOf container) : store.contains container = true := by
  obtain ⟨before, element, after, split, -, early⟩ := placed.container_before held
  rw [contains_iff_ids, split, idsOf_append]
  exact List.mem_append_left _ early

/-! ## Children first -/

/-- In a list of elements, what an element holds stands before it. -/
def ChildrenFirst (store : Store) (ids : List ElementId) : Prop :=
  ∀ before id after, ids = before ++ id :: after → ∀ child ∈ store.childrenOf id, child ∈ before

theorem childrenFirst_nil (store : Store) : store.ChildrenFirst [] := by
  intro before id after split
  simp at split

theorem ChildrenFirst.append {first second : List ElementId} (sorted : store.ChildrenFirst first)
    (sorted' : store.ChildrenFirst second) : store.ChildrenFirst (first ++ second) := by
  intro before id after split child held
  rcases List.append_eq_append_iff.1 split with ⟨between, rfl, rest⟩ | ⟨between, rfl, rest⟩
  · exact List.mem_append_right _ (sorted' between id after rest child held)
  · cases between with
    | nil =>
        exact absurd (sorted' [] id after rest.symm child held) List.not_mem_nil
    | cons head between =>
        obtain ⟨rfl, rfl⟩ := List.cons.inj rest
        exact sorted before _ between rfl child held

theorem childrenFirst_flatMap {ids : List ElementId} {inner : ElementId → List ElementId}
    (sorted : ∀ id ∈ ids, store.ChildrenFirst (inner id)) :
    store.ChildrenFirst (ids.flatMap inner) := by
  induction ids with
  | nil => exact childrenFirst_nil store
  | cons id ids ih =>
      rw [List.flatMap_cons]
      exact (sorted id List.mem_cons_self).append
        (ih fun other member => sorted other (List.mem_cons_of_mem _ member))

theorem ChildrenFirst.concat {ids : List ElementId} {id : ElementId}
    (sorted : store.ChildrenFirst ids) (listed : ∀ child ∈ store.childrenOf id, child ∈ ids) :
    store.ChildrenFirst (ids ++ [id]) := by
  intro before other after split child held
  rcases split_concat split with ⟨rfl, rfl⟩ | ⟨between, rfl, -⟩
  · exact listed child held
  · exact sorted before other between rfl child held

/-- The contents are listed children first, when the depth reaches over all later elements. -/
theorem Placed.childrenFirst_contentsWithin (placed : store.Placed) :
    ∀ depth id, store.contains id = true → store.size - store.position id ≤ depth →
      store.ChildrenFirst (store.contentsWithin depth id) ∧ id ∈ store.contentsWithin depth id := by
  intro depth
  induction depth with
  | zero =>
      intro id there deep
      have := position_lt_size there
      omega
  | succ depth ih =>
      intro id there deep
      have inner : ∀ child ∈ store.childrenOf id,
          store.ChildrenFirst (store.contentsWithin depth child) ∧
            child ∈ store.contentsWithin depth child := by
        intro child held
        have := placed.position_lt held
        exact ih child (placed.contains_child held) (by omega)
      rw [contentsWithin]
      refine ⟨(childrenFirst_flatMap fun child held => (inner child held).1).concat ?_,
        List.mem_append_right _ (List.mem_singleton_self id)⟩
      intro child held
      exact List.mem_flatMap.2 ⟨child, held, (inner child held).2⟩

theorem Placed.childrenFirst_contents (placed : store.Placed) {id : ElementId}
    (there : store.contains id = true) : store.ChildrenFirst (store.contents id) :=
  (placed.childrenFirst_contentsWithin store.size id there (Nat.sub_le _ _)).1

/-! ## Taking out one after the other -/

theorem ChildrenFirst.childless {id : ElementId} {ids : List ElementId}
    (sorted : store.ChildrenFirst (id :: ids)) : store.childrenOf id = [] :=
  List.eq_nil_iff_forall_not_mem.2 fun child held =>
    absurd (sorted [] id ids rfl child held) List.not_mem_nil

/-- What is not present has nothing to wait for. -/
theorem Placed.childrenFirst_skip (placed : store.Placed) {id : ElementId} {ids : List ElementId}
    (absent : store.contains id = false) (sorted : store.ChildrenFirst (id :: ids)) :
    store.ChildrenFirst ids := by
  intro before other after split child held
  rcases List.mem_cons.1 (sorted (id :: before) other after (by rw [split]; rfl) child held) with
    rfl | early
  · rw [placed.contains_child held] at absent
    cases absent
  · exact early

theorem Placed.childrenFirst_without (placed : store.Placed) {slot : Slot}
    (member : slot ∈ store.slots) {ids : List ElementId}
    (sorted : store.ChildrenFirst (slot.id :: ids)) : (store.without slot).ChildrenFirst ids := by
  intro before other after split child held
  rw [placed.childrenOf_without member] at held
  split at held
  · cases held
  · obtain ⟨held, unlike⟩ := List.mem_filter.1 held
    rcases List.mem_cons.1
      (sorted (slot.id :: before) other after (by rw [split]; rfl) child held) with same | early
    · exact absurd same (of_decide_eq_true unlike)
    · exact early

/-- What taking out one element without children keeps, taking out many keeps, children first. -/
theorem Sound.detachAll_induction {motive : Store → Prop} {ids : List ElementId}
    (sound : store.Sound) (sorted : store.ChildrenFirst ids) (start : motive store)
    (next : ∀ (store : Store) (slot : Slot), store.Sound → slot ∈ store.slots →
      store.childrenOf slot.id = [] → motive store → motive (store.without slot)) :
    motive (Store.detachAll ids store).2 := by
  induction ids generalizing store with
  | nil => exact start
  | cons id ids ih =>
      unfold Store.detachAll
      cases found : store.slot? id with
      | none =>
          have absent : store.contains id = false := by
            rw [contains, found]
            rfl
          exact ih sound (sound.toPlaced.childrenFirst_skip absent sorted) start
      | some slot =>
          have member := mem_of_slot? found
          obtain rfl := id_of_slot? found
          exact ih (sound.without member sorted.childless)
            (sound.toPlaced.childrenFirst_without member sorted)
            (next store slot sound member sorted.childless start)

theorem Sound.detachAll (sound : store.Sound) {ids : List ElementId}
    (sorted : store.ChildrenFirst ids) : (Store.detachAll ids store).2.Sound :=
  sound.detachAll_induction sorted sound fun _ _ earlier member childless _ =>
    earlier.without member childless

/-! ## Removing -/

theorem checkRemove_eq_ok_iff {id : ElementId} {cascade : Bool} :
    store.checkRemove id cascade = .ok () ↔
      store.contains id = true ∧
        (cascade = true ∨
          store.childrenOf id = [] ∧ ∀ edge ∈ store.referrers id, edge.1 = id) := by
  unfold checkRemove
  cases store.contains id with
  | false => simp
  | true => cases cascade <;> simp

theorem checkRemove_contains {id : ElementId} {cascade : Bool}
    (checked : store.checkRemove id cascade = .ok ()) : store.contains id = true :=
  (checkRemove_eq_ok_iff.1 checked).1

end Store

end LanguageGraph
