/-
# Proofs.Controller.Introduction — a present element is the one its last introduction declared

Elements leave the graph one by one or in a cascade, and an identity may come back for another element in
another container. What is there is always read off the history: the last entry that introduces an
identity (`introduction?`) declares the stored element and its container, and it raised the warning about
an orphan when the element is one now. Elements are listed in the order of these entries
(`introduced_run`).

So nothing is moved, replaced or orphaned in between: a container goes only after all that it holds, and
what entered without one never becomes the root, which is the one project (`Grown.projectRooted`).
-/
import LanguageGraph.Proofs.Controller.Log
import LanguageGraph.Proofs.Controller.Rooting

namespace LanguageGraph

set_option autoImplicit false

namespace Operation

/-- An element that an operation declares is an orphan when it has no container and is no project. -/
theorem orphan?_of_place? {operation : Operation} {place : Element × Option ElementId}
    (declared : operation.place? = some place)
    (unrooted : ∀ element container edges, operation = newElement element container edges →
      element.isRoot = false) :
    operation.orphan? = some place.1.id ↔ place.2 = none ∧ place.1.isRoot = false := by
  cases operation with
  | root project =>
      cases declared
      simp [orphan?, Element.isRoot, Element.kind]
  | newElement element container edges =>
      cases declared
      have no_project := unrooted element container edges rfl
      cases container <;> simp [orphan?, no_project]
  | newEdge source edges => cases declared
  | removeElement id cascade => cases declared
  | removeEdge source edges stamps => cases declared

end Operation

namespace Store

variable {store : Store} {id : ElementId}

theorem mem_ids_orphans :
    id ∈ store.orphans.map Element.id ↔
      ∃ place ∈ store.places, place.1.id = id ∧ place.2 = none ∧ store.root ≠ some id := by
  simp only [orphans, List.map_map, List.mem_map, List.mem_filter, Bool.and_eq_true,
    Option.isNone_iff_eq_none, decide_eq_true_iff]
  constructor
  · rintro ⟨slot, ⟨member, unheld, not_root⟩, rfl⟩
    exact ⟨slot.place, List.mem_map_of_mem member, rfl, unheld, not_root⟩
  · rintro ⟨place, inPlaces, rfl, unheld, not_root⟩
    obtain ⟨slot, member, rfl⟩ := List.mem_map.1 inPlaces
    exact ⟨slot, ⟨member, unheld, not_root⟩, rfl⟩

/-- Where the projects are the root, orphans are the other elements without a container. -/
theorem ProjectRooted.orphan_iff (unique : store.ProjectRooted) (placed : store.Placed)
    {place : Element × Option ElementId} (member : place ∈ store.places) :
    place.1.id ∈ store.orphans.map Element.id ↔ place.2 = none ∧ place.1.isRoot = false := by
  rw [mem_ids_orphans, ← Bool.not_eq_true, unique place member]
  constructor
  · rintro ⟨other, inPlaces, same, unheld, not_root⟩
    have held := placed.containerOf?_of_mem inPlaces
    rw [same, placed.containerOf?_of_mem member] at held
    exact ⟨held.trans unheld, not_root⟩
  · rintro ⟨unheld, not_root⟩
    exact ⟨place, member, rfl, unheld, not_root⟩

end Store

namespace Controller

/-- The last entry that introduces an element. -/
def introduction? (controller : Controller) (id : ElementId) : Option HistoryEntry :=
  controller.history.reverse.find? fun entry => entry.operation.introduced? = some id

/-- An element was introduced for the last time before another one was. -/
def IntroducedBefore (controller : Controller) (first second : ElementId) : Prop :=
  ∃ entry entry', controller.introduction? first = some entry ∧
    controller.introduction? second = some entry' ∧ entry.sequence < entry'.sequence

/-- The elements of the graph are as the history introduces them. -/
structure Introduced (controller : Controller) : Prop where
  /-- What is present was introduced; the last introduction declares the element and the container that
  are stored, and warns of the element when it is an orphan. -/
  declared : ∀ id, controller.store.contains id = true →
    ∃ entry element container, controller.introduction? id = some entry ∧
      entry.operation.place? = some (element, container) ∧
      controller.store.get? id = some element ∧
      controller.store.containerOf? id = container ∧
      (id ∈ controller.store.orphans.map Element.id ↔ .orphanedElement id ∈ entry.warnings)
  /-- The elements are all that are present. -/
  listed : ∀ id, controller.store.contains id = true ↔
    id ∈ controller.store.elements.map Element.id
  /-- They are listed in the order of their last introductions. -/
  ordered : (controller.store.elements.map Element.id).Pairwise controller.IntroducedBefore

variable {controller : Controller} {config : Config} {operation : Operation} {now : Occasion}
  {author : String} {compensates : Option Nat} {id : ElementId} {entry : HistoryEntry}

/-! ## The last introduction -/

theorem introduction?_eq_some_iff :
    controller.introduction? id = some entry ↔
      ∃ before after, controller.history = before ++ entry :: after ∧
        entry.operation.introduced? = some id ∧
        ∀ later ∈ after, later.operation.introduced? ≠ some id := by
  rw [introduction?, List.find?_eq_some_iff_append]
  simp only [decide_eq_true_iff, Bool.not_eq_true', decide_eq_false_iff_not]
  constructor
  · rintro ⟨introduces, after, before, split, latest⟩
    refine ⟨before.reverse, after.reverse, ?_, introduces, ?_⟩
    · rw [← List.reverse_reverse controller.history, split, List.reverse_append,
        List.reverse_cons, List.append_assoc, List.singleton_append]
    · exact fun later member => latest later (List.mem_reverse.1 member)
  · rintro ⟨before, after, split, introduces, latest⟩
    refine ⟨introduces, after.reverse, before.reverse, ?_, ?_⟩
    · rw [split, List.reverse_append, List.reverse_cons, List.append_assoc,
        List.singleton_append]
    · exact fun later member => latest later (List.mem_reverse.1 member)

/-- An entry is the last introduction of its own element, and of no other. -/
theorem introduction?_grow (controller : Controller) (now : Occasion) (operation : Operation)
    (author : String) (compensates : Option Nat) (id : ElementId) :
    (controller.grow now operation author compensates).introduction? id =
      if operation.introduced? = some id then
        some (controller.entryFor now operation author compensates)
      else controller.introduction? id := by
  show (controller.history ++ [controller.entryFor now operation author compensates]).reverse.find? _ = _
  rw [List.reverse_append, List.reverse_singleton, List.singleton_append, List.find?_cons]
  by_cases introduces : operation.introduced? = some id
  · rw [if_pos introduces]
    simp [entryFor, introduces]
  · rw [if_neg introduces]
    simp [entryFor, introduces, introduction?]

theorem mem_history_of_introduction? (found : controller.introduction? id = some entry) :
    entry ∈ controller.history := by
  obtain ⟨before, after, split, -⟩ := introduction?_eq_some_iff.1 found
  rw [split]
  exact List.mem_append_cons_self

/-- What is stored is what the last introduction declares. -/
theorem Grown.introduction_of_place (grown : Grown config controller) :
    ∀ place ∈ controller.store.places, ∃ entry,
      controller.introduction? place.1.id = some entry ∧ entry.operation.place? = some place := by
  intro place member
  obtain ⟨earlier, record, later, origin⟩ := grown.origin place member
  obtain ⟨before, entry, after, whole, rfl, rfl, rfl⟩ := records_split origin.split
  refine ⟨entry, introduction?_eq_some_iff.2 ⟨before, after, whole, ?_, ?_⟩, origin.declared⟩
  · exact Operation.introduced?_of_place? origin.declared
  · intro other inAfter
    exact origin.latest other.toEntryRecord (List.mem_map_of_mem inAfter)

/-! ## What entries say -/

theorem mem_warningsOf : .orphanedElement id ∈ warningsOf operation ↔ operation.orphan? = some id := by
  rw [warningsOf]
  cases operation.orphan? with
  | none => simp
  | some other => simp [eq_comm]

/-- The last introduction of an element warns of it when it is an orphan. -/
theorem Grown.warning_iff_orphan (grown : Grown config controller)
    {place : Element × Option ElementId} (member : place ∈ controller.store.places)
    (found : controller.introduction? place.1.id = some entry)
    (declared : entry.operation.place? = some place) :
    place.1.id ∈ controller.store.orphans.map Element.id ↔
      .orphanedElement place.1.id ∈ entry.warnings := by
  have inHistory := mem_history_of_introduction? found
  rw [grown.warned entry inHistory, mem_warningsOf,
    Operation.orphan?_of_place? declared (grown.newElement_unrooted entry inHistory)]
  exact grown.projectRooted.orphan_iff grown.sound.toPlaced member

/-! ## Order -/

/-- A later entry leaves the order of what was there. -/
theorem IntroducedBefore.grow {first second : ElementId}
    (earlier : controller.IntroducedBefore first second)
    (unlike : operation.introduced? ≠ some first) (unlike' : operation.introduced? ≠ some second) :
    (controller.grow now operation author compensates).IntroducedBefore first second := by
  rw [IntroducedBefore, introduction?_grow, introduction?_grow, if_neg unlike, if_neg unlike']
  exact earlier

/-- What enters comes after everything that was introduced before. -/
theorem Grown.introducedBefore_new (grown : Grown config controller) {first second : ElementId}
    (found : controller.introduction? first = some entry)
    (unlike : operation.introduced? ≠ some first) (introduces : operation.introduced? = some second) :
    (controller.grow now operation author compensates).IntroducedBefore first second := by
  rw [IntroducedBefore, introduction?_grow, introduction?_grow, if_neg unlike, if_pos introduces]
  exact ⟨entry, _, found, rfl,
    Nat.lt_succ_of_le (grown.sequence_le_length (mem_history_of_introduction? found))⟩

theorem Grown.ordered (grown : Grown config controller) :
    controller.store.places.Pairwise fun first second =>
      controller.IntroducedBefore first.1.id second.1.id := by
  induction grown with
  | new => exact List.Pairwise.nil
  | @grow controller now operation author compensates grown undoing checked ih =>
      have valid := (check_eq_ok_iff.1 checked).1
      have affected := Operation.affected_of_validate grown.sound valid
      -- What was there is not what enters.
      have unlike : ∀ place ∈ controller.store.places,
          operation.introduced? ≠ some place.1.id := by
        intro place member introduces
        have absent := Operation.absent_of_validate valid introduces
        rw [Store.contains_iff_ids.2 (List.mem_map_of_mem member)] at absent
        cases absent
      refine List.Pairwise.sublist affected.places (List.pairwise_append.2 ⟨?_, ?_, ?_⟩)
      · refine ih.imp_of_mem ?_
        intro first second member member' earlier
        exact earlier.grow (unlike first member) (unlike second member')
      · cases operation.place? with
        | none => exact List.Pairwise.nil
        | some place => exact List.pairwise_singleton _ place
      · intro first member second new
        obtain ⟨entry, found, -⟩ := grown.introduction_of_place first member
        exact grown.introducedBefore_new found (unlike first member)
          (Operation.introduced?_of_place? (Option.mem_toList.1 new))

theorem Grown.introduced (grown : Grown config controller) : controller.Introduced where
  declared := by
    intro id there
    obtain ⟨slot, inSlots, rfl⟩ := Store.contains_iff.1 there
    have member : slot.place ∈ controller.store.places := List.mem_map_of_mem inSlots
    obtain ⟨entry, found, declared⟩ := grown.introduction_of_place slot.place member
    refine ⟨entry, slot.element, slot.container, found, declared, ?_, ?_, ?_⟩
    · exact (Store.get?_eq_some_iff grown.sound.toPlaced).2 ⟨slot.place, member, rfl, rfl⟩
    · exact grown.sound.toPlaced.containerOf?_of_mem member
    · exact grown.warning_iff_orphan member found declared
  listed id := by rw [Store.ids_elements, Store.contains_iff_ids]
  ordered := by
    rw [Store.ids_elements]
    exact List.pairwise_map.2 grown.ordered

/-- **Whatever calls made a controller, every present element and its container are those that the last
entry introducing it declares, that entry warns of the element exactly when it is an orphan, and the
elements are listed in the order of these entries.** -/
theorem introduced_run (config : Config) (calls : List Call) :
    ((Controller.new config).run calls).Introduced :=
  (grown_run config calls).introduced

end Controller

end LanguageGraph
