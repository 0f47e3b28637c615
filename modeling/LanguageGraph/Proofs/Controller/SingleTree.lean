/-
# Proofs.Controller.SingleTree — without orphans the graph is one tree

A setting that rejects orphans is asked once, as an element enters; nothing asks it when elements leave.
It need not, for nothing is cut off on the way. An element is where its last introduction put it
(`Grown.introduction_of_place`), so one without a container was a project when it entered, and a project
that is present is the root (`Grown.root_of_unheld`). The way up from any element ends at one without a
container, and so at the root (`Grown.reaches_root`). Hence all there is lies in the root, and a cascade
that starts there leaves nothing (`Grown.restored_empty`).
-/
import LanguageGraph.Proofs.Controller.Introduction
import LanguageGraph.Proofs.Controller.Reliving
import LanguageGraph.Proofs.Store.Cascade

namespace LanguageGraph

set_option autoImplicit false

namespace Store

/-- Every way up ends at one project, which is the root, and there is no other project. -/
structure TreeOf (store : Store) (project : Project) : Prop where
  root : store.rootElement? = some (.project project)
  unique : ∀ element ∈ store.elements, element.isRoot = true → element = .project project
  ascends : ∀ id, store.contains id = true →
    ∃ above, store.Ascends id above ∧ (id :: above).getLast? = some project.id

variable {store left : Store} {gone : List ElementId} {id : ElementId}

/-- The way up ends at a present element without a container, in which everything on the way lies. -/
theorem Ascends.exists_top {above : List ElementId} (ascends : store.Ascends id above)
    (placed : store.Placed) (there : store.contains id = true) :
    ∃ top, (id :: above).getLast? = some top ∧ store.contains top = true ∧
      store.containerOf? top = none ∧ Relation.ReflTransGen store.LiesIn id top := by
  induction ascends with
  | @top id unheld => exact ⟨id, rfl, there, unheld, .refl⟩
  | @up id container above held rest ih =>
      obtain ⟨top, last, present, unheld, inside⟩ :=
        ih (placed.contains_container (placed.mem_childrenOf_iff.2 held))
      exact ⟨top, List.getLast?_cons_cons.trans last, present, unheld, .head held inside⟩

/-- Taking out all there is leaves the empty graph. -/
theorem Cleared.restored_empty (out : Cleared gone store left) (sound : store.Sound)
    (rooted : store.Rooted) (all : ∀ id, store.contains id = true → id ∈ gone) :
    Restored .empty left where
  slots := by
    have none_left : left.places = [] := by
      rw [out.places]
      apply List.filter_eq_nil_iff.2
      intro place member stays
      exact of_decide_eq_true stays (all _ (contains_iff_ids.2 (List.mem_map_of_mem member)))
    exact List.map_eq_nil_iff.1 none_left
  childrenOf container := by
    rw [out.childrenOf]
    split
    · rfl
    · rename_i stays
      rw [sound.indexed.children_absent container (Bool.eq_false_iff.2 fun there =>
        stays (all container there))]
      rfl
  referrers destination := by
    rw [out.referrers]
    split
    · rfl
    · rename_i stays
      rw [sound.indexed.referrers_absent destination (Bool.eq_false_iff.2 fun there =>
        stays (all destination there))]
      rfl
  root := by
    rw [out.root]
    apply Option.filter_eq_none_iff.2
    intro id is stays
    exact of_decide_eq_true stays (all id (rooted id is))

end Store

namespace Controller

/-- The graph is one tree or nothing, nobody was ever warned, and taking out the root with its contents
takes out everything. -/
structure SingleTree (controller : Controller) : Prop where
  tree : controller.store.isEmpty = true ∨ ∃ project, controller.store.TreeOf project
  orphans : controller.store.orphans = []
  unwarned : ∀ entry ∈ controller.history, entry.warnings = []
  /-- To remove the root with its contents is accepted and leaves the empty graph. -/
  emptied : ∀ id, controller.store.root = some id →
    ∃ removed left, controller.store.remove id true = .ok (removed, left) ∧
      Store.ReadsAs .empty left ∧
      ∀ now author,
        (∃ applied, (controller.submit now (.removeElement id true) author).result = .ok applied) ∧
          (controller.submit now (.removeElement id true) author).controller.store = left

variable {controller : Controller} {config : Config} {id : ElementId}

/-! ## What has no container -/

/-- A present element without a container is the root. -/
theorem Grown.root_of_unheld (grown : Grown config controller)
    (strict : config.rejectOrphans = true) (there : controller.store.contains id = true)
    (unheld : controller.store.containerOf? id = none) : controller.store.root = some id := by
  obtain ⟨slot, inSlots, rfl⟩ := Store.contains_iff.1 there
  have member : slot.place ∈ controller.store.places := List.mem_map_of_mem inSlots
  have holder : slot.place.2 = none :=
    (grown.sound.toPlaced.containerOf?_of_mem member).symm.trans unheld
  obtain ⟨entry, found, declared⟩ := grown.introduction_of_place slot.place member
  have inHistory := mem_history_of_introduction? found
  -- As an element that is no project it would have entered as an orphan.
  have is_project : slot.place.1.isRoot = true := by
    by_contra other
    have orphaned := (Operation.orphan?_of_place? declared
      (grown.newElement_unrooted entry inHistory)).2 ⟨holder, Bool.eq_false_iff.2 other⟩
    rw [grown.unorphaned strict entry inHistory] at orphaned
    cases orphaned
  exact (grown.projectRooted slot.place member).1 is_project

theorem Grown.orphans_eq_nil (grown : Grown config controller)
    (strict : config.rejectOrphans = true) : controller.store.orphans = [] := by
  apply (List.map_eq_nil_iff (f := Element.id)).1
  apply List.eq_nil_iff_forall_not_mem.2
  intro id orphaned
  obtain ⟨place, member, rfl, unheld, not_root⟩ := Store.mem_ids_orphans.1 orphaned
  apply not_root
  apply grown.root_of_unheld strict (Store.contains_iff_ids.2 (List.mem_map_of_mem member))
  rw [grown.sound.toPlaced.containerOf?_of_mem member, unheld]

/-! ## The way up to the root -/

/-- The way up from a present element ends at the root, and the element lies in it. -/
theorem Grown.reaches_root (grown : Grown config controller) (strict : config.rejectOrphans = true)
    (there : controller.store.contains id = true) :
    ∃ above top, controller.store.Ascends id above ∧ (id :: above).getLast? = some top ∧
      controller.store.root = some top ∧
      Relation.ReflTransGen controller.store.LiesIn id top := by
  obtain ⟨above, ascends⟩ := grown.sound.toPlaced.exists_ascends id
  obtain ⟨top, last, present, unheld, inside⟩ := ascends.exists_top grown.sound.toPlaced there
  exact ⟨above, top, ascends, last, grown.root_of_unheld strict present unheld, inside⟩

/-- The element at the root is a project, and the only one. -/
theorem Grown.project_of_root (grown : Grown config controller)
    (is : controller.store.root = some id) :
    ∃ project : Project, controller.store.rootElement? = some (.project project) ∧
      project.id = id ∧
      ∀ element ∈ controller.store.elements, element.isRoot = true →
        element = .project project := by
  have placed := grown.sound.toPlaced
  obtain ⟨slot, inSlots, rfl⟩ := Store.contains_iff.1 (grown.rooted id is)
  have member : slot.element ∈ controller.store.elements := List.mem_map_of_mem inSlots
  have at_root : controller.store.rootElement? = some slot.element :=
    (Store.rootElement?_eq_some_iff placed).2 ⟨member, is⟩
  have is_project := ((grown.led.rootElement?_eq_some_iff placed).1 at_root).2
  cases element : slot.element with
  | project project =>
      rw [element] at at_root
      refine ⟨project, at_root, congrArg Element.id element.symm, ?_⟩
      intro other present other_project
      have again := (grown.led.rootElement?_eq_some_iff placed).2 ⟨present, other_project⟩
      exact Option.some.inj (again.symm.trans at_root)
  | _ =>
      rw [element] at is_project
      cases is_project

theorem Grown.treeOf (grown : Grown config controller) (strict : config.rejectOrphans = true) :
    controller.store.isEmpty = true ∨ ∃ project, controller.store.TreeOf project := by
  cases slots : controller.store.slots with
  | nil => exact .inl (List.isEmpty_iff.2 slots)
  | cons slot slots =>
      right
      have there : controller.store.contains slot.id = true := by
        apply Store.contains_of_mem
        rw [slots]
        exact List.mem_cons_self
      obtain ⟨-, top, -, -, is, -⟩ := grown.reaches_root strict there
      obtain ⟨project, at_root, rfl, unique⟩ := grown.project_of_root is
      refine ⟨project, at_root, unique, ?_⟩
      intro id present
      obtain ⟨above, top, ascends, last, is', -⟩ := grown.reaches_root strict present
      rw [is] at is'
      cases is'
      exact ⟨above, ascends, last⟩

/-! ## A cascade from the root -/

/-- All there is lies in the root, so taking it out with its contents leaves nothing. -/
theorem Grown.restored_empty (grown : Grown config controller)
    (strict : config.rejectOrphans = true) (is : controller.store.root = some id) :
    Store.Restored .empty
      (Store.detachAll (controller.store.contents id) controller.store).2 := by
  have there := grown.rooted id is
  refine (grown.sound.cleared_contents there).restored_empty grown.sound grown.rooted ?_
  intro other present
  obtain ⟨-, top, -, -, is', inside⟩ := grown.reaches_root strict present
  rw [is] at is'
  cases is'
  exact (grown.sound.toPlaced.mem_contents_iff there).2 inside

theorem Grown.emptied (grown : Grown config controller) (strict : config.rejectOrphans = true)
    (is : controller.store.root = some id) :
    ∃ removed left, controller.store.remove id true = .ok (removed, left) ∧
      Store.ReadsAs .empty left ∧
      ∀ now author,
        (∃ applied, (controller.submit now (.removeElement id true) author).result = .ok applied) ∧
          (controller.submit now (.removeElement id true) author).controller.store = left := by
  have checked : controller.store.checkRemove id true = .ok () :=
    Store.checkRemove_eq_ok_iff.2 ⟨grown.rooted id is, .inl rfl⟩
  have accepted : controller.check .listed (.removeElement id true) = .ok () :=
    check_eq_ok_iff.2 ⟨checked, fun _ => rfl⟩
  refine ⟨(Store.detachAll (controller.store.contents id) controller.store).1, _, ?_,
    (grown.restored_empty strict is).readsAs, fun now author => ⟨?_, ?_⟩⟩
  · rw [Store.remove, checked]
  · exact (submit_accepted_iff grown.sound .listed).2 accepted
  · rw [submit_of_check grown.sound accepted, Controller.grow, Operation.commit_removeElement checked]

theorem Grown.singleTree (grown : Grown config controller) (strict : config.rejectOrphans = true) :
    controller.SingleTree where
  tree := grown.treeOf strict
  orphans := grown.orphans_eq_nil strict
  unwarned := grown.unwarned strict
  emptied _ is := grown.emptied strict is

/-- **Where orphans are rejected, every graph that calls or a replay lead to is empty or one tree: every
way up ends at the one project, there is no orphan and no warning, and removing the root with its
contents leaves nothing.** -/
theorem singleTree_run (config : Config) (strict : config.rejectOrphans = true) :
    (∀ calls, ((Controller.new config).run calls).SingleTree) ∧
      ∀ clock entries replayed, (replay clock entries config).1 = .ok replayed →
        replayed.SingleTree := by
  constructor
  · intro calls
    exact (grown_run config calls).singleTree strict
  · intro clock entries replayed done
    obtain ⟨calls, reached⟩ := (Grown.new.lived_of_replayFrom done).calls
    rw [← reached]
    exact (grown_run config calls).singleTree strict

def strictConfig : Config :=
  { Config.default with rejectOrphans := true }

/-- A class with edges up and down comes and goes with what it holds; an orphan is refused in between. -/
def prunedTree : List Call :=
  [.apply .epoch (.root ⟨.ofNat 1, "demo", "demo", ""⟩),
   .apply .epoch (.newElement (.library ⟨.ofNat 2, "core"⟩) (some (.ofNat 1)) .empty),
   .submit .epoch (.newElement (.clazz ⟨.ofNat 3, "List"⟩) (some (.ofNat 2))
     (.ofDestinations .typeOf [.ofNat 1, .ofNat 3])) "someone",
   .apply .epoch (.newElement (.method ⟨.ofNat 4, "run"⟩) none .empty),
   .apply .epoch (.newElement (.method ⟨.ofNat 5, "map"⟩) (some (.ofNat 3))
     (.ofDestinations .typeOf [.ofNat 2])),
   .apply .epoch (.newEdge (.ofNat 2) (.ofDestinations .typeOf [.ofNat 5])),
   .submit .epoch (.removeElement (.ofNat 3) true) "someone"]

/-- Project and library are left as a tree, and the history leads to that tree again. -/
theorem singleTree_run_prunedTree :
    ((Controller.new strictConfig).run prunedTree).store.size = 2 ∧
      ((Controller.new strictConfig).run prunedTree).SingleTree ∧
      ∃ replayed, (replay (fun _ => .epoch)
          ((Controller.new strictConfig).run prunedTree).history strictConfig).1 = .ok replayed ∧
        replayed.SingleTree := by
  obtain ⟨lived, relived⟩ := singleTree_run strictConfig rfl
  have done : (replay (fun _ => .epoch)
      ((Controller.new strictConfig).run prunedTree).history strictConfig).1 =
        .ok ((Controller.new strictConfig).run prunedTree) := rfl
  exact ⟨rfl, lived prunedTree, _, done, relived _ _ _ done⟩

end Controller

end LanguageGraph
