/-
# Proofs.Controller.Rooting — the root is the one project

The store admits any number of projects and names its root in a field of its own. Operations keep the two
together: a project enters only as the root of an empty graph, where no root can be left over, and no
other operation accepts one. To elements and root an accepted operation does one of three things: a
project becomes all there is, something else enters behind all others, or elements leave, and the root
is no more when it is one of them (`Grown.places_induction`).

So in every graph that a controller made, the projects are the root, and it stands first (`Grown.led`),
whatever was taken out in between; and a graph is open to a new root exactly when nothing is left of the
old one, orphans included (`rootExclusive_run`).
-/
import LanguageGraph.Proofs.Controller.Reversal

namespace LanguageGraph

set_option autoImplicit false

namespace Store

/-- The projects of a graph are its root. -/
def ProjectRooted (store : Store) : Prop :=
  ∀ place ∈ store.places, place.1.isRoot = true ↔ store.root = some place.1.id

/-- Of some elements, the root stands first, and the projects are the root. -/
structure Led (places : List (Element × Option ElementId)) (root : Option ElementId) : Prop where
  first : ∀ id, root = some id → (idsOf places).head? = some id
  projects : ∀ place ∈ places, place.1.isRoot = true ↔ root = some place.1.id

variable {store : Store} {order : EdgeOrder} {operation : Operation}
  {motive : List (Element × Option ElementId) → Option ElementId → Prop}

/-! ## What an operation does to elements and root -/

theorem Rooted.root_of_empty (rooted : store.Rooted) (empty : store.slots = []) :
    store.root = none := by
  cases is : store.root with
  | none => rfl
  | some id =>
      obtain ⟨slot, member, -⟩ := contains_iff.1 (rooted id is)
      rw [empty] at member
      cases member

/-- The project that enters an empty graph is all there is, and its root. -/
theorem Rooted.insert_project (rooted : store.Rooted) (empty : store.slots = []) (project : Project) :
    (store.insert (.project project) none).places = [(.project project, none)] ∧
      (store.insert (.project project) none).root = some project.id := by
  constructor
  · rw [places_insert, places, empty]
    rfl
  · show (if _ && _ && store.root.isNone then _ else _) = _
    rw [rooted.root_of_empty empty]
    rfl

/-- What holds of elements and root still holds after removals, when taking out one element keeps it. -/
theorem Sound.places_removals (sound : store.Sound) {steps : List Step}
    (removals : ∀ step ∈ steps, step.isRemoval = true) (start : motive store.places store.root)
    (leave : ∀ places root id, motive places root →
      motive (places.filter fun place => place.1.id ≠ id) (if root = some id then none else root)) :
    motive (store.perform steps).2.places (store.perform steps).2.root := by
  refine sound.removal_induction (motive := fun store => motive store.places store.root)
    removals start ?_ ?_
  · intro between source edgeType destination index _ still
    rw [places_unlinkAt]
    exact still
  · intro between slot sound' member still
    rw [sound'.places_without member]
    exact leave between.places between.root slot.id still

/-- What holds of elements and root still holds after an accepted operation, when a project alone has it,
and when what enters or leaves keeps it. -/
theorem Rooted.places_commit (rooted : store.Rooted) (sound : store.Sound)
    (valid : operation.validate order store = .ok ()) (start : motive store.places store.root)
    (root : ∀ project : Project, motive [(.project project, none)] (some project.id))
    (enter : ∀ element container, element.isRoot = false → element.id ∉ idsOf store.places →
      motive (store.places ++ [(element, container)]) store.root)
    (leave : ∀ places root id, motive places root →
      motive (places.filter fun place => place.1.id ≠ id) (if root = some id then none else root)) :
    motive (operation.commit store).2.places (operation.commit store).2.root := by
  obtain ⟨final, done⟩ := Operation.commit_of_validate sound valid
  cases operation with
  | root project =>
      have empty := Operation.validate_root_eq_ok_iff.1 valid
      rw [done]
      obtain ⟨-, rfl⟩ := add_eq_ok_iff.1 (perform_singleton_eq_ok_iff.1 done)
      obtain ⟨alone, becomes⟩ := rooted.insert_project empty project
      rw [alone, becomes]
      exact root project
  | newElement element container edges =>
      obtain ⟨unrooted, checked, -⟩ := Operation.validate_newElement_eq_ok_iff.1 valid
      have absent : element.id ∉ idsOf store.places := by
        rw [← contains_iff_ids, (checkAdd_eq_ok_iff.1 checked).1]
        exact Bool.false_ne_true
      rw [done]
      obtain ⟨next, first, rest⟩ := perform_cons_eq_ok_iff.1 done
      obtain ⟨-, rfl⟩ := add_eq_ok_iff.1 first
      have extended := (sound.insert checked).extended_perform rest
      rw [extended.places, extended.root, places_insert, Operation.root_insert unrooted]
      exact enter element container unrooted absent
  | newEdge source edges =>
      rw [done]
      have extended := sound.extended_perform done
      rw [extended.places, extended.root]
      exact start
  | removeElement id cascade =>
      exact sound.places_removals (Operation.steps_removal rfl) start leave
  | removeEdge source edges stamps =>
      exact sound.places_removals (Operation.steps_removal rfl) start leave

/-! ## The root stands first -/

namespace Led

variable {places : List (Element × Option ElementId)} {root : Option ElementId}

theorem empty : Led [] none where
  first id is := by cases is
  projects place member := by cases member

theorem alone (project : Project) : Led [(.project project, none)] (some project.id) where
  first id is := is
  projects place member := by
    rw [List.mem_singleton.1 member]
    exact ⟨fun _ => rfl, fun _ => rfl⟩

theorem root_mem (led : Led places root) {id : ElementId} (is : root = some id) :
    id ∈ idsOf places :=
  List.mem_of_mem_head? (led.first id is)

/-- What enters behind the others and is no project is not the root, for the root was there before. -/
theorem enter (led : Led places root) {element : Element} (unrooted : element.isRoot = false)
    (absent : element.id ∉ idsOf places) (container : Option ElementId) :
    Led (places ++ [(element, container)]) root where
  first id is := by
    rw [idsOf_append, List.head?_append, led.first id is]
    rfl
  projects place member := by
    rcases List.mem_append.1 member with old | new
    · exact led.projects place old
    · rw [List.mem_singleton.1 new, unrooted]
      constructor
      · intro is_root
        cases is_root
      · intro is_root
        exact absurd (led.root_mem is_root) absent

/-- What leaves takes the root with it when it is the root, and is not in its way otherwise. -/
theorem leave (led : Led places root) (gone : ElementId) :
    Led (places.filter fun place => place.1.id ≠ gone) (if root = some gone then none else root) where
  first id is := by
    split at is
    · cases is
    · rename_i other
      cases places with
      | nil => exact led.first id is
      | cons place places =>
          have leads : place.1.id = id := Option.some.inj (led.first id is)
          have stays : decide (place.1.id ≠ gone) = true := by
            apply decide_eq_true
            rintro rfl
            exact other (is.trans (congrArg some leads.symm))
          rw [List.filter_cons, if_pos stays, ← leads]
          rfl
  projects place stays := by
    obtain ⟨old, unlike⟩ := List.mem_filter.1 stays
    rw [led.projects place old]
    split
    · rename_i leaving
      rw [leaving]
      constructor
      · intro same
        exact absurd (Option.some.inj same).symm (of_decide_eq_true unlike)
      · intro none_left
        cases none_left
    · rfl

end Led

/-! ## The element at the root -/

theorem rootElement?_eq_some_iff (placed : store.Placed) {element : Element} :
    store.rootElement? = some element ↔
      element ∈ store.elements ∧ store.root = some element.id := by
  rw [rootElement?, Option.bind_eq_some_iff, elements_eq_map, List.mem_map]
  simp only [get?_eq_some_iff placed]
  constructor
  · rintro ⟨_, is, place, member, rfl, rfl⟩
    exact ⟨⟨place, member, rfl⟩, is⟩
  · rintro ⟨⟨place, member, rfl⟩, is⟩
    exact ⟨_, is, place, member, rfl, rfl⟩

/-- Where the projects are the root, the element at the root is the project that is present. -/
theorem Led.rootElement?_eq_some_iff (led : Led store.places store.root) (placed : store.Placed)
    {element : Element} :
    store.rootElement? = some element ↔ element ∈ store.elements ∧ element.isRoot = true := by
  rw [Store.rootElement?_eq_some_iff placed, elements_eq_map]
  apply and_congr_right
  intro member
  obtain ⟨place, inPlaces, rfl⟩ := List.mem_map.1 member
  exact (led.projects place inPlaces).symm

/-- The element at the root stands before all others and has no container. -/
theorem Led.places_eq_cons (led : Led store.places store.root) (placed : store.Placed)
    {element : Element} (is : store.rootElement? = some element) :
    ∃ rest, store.places = (element, none) :: rest := by
  obtain ⟨member, is_root⟩ := (Store.rootElement?_eq_some_iff placed).1 is
  rw [elements_eq_map] at member
  obtain ⟨place, inPlaces, rfl⟩ := List.mem_map.1 member
  have leads := led.first place.1.id is_root
  cases split : store.places with
  | nil =>
      rw [split] at inPlaces
      cases inPlaces
  | cons first rest =>
      have there : first ∈ store.places := by
        rw [split]
        exact List.mem_cons_self
      rw [split] at leads
      obtain rfl : first = place :=
        List.inj_on_of_nodup_map placed.nodup there inPlaces (Option.some.inj leads)
      have held := placed.containerOf?_of_mem there
      -- A container would stand before the element, and nothing stands before the first one.
      have unheld : first.2 = none := by
        cases holder : first.2 with
        | none => rfl
        | some container =>
            have whole : store.places = [] ++ (first.1, some container) :: rest := by
              rw [split, ← holder]
              rfl
            obtain ⟨parent, early, -⟩ := placed.nested [] first.1 container rest whole
            cases early
      exact ⟨rest, by rw [← unheld]⟩

/-- There is one project at most, and it is the element at the root. -/
theorem Led.filter_isRoot (led : Led store.places store.root) (placed : store.Placed) :
    store.elements.filter Element.isRoot = store.rootElement?.toList := by
  cases is : store.rootElement? with
  | none =>
      apply List.filter_eq_nil_iff.2
      intro element member is_project
      rw [(led.rootElement?_eq_some_iff placed).2 ⟨member, is_project⟩] at is
      cases is
  | some element =>
      obtain ⟨rest, split⟩ := led.places_eq_cons placed is
      have is_project := ((led.rootElement?_eq_some_iff placed).1 is).2
      have others : ∀ other ∈ rest.map Prod.fst, ¬ other.isRoot = true := by
        intro other later other_project
        have member : other ∈ store.elements := by
          rw [elements_eq_map, split]
          exact List.mem_cons_of_mem _ later
        have again := (led.rootElement?_eq_some_iff placed).2 ⟨member, other_project⟩
        obtain rfl : element = other := Option.some.inj (is.symm.trans again)
        obtain ⟨place, inRest, same⟩ := List.mem_map.1 later
        have nodup := placed.nodup
        rw [split, idsOf, List.map_cons, List.nodup_cons] at nodup
        exact nodup.1 (List.mem_map.2 ⟨place, inRest, congrArg Element.id same⟩)
      rw [elements_eq_map, split, List.map_cons, List.filter_cons, if_pos is_project,
        List.filter_eq_nil_iff.2 others]
      rfl

end Store

namespace Controller

variable {controller : Controller} {config : Config} {motive :
  List (Element × Option ElementId) → Option ElementId → Prop}

/-- What holds of elements and root in the empty graph and where a project is alone, and is kept by what
enters and leaves, holds in every graph that a controller made. -/
theorem Grown.places_induction (grown : Grown config controller) (empty : motive [] none)
    (root : ∀ project : Project, motive [(.project project, none)] (some project.id))
    (enter : ∀ places root element container, element.isRoot = false →
      element.id ∉ Store.idsOf places → motive places root →
        motive (places ++ [(element, container)]) root)
    (leave : ∀ places root id, motive places root →
      motive (places.filter fun place => place.1.id ≠ id) (if root = some id then none else root)) :
    motive controller.store.places controller.store.root := by
  induction grown with
  | new => exact empty
  | @grow controller now operation author compensates grown undoing checked ih =>
      refine grown.rooted.places_commit grown.sound (check_eq_ok_iff.1 checked).1 ih root ?_ leave
      intro element container unrooted absent
      exact enter _ _ element container unrooted absent ih

theorem Grown.led (grown : Grown config controller) :
    Store.Led controller.store.places controller.store.root := by
  refine grown.places_induction .empty .alone ?_ ?_
  · intro places root element container unrooted absent led
    exact led.enter unrooted absent container
  · intro places root id led
    exact led.leave id

theorem Grown.projectRooted (grown : Grown config controller) : controller.store.ProjectRooted :=
  grown.led.projects

theorem Grown.newElement_unrooted (grown : Grown config controller) :
    ∀ entry ∈ controller.history, ∀ element container edges,
      entry.operation = .newElement element container edges → element.isRoot = false := by
  refine grown.forall_entries ?_
  intro earlier now operation author compensates _ _ checked element container edges is
  obtain rfl : operation = .newElement element container edges := is
  exact (Operation.validate_newElement_eq_ok_iff.1 (check_eq_ok_iff.1 checked).1).1

/-! ## What brings in a root, and what does not -/

/-- A root is accepted exactly where there is nothing. -/
theorem check_root_iff {order : EdgeOrder} {project : Project} :
    controller.check order (.root project) = .ok () ↔ controller.store.isEmpty = true := by
  rw [check_eq_ok_iff, Operation.validate_root_eq_ok_iff, Store.isEmpty, List.isEmpty_iff]
  exact and_iff_left fun _ => rfl

/-- A project that is submitted as a new element is refused. -/
theorem submit_newElement_root {now : Occasion} {author : String} {element : Element}
    {container : Option ElementId} {edges : EdgeMap} (is_project : element.isRoot = true) :
    controller.submit now (.newElement element container edges) author =
      ⟨.error (.rootRequired element.id), controller,
        [.rejected (.newElement element container edges) (.rootRequired element.id)]⟩ := by
  apply record_of_refused
  rw [check, Operation.validate, if_pos is_project]

/-- A new element leaves the projects of the graph as they are. -/
theorem Grown.filter_isRoot_submit (grown : Grown config controller) (now : Occasion)
    (element : Element) (container : Option ElementId) (edges : EdgeMap) (author : String) :
    (controller.submit now (.newElement element container edges)
        author).controller.store.elements.filter Element.isRoot =
      controller.store.elements.filter Element.isRoot := by
  rw [submit]
  rcases record_cases grown.sound now (.newElement element container edges) author none with
    ⟨checked, next, -⟩ | ⟨same, -⟩
  · have valid := (check_eq_ok_iff.1 checked).1
    have added := Operation.added_of_validate grown.sound rfl valid
    have stays_out : ¬ element.isRoot = true :=
      Bool.eq_false_iff.1 (Operation.validate_newElement_eq_ok_iff.1 valid).1
    have places : (controller.grow now (.newElement element container edges) author
        none).store.places = controller.store.places ++ [(element, container)] := added.places
    rw [next, Store.elements_eq_map, places, List.map_append, List.filter_append,
      ← Store.elements_eq_map, List.map_singleton, List.filter_cons, if_neg stays_out]
    exact List.append_nil _
  · rw [same]

/-- The root of the graph is its one project, and nothing but a root that enters an empty graph brings
one in. -/
structure RootExclusive (controller : Controller) : Prop where
  /-- There is one project at most. -/
  unique : (controller.store.elements.filter Element.isRoot).length ≤ 1
  /-- There is a root when a project is present, and it is that project. -/
  is_project : ∀ element, controller.store.rootElement? = some element ↔
    element ∈ controller.store.elements ∧ element.isRoot = true
  /-- The root has no container and was created before all others. -/
  first : ∀ element, controller.store.rootElement? = some element →
    controller.store.containerOf? element.id = none ∧
      controller.store.elements.head? = some element
  /-- A root is accepted exactly when there is nothing. -/
  accepted : ∀ now project author,
    (∃ applied, (controller.submit now (.root project) author).result = .ok applied) ↔
      controller.store.isEmpty = true
  /-- A project is refused as a new element. -/
  refused : ∀ now element container edges author, element.isRoot = true →
    (controller.submit now (.newElement element container edges) author).result =
      .error (.rootRequired element.id)
  /-- A new element, accepted or not, leaves the projects as they are. -/
  unchanged : ∀ now element container edges author,
    (controller.submit now (.newElement element container edges)
        author).controller.store.elements.filter Element.isRoot =
      controller.store.elements.filter Element.isRoot
  /-- No new element in the history is a project. -/
  recorded : ∀ entry ∈ controller.history, ∀ element container edges,
    entry.operation = .newElement element container edges → element.isRoot = false

theorem Grown.rootExclusive (grown : Grown config controller) : controller.RootExclusive where
  unique := by
    rw [grown.led.filter_isRoot grown.sound.toPlaced]
    exact Option.length_toList_le
  is_project _ := grown.led.rootElement?_eq_some_iff grown.sound.toPlaced
  first element is := by
    obtain ⟨rest, split⟩ := grown.led.places_eq_cons grown.sound.toPlaced is
    have member : (element, none) ∈ controller.store.places := by
      rw [split]
      exact List.mem_cons_self
    refine ⟨grown.sound.toPlaced.containerOf?_of_mem member, ?_⟩
    rw [Store.elements_eq_map, split]
    rfl
  accepted now project author := (submit_accepted_iff grown.sound now.order).trans check_root_iff
  refused now element container edges author is_project := by
    rw [submit_newElement_root is_project]
  unchanged := grown.filter_isRoot_submit
  recorded := grown.newElement_unrooted

/-- **Whatever calls made a controller, its graph has one project at most, which is the root, has no
container and stands first; a root is accepted exactly when the graph is empty, and no new element is a
project.** -/
theorem rootExclusive_run (config : Config) (calls : List Call) :
    ((Controller.new config).run calls).RootExclusive :=
  (grown_run config calls).rootExclusive

/-- A method that nothing holds outlives the root, and no other root comes in beside it. -/
example :
    (((Controller.new .default).run
        [.apply .epoch (.root ⟨.ofNat 1, "demo", "demo", ""⟩),
         .apply .epoch (.newElement (.method ⟨.ofNat 2, "run"⟩) none .empty),
         .apply .epoch (.removeElement (.ofNat 1) true)]).submit .epoch
      (.root ⟨.ofNat 3, "again", "again", ""⟩) "someone").result = .error (.storeNotEmpty 1) :=
  rfl

end Controller

end LanguageGraph
