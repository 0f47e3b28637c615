/-
# Proofs.Store.Removal — what removing an element does

Removing an element with its contents takes out the elements in and below it, each once, and tells them
contents first (`PostOrder`). What the other elements keep can be read off without knowing how the removal
went about it (`Pruned`): their values, containers and order; their edges and stamps but for those of
edges that led into what went; and the lists of both indices without the entries of what went
(`cascade_run`).

Removing an element alone is refused in one case, that another element depends on it
(`Sound.checkRemove_eq_hasDependents_iff`). The check reads the two indices, which agree with the elements
after whatever changes, so what was removed earlier neither blocks a removal nor lets one pass. Otherwise
the element goes by itself, and no other slot changes (`remove_alone_run`).
-/
import LanguageGraph.Proofs.Store.Cascade

namespace LanguageGraph

set_option autoImplicit false

namespace Store

/-- What an element holds directly, found by a scan of all elements. -/
def scanHeldBy (store : Store) (id : ElementId) : List ElementId :=
  (store.elements.map Element.id).filter fun child => store.containerOf? child = some id

/-- An element and what lies in it: first all that it holds, one after the other in the order of creation
and each with its own contents before it, and then the element. -/
inductive PostOrder (store : Store) : ElementId → List ElementId → Prop where
  | node {id : ElementId} (below : ElementId → List ElementId)
      (held : ∀ child ∈ store.scanHeldBy id, PostOrder store child (below child)) :
      PostOrder store id ((store.scanHeldBy id).flatMap below ++ [id])

/-- To all reads, one graph is another without some elements. -/
structure Pruned (gone : List ElementId) (store pruned : Store) : Prop where
  /-- The other elements stay as they are, in their order. -/
  elements : pruned.elements = store.elements.filter fun element => element.id ∉ gone
  containerOf? : ∀ id, id ∉ gone → pruned.containerOf? id = store.containerOf? id
  /-- An edge goes with its destination. -/
  edges : ∀ id, id ∉ gone → ∀ edgeType, pruned.edges id edgeType =
    (store.edges id edgeType).filter fun destination => destination ∉ gone
  /-- A stamp goes with its edge. -/
  edgeStamps : ∀ id, id ∉ gone → ∀ edgeType, pruned.edgeStamps id edgeType =
    (((store.edges id edgeType).zip (store.edgeStamps id edgeType)).filter
      fun link => link.1 ∉ gone).map Prod.snd
  childrenOf : ∀ id, id ∉ gone → pruned.childrenOf id =
    (store.childrenOf id).filter fun child => child ∉ gone
  referrers : ∀ id, id ∉ gone → pruned.referrers id =
    (store.referrers id).filter fun edge => edge.1 ∉ gone
  root : pruned.root = if ∃ id ∈ gone, store.root = some id then none else store.root
  nextStamp : pruned.nextStamp = store.nextStamp

/-- Another present element has this one as its container or as the destination of an edge. -/
def HasDependents (store : Store) (id : ElementId) : Prop :=
  ∃ other, other ≠ id ∧ store.contains other = true ∧
    (store.containerOf? other = some id ∨ ∃ edgeType, id ∈ store.edges other edgeType)

variable {store cleared : Store} {gone : List ElementId} {id other : ElementId}

/-! ## The removed elements -/

theorem Placed.postOrder_contents (placed : store.Placed) (there : store.contains id = true) :
    store.PostOrder id (store.contents id) := by
  induction id using placed.descends.induction with
  | _ id ih =>
      have scan : store.childrenOf id = store.scanHeldBy id := placed.childrenOf_eq_scan id
      rw [placed.contents_eq there, scan]
      refine .node store.contents fun child held => ?_
      rw [← scan] at held
      exact ih child held (placed.contains_child held)

theorem get?_of_slot? {slot : Slot} (found : store.slot? id = some slot) :
    store.get? id = some slot.element :=
  Option.map_eq_some_iff.2 ⟨slot, found, rfl⟩

/-- An element that stays when another one is taken out keeps its value. -/
theorem Sound.get?_without (sound : store.Sound) {slot : Slot} (member : slot ∈ store.slots)
    (stays : other ≠ slot.id) : (store.without slot).get? other = store.get? other := by
  rw [Store.get?, sound.slot?_without member, if_neg stays, Option.map_map, Store.get?]
  exact Option.map_congr fun found _ => Slot.element_dropEdgesTo slot.id

/-- Taking elements out tells of each what was stored. -/
theorem Sound.removed_detachAll (sound : store.Sound) (sorted : store.ChildrenFirst gone)
    (nodup : gone.Nodup) (present : ∀ id ∈ gone, store.contains id = true) :
    (Store.detachAll gone store).1.map some = gone.map store.get? := by
  induction gone generalizing store with
  | nil => rfl
  | cons id gone ih =>
      rw [List.nodup_cons] at nodup
      rw [List.forall_mem_cons] at present
      obtain ⟨slot, found⟩ := slot?_of_contains present.1
      have member := mem_of_slot? found
      obtain rfl := id_of_slot? found
      have unlike : ∀ other ∈ gone, other ≠ slot.id := fun other listed same =>
        nodup.1 (same ▸ listed)
      have rest := ih (sound.without member sorted.childless)
        (sound.toPlaced.childrenFirst_without member sorted) nodup.2 fun other listed => by
          simp [sound.contains_without member, present.2 other listed, unlike other listed]
      have same : gone.map (store.without slot).get? = gone.map store.get? :=
        List.map_congr_left fun other listed => sound.get?_without member (unlike other listed)
      unfold Store.detachAll
      rw [found, List.map_cons, List.map_cons, get?_of_slot? found, rest, same]

theorem map_id_of_map_some {elements : List Element} {ids : List ElementId}
    (told : elements.map some = ids.map store.get?) : elements.map Element.id = ids := by
  have each : ∀ id element, store.get? id = some element → element.id = id := by
    intro id element got
    obtain ⟨slot, found, rfl⟩ := Option.map_eq_some_iff.1 got
    exact id_of_slot? found
  induction elements generalizing ids with
  | nil => simpa using told
  | cons element elements ih =>
      cases ids with
      | nil => cases told
      | cons id ids =>
          obtain ⟨first, rest⟩ := List.cons.inj told
          rw [List.map_cons, each id element first.symm, ih rest]

/-! ## What is left -/

theorem Cleared.containerOf? (out : Cleared gone store cleared) (stays : id ∉ gone) :
    cleared.containerOf? id = store.containerOf? id := by
  rw [containerOf?_eq_find, containerOf?_eq_find, out.places, List.find?_filter]
  congr 2
  funext place
  by_cases here : place.1.id = id
  · simp [here, stays]
  · simp [here]

theorem Cleared.elements (out : Cleared gone store cleared) :
    cleared.elements = store.elements.filter fun element => element.id ∉ gone := by
  rw [elements_eq_map, elements_eq_map, out.places, List.filter_map]
  rfl

/-- What is left can be told by reads. -/
theorem Cleared.pruned (out : Cleared gone store cleared) (linked : store.Linked)
    (linked' : cleared.Linked) : Pruned gone store cleared where
  elements := out.elements
  containerOf? _ stays := out.containerOf? stays
  edges id stays edgeType := by rw [out.edges linked linked', if_neg stays]
  edgeStamps id stays edgeType := by
    rw [← linked'.map_snd_links, out.links, if_neg stays, zip_edges_edgeStamps]
  childrenOf id stays := by rw [out.childrenOf, if_neg stays]
  referrers id stays := by rw [out.referrers, if_neg stays]
  root := by
    rw [out.root]
    cases store.root with
    | none => simp
    | some root => by_cases inside : root ∈ gone <;> simp [inside]
  nextStamp := out.nextStamp

/-- **Removing a present element with its contents succeeds, whatever changes made the graph. It tells
the element and what lies in it, each once and contents first, and leaves the graph without them.** -/
theorem cascade_run (changes : List Change) (id : ElementId)
    (there : (Store.empty.run changes).contains id = true) :
    let store := Store.empty.run changes
    ∃ gone removed left, store.remove id true = .ok (removed, left) ∧
      removed.map some = gone.map store.get? ∧
      removed.map Element.id = gone ∧
      store.PostOrder id gone ∧
      gone.Nodup ∧
      (∀ other, other ∈ gone ↔ Relation.ReflTransGen store.LiesIn other id) ∧
      Pruned gone store left := by
  intro store
  have sound : store.Sound := sound_run changes
  have placed := sound.toPlaced
  have checked : store.checkRemove id true = .ok () := checkRemove_eq_ok_iff.2 ⟨there, .inl rfl⟩
  have sorted := placed.childrenFirst_contents there
  have nodup := sound.nodup_contents there
  have told := sound.removed_detachAll sorted nodup fun _ inside =>
    placed.contains_of_contents there inside
  refine ⟨store.contents id, (Store.detachAll (store.contents id) store).1,
    (Store.detachAll (store.contents id) store).2, ?_, told, map_id_of_map_some told,
    placed.postOrder_contents there, nodup, fun other => placed.mem_contents_iff there, ?_⟩
  · rw [Store.remove, checked]
  · exact (sound.cleared_contents there).pruned sound.toLinked (sound.detachAll sorted).toLinked

/-- A library with two classes; the first has a method, the second a note. Edges lead within the library,
out of it and, repeated, into it. -/
def libraryOfTwo : List Change :=
  [.commit (.root ⟨.ofNat 1, "demo", "demo", ""⟩),
   .step (.add (.library ⟨.ofNat 2, "core"⟩) (some (.ofNat 1))),
   .step (.add (.clazz ⟨.ofNat 3, "List"⟩) (some (.ofNat 2))),
   .step (.add (.clazz ⟨.ofNat 4, "Array"⟩) (some (.ofNat 2))),
   .commit (.newElement (.method ⟨.ofNat 5, "size"⟩) (some (.ofNat 3))
     (.ofDestinations .typeOf [.ofNat 4, .ofNat 5, .ofNat 1])),
   .step (.add (.comment ⟨.ofNat 6, "to do", "someone", .epoch⟩) (some (.ofNat 4))),
   .commit (.newElement (.comment ⟨.ofNat 7, "see", "someone", .epoch⟩) (some (.ofNat 1))
     (.ofDestinations .typeOf [.ofNat 5, .ofNat 1, .ofNat 5, .ofNat 7]))]

/-- The library goes with all that is in it, and of the four edges of the note on the project two stay. -/
theorem cascade_run_libraryOfTwo :
    (Store.empty.run libraryOfTwo).contains (.ofNat 2) = true ∧
      ∃ removed left, (Store.empty.run libraryOfTwo).remove (.ofNat 2) true = .ok (removed, left) ∧
        removed.map Element.id = [.ofNat 5, .ofNat 3, .ofNat 6, .ofNat 4, .ofNat 2] ∧
        (Store.empty.run libraryOfTwo).PostOrder (.ofNat 2) (removed.map Element.id) ∧
        Pruned (removed.map Element.id) (Store.empty.run libraryOfTwo) left ∧
        left.edges (.ofNat 7) .typeOf = [.ofNat 1, .ofNat 7] ∧
        left.edgeStamps (.ofNat 7) .typeOf = [⟨4⟩, ⟨6⟩] := by
  obtain ⟨gone, removed, left, done, -, rfl, sorted, -, -, pruned⟩ :=
    cascade_run libraryOfTwo (.ofNat 2) rfl
  obtain ⟨rfl, rfl⟩ := Prod.mk.inj (Except.ok.inj done)
  exact ⟨rfl, _, _, rfl, rfl, sorted, pruned, rfl, rfl⟩

/-! ## Removing an element alone -/

theorem not_hasDependents_iff : ¬ store.HasDependents id ↔ store.NoDependents id := by
  constructor
  · intro none_depends other unlike
    cases there : store.contains other with
    | true =>
        refine ⟨fun held => ?_, fun edgeType refers => ?_⟩
        · exact none_depends ⟨other, unlike, there, .inl held⟩
        · exact none_depends ⟨other, unlike, there, .inr ⟨edgeType, refers⟩⟩
    | false =>
        -- What is not present has neither a container nor edges.
        refine ⟨fun held => ?_, fun edgeType refers => ?_⟩
        · rw [Store.containerOf?, slot?_eq_none there] at held
          cases held
        · rw [edges_of_absent there] at refers
          cases refers
  · rintro free ⟨other, unlike, -, held | ⟨edgeType, refers⟩⟩
    · exact (free other unlike).1 held
    · exact (free other unlike).2 edgeType refers

/-- The removal of a present element is refused for one reason only. -/
theorem checkRemove_alone_cases (there : store.contains id = true) :
    store.checkRemove id false = .ok () ∨
      store.checkRemove id false = .error (.hasDependents id) := by
  unfold checkRemove
  rw [there]
  cases (store.childrenOf id).isEmpty && (store.referrers id).all fun edge => edge.1 = id with
  | true => exact .inl rfl
  | false => exact .inr rfl

/-- **The check refuses to remove a present element alone exactly when another one depends on it.** -/
theorem Sound.checkRemove_eq_hasDependents_iff (sound : store.Sound)
    (there : store.contains id = true) :
    store.checkRemove id false = .error (.hasDependents id) ↔ store.HasDependents id := by
  rw [← not_iff_not, not_hasDependents_iff]
  have passes : store.checkRemove id false = .ok () ↔
      store.contains id = true ∧ store.NoDependents id := sound.checkRemove_alone_iff
  rcases checkRemove_alone_cases there with ok | refused
  · rw [ok] at passes ⊢
    simpa [there] using passes.1 rfl
  · rw [refused] at passes ⊢
    simpa [there] using passes

/-- Removing is refused when its check is, and for the same reason. -/
theorem remove_eq_error_iff {cascade : Bool} {refusal : Refusal} :
    store.remove id cascade = .error refusal ↔ store.checkRemove id cascade = .error refusal := by
  rw [remove]
  cases store.checkRemove id cascade <;> simp

/-- **Whatever changes made a graph, removing a present element alone is refused exactly when another
element is in it or has an edge to it. Otherwise that element goes, with its entries in the indices, and
every other one keeps its slot.** -/
theorem remove_alone_run (changes : List Change) (id : ElementId)
    (there : (Store.empty.run changes).contains id = true) :
    let store := Store.empty.run changes
    (store.checkRemove id false = .error (.hasDependents id) ↔ store.HasDependents id) ∧
      (store.remove id false = .error (.hasDependents id) ↔ store.HasDependents id) ∧
      (¬ store.HasDependents id →
        ∃ element left, store.get? id = some element ∧
          store.checkRemove id false = .ok () ∧
          store.remove id false = .ok ([element], left) ∧
          Plucked id store left) := by
  intro store
  have sound : store.Sound := sound_run changes
  have refused_iff := sound.checkRemove_eq_hasDependents_iff there
  refine ⟨refused_iff, remove_eq_error_iff.trans refused_iff, fun independent => ?_⟩
  have free := not_hasDependents_iff.1 independent
  have checked := sound.checkRemove_alone_iff.2 ⟨there, free⟩
  obtain ⟨slot, found⟩ := slot?_of_contains there
  have childless : store.childrenOf id = [] :=
    sound.toPlaced.childless_iff.2 fun other unlike => (free other unlike).1
  refine ⟨slot.element, store.without slot, get?_of_slot? found, checked, ?_, ?_⟩
  · rw [Store.remove, checked, contents_of_childless there childless, detachAll_singleton found]
  · obtain rfl := id_of_slot? found
    exact sound.plucked_without (mem_of_slot? found) free

/-- A class with edges to itself and out, which nothing else refers to any more, is removed alone; the
project to which it has an edge is not. -/
theorem remove_alone_run_unreferred :
    let changes : List Change :=
      [.commit (.root ⟨.ofNat 1, "demo", "demo", ""⟩),
       .commit (.newElement (.clazz ⟨.ofNat 2, "List"⟩) none
         (.ofDestinations .typeOf [.ofNat 2, .ofNat 1, .ofNat 2])),
       .commit (.newElement (.method ⟨.ofNat 3, "size"⟩) (some (.ofNat 2))
         (.ofDestinations .typeOf [.ofNat 2])),
       .step (.remove (.ofNat 3) true)]
    (Store.empty.run changes).contains (.ofNat 2) = true ∧
      (Store.empty.run changes).remove (.ofNat 1) false = .error (.hasDependents (.ofNat 1)) ∧
      ∃ left, (Store.empty.run changes).remove (.ofNat 2) false =
          .ok ([.clazz ⟨.ofNat 2, "List"⟩], left) ∧
        Plucked (.ofNat 2) (Store.empty.run changes) left ∧
        left.referrers (.ofNat 1) = [] := by
  intro changes
  have depends : (Store.empty.run changes).HasDependents (.ofNat 1) :=
    ⟨.ofNat 2, by decide, rfl, .inr ⟨.typeOf, by decide⟩⟩
  obtain ⟨-, refused_iff, -⟩ := remove_alone_run changes (.ofNat 1) rfl
  obtain ⟨checked_iff, -, removes⟩ := remove_alone_run changes (.ofNat 2) rfl
  obtain ⟨element, left, is, -, done, plucked⟩ := removes fun blocked => by
    have refused := checked_iff.2 blocked
    cases refused
  obtain rfl := Option.some.inj is
  refine ⟨rfl, refused_iff.2 depends, left, done, plucked, ?_⟩
  rw [plucked.referrers]
  rfl

end Store

end LanguageGraph
