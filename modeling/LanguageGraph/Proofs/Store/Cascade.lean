/-
# Proofs.Store.Cascade — what a cascade leaves

To take an element out of a graph is to filter: its place goes, its links and entries go, and what stays
keeps its order (`Sound.cleared_without`). Filtering by one element after the other is filtering by all of
them (`Cleared.trans`), so what a cascade leaves depends on which elements it takes out and not on the
order in which it does (`Sound.cleared_contents`). The order matters on the way only: an element is taken
out when nothing is left in it.
-/
import LanguageGraph.Proofs.Store.Forest

namespace LanguageGraph

set_option autoImplicit false

namespace Store

/-- One store is another without some elements. -/
structure Cleared (gone : List ElementId) (store cleared : Store) : Prop where
  places : cleared.places = store.places.filter fun place => place.1.id ∉ gone
  links : ∀ id edgeType, cleared.links id edgeType =
    if id ∈ gone then [] else (store.links id edgeType).filter fun link => link.1 ∉ gone
  childrenOf : ∀ id, cleared.childrenOf id =
    if id ∈ gone then [] else (store.childrenOf id).filter fun child => child ∉ gone
  referrers : ∀ id, cleared.referrers id =
    if id ∈ gone then [] else (store.referrers id).filter fun edge => edge.1 ∉ gone
  root : cleared.root = store.root.filter fun id => id ∉ gone
  nextStamp : cleared.nextStamp = store.nextStamp

variable {store cleared : Store} {gone gone' : List ElementId} {id : ElementId}

/-! ## One after the other -/

/-- Filtering by some elements and then by others is filtering by all. -/
theorem filter_not_mem_append {α : Type} (key : α → ElementId) (gone gone' : List ElementId)
    (values : List α) :
    (values.filter fun value => key value ∉ gone).filter (fun value => key value ∉ gone') =
      values.filter fun value => key value ∉ gone ++ gone' := by
  rw [List.filter_filter]
  apply List.filter_congr
  intro value _
  simp only [List.mem_append, not_or, Bool.decide_and, Bool.and_comm]

/-- What is left under an identity after two rounds. -/
theorem ite_filter_append {α : Type} (key : α → ElementId) (gone gone' : List ElementId)
    (id : ElementId) (values : List α) :
    (if id ∈ gone' then []
      else (if id ∈ gone then [] else values.filter fun value => key value ∉ gone).filter
        fun value => key value ∉ gone') =
      if id ∈ gone ++ gone' then [] else values.filter fun value => key value ∉ gone ++ gone' := by
  by_cases first : id ∈ gone
  · rw [if_pos first, if_pos (List.mem_append_left gone' first), List.filter_nil, ite_self]
  · by_cases second : id ∈ gone'
    · rw [if_pos second, if_pos (List.mem_append_right gone second)]
    · rw [if_neg first, if_neg second, filter_not_mem_append,
        if_neg fun either => (List.mem_append.1 either).elim first second]

theorem Cleared.refl (store : Store) : Cleared [] store store where
  places := by simp
  links := by simp
  childrenOf := by simp
  referrers := by simp
  root := by cases store.root <;> rfl
  nextStamp := rfl

theorem Cleared.trans {first second third : Store} (out : Cleared gone first second)
    (out' : Cleared gone' second third) : Cleared (gone ++ gone') first third where
  places := by
    rw [out'.places, out.places]
    exact filter_not_mem_append (fun place : Element × Option ElementId => place.1.id) _ _ _
  links id edgeType := by rw [out'.links, out.links, ite_filter_append]
  childrenOf id := by
    rw [out'.childrenOf, out.childrenOf]
    exact ite_filter_append (fun child => child) gone gone' id (first.childrenOf id)
  referrers id := by rw [out'.referrers, out.referrers, ite_filter_append]
  root := by
    rw [out'.root, out.root, Option.filter_filter]
    congr 1
    funext id
    simp only [List.mem_append, not_or, Bool.decide_and]
  nextStamp := out'.nextStamp.trans out.nextStamp

/-- Which elements were taken out matters, and not how they are listed. -/
theorem Cleared.congr (out : Cleared gone store cleared) (same : ∀ id, id ∈ gone ↔ id ∈ gone') :
    Cleared gone' store cleared where
  places := by simpa only [same] using out.places
  links := by simpa only [same] using out.links
  childrenOf := by simpa only [same] using out.childrenOf
  referrers := by simpa only [same] using out.referrers
  root := by simpa only [same] using out.root
  nextStamp := out.nextStamp

/-- Edges are links without their stamps, so they are filtered as these are. -/
theorem Cleared.edges (out : Cleared gone store cleared) (linked : store.Linked)
    (linked' : cleared.Linked) (id : ElementId) (edgeType : EdgeType) :
    cleared.edges id edgeType =
      if id ∈ gone then []
      else (store.edges id edgeType).filter fun destination => destination ∉ gone := by
  rw [← linked.map_fst_links, ← linked'.map_fst_links, out.links]
  split
  · rfl
  · rw [List.filter_map]
    rfl

theorem Sound.cleared_without (sound : store.Sound) {slot : Slot} (member : slot ∈ store.slots) :
    Cleared [slot.id] store (store.without slot) where
  places := by
    rw [sound.places_without member]
    simp only [List.mem_singleton]
  links id edgeType := by
    rw [sound.links_without member]
    simp only [List.mem_singleton]
  childrenOf id := by
    rw [sound.toPlaced.childrenOf_without member]
    simp only [List.mem_singleton]
  referrers id := by
    rw [sound.referrers_without member]
    simp only [List.mem_singleton]
  root := by
    show (if store.root = some slot.id then none else store.root) = _
    cases store.root with
    | none => rfl
    | some id =>
        by_cases is : id = slot.id <;> simp [Option.filter, is]
  nextStamp := rfl

/-- Taking out elements that are present, what they hold before them, leaves the graph without them. -/
theorem Sound.cleared_detachAll (sound : store.Sound) (sorted : store.ChildrenFirst gone)
    (nodup : gone.Nodup) (present : ∀ id ∈ gone, store.contains id = true) :
    Cleared gone store (Store.detachAll gone store).2 := by
  induction gone generalizing store with
  | nil => exact .refl store
  | cons id gone ih =>
      rw [List.nodup_cons] at nodup
      rw [List.forall_mem_cons] at present
      obtain ⟨slot, found⟩ := slot?_of_contains present.1
      have member := mem_of_slot? found
      obtain rfl := id_of_slot? found
      unfold Store.detachAll
      rw [found]
      refine (sound.cleared_without member).trans
        (ih (sound.without member sorted.childless)
          (sound.toPlaced.childrenFirst_without member sorted) nodup.2 ?_)
      intro other listed
      rw [sound.contains_without member, present.2 other listed]
      exact decide_eq_true fun same => nodup.1 (same ▸ listed)

/-! ## The contents of an element -/

theorem Placed.contains_of_contents (placed : store.Placed) (there : store.contains id = true)
    {other : ElementId} (inside : other ∈ store.contents id) : store.contains other = true := by
  rcases Relation.ReflTransGen.cases_head ((placed.mem_contents_iff there).1 inside) with
    rfl | ⟨container, held, -⟩
  · exact there
  · exact placed.contains_child (placed.mem_childrenOf_iff.2 held)

/-- Removing an element with its contents leaves the graph without what lies in it. -/
theorem Sound.cleared_contents (sound : store.Sound) (there : store.contains id = true) :
    Cleared (store.contents id) store (Store.detachAll (store.contents id) store).2 :=
  sound.cleared_detachAll (sound.toPlaced.childrenFirst_contents there)
    (sound.nodup_contents there) fun _ inside => sound.toPlaced.contains_of_contents there inside

end Store

end LanguageGraph
