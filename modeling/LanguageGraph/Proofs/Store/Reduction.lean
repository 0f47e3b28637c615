/-
# Proofs.Store.Reduction — a graph from which something was removed

Removing takes elements out of the order of creation and edges out of the order of addition, and leaves
what stays in these orders (`Reduced`). Neither an element nor an edge is added, and no stamp is given
out. A step that removes something drops one edge or takes out elements one by one, so what these two
keep is kept by any number of such steps, also when one is refused on the way
(`Sound.removal_induction`).
-/
import LanguageGraph.Proofs.Store.Run

namespace LanguageGraph

set_option autoImplicit false

def Step.isRemoval : Step → Bool
  | .add _ _ => false
  | .addEdge _ _ _ => false
  | .removeEdge _ _ _ => true
  | .removeStamped _ _ _ _ => true
  | .remove _ _ => true

namespace Store

/-- One store is another from which elements and edges were removed. -/
structure Reduced (store reduced : Store) : Prop where
  places : reduced.places.Sublist store.places
  nextStamp : reduced.nextStamp = store.nextStamp
  links : ∀ id edgeType, (reduced.links id edgeType).Sublist (store.links id edgeType)

variable {store : Store}

theorem Reduced.refl (store : Store) : Reduced store store :=
  ⟨List.Sublist.refl _, rfl, fun _ _ => List.Sublist.refl _⟩

theorem Reduced.trans {first second third : Store} (reduced : Reduced first second)
    (reduced' : Reduced second third) : Reduced first third where
  places := reduced'.places.trans reduced.places
  nextStamp := reduced'.nextStamp.trans reduced.nextStamp
  links id edgeType := (reduced'.links id edgeType).trans (reduced.links id edgeType)

theorem Linked.reduced_unlinkAt (linked : store.Linked) (source : ElementId) (edgeType : EdgeType)
    (destination : ElementId) (index : Nat) :
    Reduced store (store.unlinkAt source edgeType destination index) where
  places := by rw [places_unlinkAt]
  nextStamp := rfl
  links id edgeType' := by
    rw [linked.links_unlinkAt]
    split
    · rename_i same
      obtain ⟨rfl, rfl⟩ := same
      exact List.eraseIdx_sublist ..
    · exact List.Sublist.refl _

theorem Sound.reduced_without (sound : store.Sound) {slot : Slot} (member : slot ∈ store.slots) :
    Reduced store (store.without slot) where
  places := by
    rw [sound.places_without member]
    exact List.filter_sublist
  nextStamp := rfl
  links id edgeType := by
    rw [sound.links_without member]
    split
    · exact List.nil_sublist _
    · exact List.filter_sublist

/-- A step that removes something drops one edge, or elements one by one. -/
theorem Sound.removal_step_induction {motive : Store → Prop} {step : Step} {next : Store}
    (sound : store.Sound) (removal : step.isRemoval = true) (done : store.step step = .ok next)
    (start : motive store)
    (unlink : ∀ (store : Store) (source : ElementId) (edgeType : EdgeType) (destination : ElementId)
      (index : Nat), store.Sound → motive store →
        motive (store.unlinkAt source edgeType destination index))
    (without : ∀ (store : Store) (slot : Slot), store.Sound → slot ∈ store.slots →
      motive store → motive (store.without slot)) : motive next := by
  cases step with
  | add element container => cases removal
  | addEdge source edgeType destination => cases removal
  | removeEdge source edgeType destination =>
      obtain ⟨index, -, rfl⟩ := removeEdge_eq_ok_iff.1 done
      exact unlink store source edgeType destination index sound start
  | removeStamped source edgeType destination stamp =>
      obtain ⟨index, -, rfl⟩ := (removeStamped_eq_ok_iff sound.toLinked).1 done
      exact unlink store source edgeType destination index sound start
  | remove id cascade =>
      obtain ⟨checked, rfl⟩ := step_remove_eq_ok_iff.1 done
      have sorted := sound.toPlaced.childrenFirst_contents (checkRemove_contains checked)
      exact sound.detachAll_induction sorted start fun store slot between member _ =>
        without store slot between member

/-- What dropping one edge and taking out one element keep, any steps that remove something keep. -/
theorem Sound.removal_induction {motive : Store → Prop} {steps : List Step} (sound : store.Sound)
    (removals : ∀ step ∈ steps, step.isRemoval = true) (start : motive store)
    (unlink : ∀ (store : Store) (source : ElementId) (edgeType : EdgeType) (destination : ElementId)
      (index : Nat), store.Sound → motive store →
        motive (store.unlinkAt source edgeType destination index))
    (without : ∀ (store : Store) (slot : Slot), store.Sound → slot ∈ store.slots →
      motive store → motive (store.without slot)) : motive (store.perform steps).2 := by
  induction steps generalizing store with
  | nil => exact start
  | cons step steps ih =>
      rw [List.forall_mem_cons] at removals
      unfold Store.perform
      cases done : store.step step with
      | error refusal => exact start
      | ok next =>
          have first := sound.removal_step_induction removals.1 done start unlink without
          exact ih (sound.step done) removals.2 first

/-- Steps that remove something add nothing. -/
theorem Sound.reduced_perform (sound : store.Sound) {steps : List Step}
    (removals : ∀ step ∈ steps, step.isRemoval = true) :
    Reduced store (store.perform steps).2 := by
  refine sound.removal_induction removals (.refl store) ?_ ?_
  · intro between source edgeType destination index sound' reduced
    exact reduced.trans (sound'.toLinked.reduced_unlinkAt source edgeType destination index)
  · intro between slot sound' member reduced
    exact reduced.trans (sound'.reduced_without member)

end Store

end LanguageGraph
