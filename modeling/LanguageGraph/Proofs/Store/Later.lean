/-
# Proofs.Store.Later — an edge that is gone does not come back

Stamps are never given out twice. So whatever steps lead from one store to a later one, an edge there
whose stamp the earlier store had already given out stood in the earlier store (`Later`). Read the other
way round: an edge that is still there at the end was there all the time since it was added. This holds
of single steps, of commits that stop half-way, and so of any changes (`Sound.later_run`).
-/
import LanguageGraph.Proofs.Store.Run

namespace LanguageGraph

set_option autoImplicit false

namespace Store

/-- Stamps go up, and edges with old stamps are old edges. -/
structure Later (earlier later : Store) : Prop where
  nextStamp : earlier.nextStamp ≤ later.nextStamp
  links : ∀ id edgeType, ∀ link ∈ later.links id edgeType,
    link.2.number < earlier.nextStamp → link ∈ earlier.links id edgeType

variable {store : Store}

theorem Later.refl (store : Store) : Later store store :=
  ⟨Nat.le_refl _, fun _ _ _ there _ => there⟩

theorem Later.trans {first second third : Store} (later : Later first second)
    (later' : Later second third) : Later first third where
  nextStamp := Nat.le_trans later.nextStamp later'.nextStamp
  links id edgeType link there old :=
    later.links id edgeType link
      (later'.links id edgeType link there (Nat.lt_of_lt_of_le old later.nextStamp)) old

/-- Without a new stamp and without a new link nothing can come back. -/
theorem Later.of_subset {earlier later : Store} (nextStamp : later.nextStamp = earlier.nextStamp)
    (links : ∀ id edgeType, later.links id edgeType ⊆ earlier.links id edgeType) :
    Later earlier later :=
  ⟨Nat.le_of_eq nextStamp.symm, fun id edgeType _ there _ => links id edgeType there⟩

theorem Linked.later_link (linked : store.Linked) {source : ElementId}
    (there : store.contains source = true) (edgeType : EdgeType) (destination : ElementId) :
    Later store (store.link source edgeType destination) where
  nextStamp := Nat.le_succ _
  links id edgeType' link member old := by
    rw [linked.links_link there] at member
    rcases List.mem_append.1 member with earlier | new
    · exact earlier
    · split at new
      · rw [List.mem_singleton.1 new] at old
        exact absurd old (Nat.lt_irrefl _)
      · cases new

theorem Linked.later_unlinkAt (linked : store.Linked) (source : ElementId) (edgeType : EdgeType)
    (destination : ElementId) (index : Nat) :
    Later store (store.unlinkAt source edgeType destination index) := by
  refine .of_subset rfl fun id edgeType' => ?_
  rw [linked.links_unlinkAt]
  split
  · rename_i same
    rw [same.1, same.2]
    exact List.eraseIdx_subset
  · exact List.Subset.refl _

theorem Sound.later_without (sound : store.Sound) {slot : Slot} (member : slot ∈ store.slots) :
    Later store (store.without slot) := by
  refine .of_subset rfl fun id edgeType => ?_
  rw [sound.links_without member]
  split
  · exact List.nil_subset _
  · exact List.filter_sublist.subset

theorem Sound.later_detachAll (sound : store.Sound) {ids : List ElementId}
    (sorted : store.ChildrenFirst ids) : Later store (Store.detachAll ids store).2 :=
  sound.detachAll_induction sorted (.refl store) fun _ _ between member _ later =>
    later.trans (between.later_without member)

theorem Sound.later_step (sound : store.Sound) {step : Step} {next : Store}
    (done : store.step step = .ok next) : Later store next := by
  cases step with
  | add element container =>
      obtain ⟨-, rfl⟩ := add_eq_ok_iff.1 done
      refine .of_subset rfl fun id edgeType => ?_
      rw [links_insert]
      exact List.Subset.refl _
  | addEdge source edgeType destination =>
      obtain ⟨checked, rfl⟩ := step_addEdge_eq_ok_iff.1 done
      exact sound.toLinked.later_link (checkEdge_eq_ok_iff.1 checked).1 edgeType destination
  | removeEdge source edgeType destination =>
      obtain ⟨index, -, rfl⟩ := removeEdge_eq_ok_iff.1 done
      exact sound.toLinked.later_unlinkAt source edgeType destination index
  | removeStamped source edgeType destination stamp =>
      obtain ⟨index, -, rfl⟩ := (removeStamped_eq_ok_iff sound.toLinked).1 done
      exact sound.toLinked.later_unlinkAt source edgeType destination index
  | remove id cascade =>
      obtain ⟨checked, rfl⟩ := step_remove_eq_ok_iff.1 done
      exact sound.later_detachAll
        (sound.toPlaced.childrenFirst_contents (checkRemove_contains checked))

/-- Whatever steps are performed, an edge with an old stamp is an old edge. -/
theorem Sound.later_perform (sound : store.Sound) (steps : List Step) :
    Later store (store.perform steps).2 := by
  induction steps generalizing store with
  | nil => exact .refl store
  | cons step steps ih =>
      unfold Store.perform
      cases done : store.step step with
      | error refusal => exact .refl store
      | ok next => exact (sound.later_step done).trans (ih (sound.step done))

theorem Sound.later_after (sound : store.Sound) (change : Change) :
    Later store (store.after change) := by
  cases change with
  | step step =>
      rw [Store.after]
      cases done : store.step step with
      | error refusal => exact .refl store
      | ok next => exact sound.later_step done
  | commit operation => exact sound.later_perform operation.steps

/-- Whatever changes are made, an edge with an old stamp is an old edge. -/
theorem Sound.later_run (sound : store.Sound) (changes : List Change) :
    Later store (store.run changes) := by
  induction changes generalizing store with
  | nil => exact .refl store
  | cons change changes ih => exact (sound.later_after change).trans (ih (sound.after change))

end Store

end LanguageGraph
