/-
# Proofs.Store.Root — the root is present

A store names its root by identity. Whatever is done to a store that starts empty, the element with that
identity is there: it becomes the root as it enters, and when it is taken out there is no root any more.
-/
import LanguageGraph.Proofs.Store.Run

namespace LanguageGraph

set_option autoImplicit false

namespace Store

/-- What is named as the root is present. -/
def Rooted (store : Store) : Prop :=
  ∀ id, store.root = some id → store.contains id = true

variable {store : Store}

theorem rooted_empty : Store.empty.Rooted := by
  intro id root
  cases root

theorem Rooted.insert (rooted : store.Rooted) (element : Element) (container : Option ElementId) :
    (store.insert element container).Rooted := by
  intro id root
  rw [contains_insert, Bool.or_eq_true, decide_eq_true_iff]
  have entering : (if element.isRoot && container.isNone && store.root.isNone then some element.id
      else store.root) = some id := root
  split at entering
  · exact .inr (Option.some.inj entering)
  · exact .inl (rooted id entering)

/-- Where only edges change, the root stays. -/
theorem Rooted.of_places {next : Store} (rooted : store.Rooted)
    (places : next.places = store.places) (root : next.root = store.root) : next.Rooted := by
  intro id is
  rw [contains_of_places places]
  exact rooted id (root ▸ is)

theorem Rooted.without (rooted : store.Rooted) (sound : store.Sound) {slot : Slot}
    (member : slot ∈ store.slots) : (store.without slot).Rooted := by
  intro id root
  have leaving : (if store.root = some slot.id then none else store.root) = some id := root
  split at leaving
  · cases leaving
  · rename_i other
    have unlike : id ≠ slot.id := fun same => other (same ▸ leaving)
    rw [sound.contains_without member, rooted id leaving]
    exact decide_eq_true unlike

theorem Rooted.step (rooted : store.Rooted) (sound : store.Sound) {step : Step} {next : Store}
    (done : store.step step = .ok next) : next.Rooted := by
  cases step with
  | add element container =>
      obtain ⟨-, rfl⟩ := add_eq_ok_iff.1 done
      exact rooted.insert element container
  | addEdge source edgeType destination =>
      obtain ⟨-, rfl⟩ := step_addEdge_eq_ok_iff.1 done
      exact rooted.of_places (places_link store source edgeType destination) rfl
  | removeEdge source edgeType destination =>
      obtain ⟨index, -, rfl⟩ := removeEdge_eq_ok_iff.1 done
      exact rooted.of_places (places_unlinkAt store source edgeType destination index) rfl
  | removeStamped source edgeType destination stamp =>
      obtain ⟨index, -, rfl⟩ := (removeStamped_eq_ok_iff sound.toLinked).1 done
      exact rooted.of_places (places_unlinkAt store source edgeType destination index) rfl
  | remove id cascade =>
      obtain ⟨checked, rfl⟩ := step_remove_eq_ok_iff.1 done
      have sorted := sound.toPlaced.childrenFirst_contents (checkRemove_contains checked)
      exact sound.detachAll_induction sorted rooted fun _ _ between member _ still =>
        still.without between member

theorem Rooted.perform (rooted : store.Rooted) (sound : store.Sound) (steps : List Step) :
    (store.perform steps).2.Rooted := by
  induction steps generalizing store with
  | nil => exact rooted
  | cons step steps ih =>
      unfold Store.perform
      cases done : store.step step with
      | error refusal => exact rooted
      | ok next => exact ih (rooted.step sound done) (sound.step done)

end Store

end LanguageGraph
