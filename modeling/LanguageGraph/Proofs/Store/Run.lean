/-
# Proofs.Store.Run — every graph that changes can make is sound

A graph changes by single steps and by committed operations, validated or not. A refused step leaves
the store as it is; a commit that is refused half-way keeps the steps before the refused one. Each step
keeps a store sound (`Sound.step`), hence so does each commit (`Sound.perform`) and each run of changes
from the empty graph (`sound_run`).
-/
import LanguageGraph.Operation.Commit
import LanguageGraph.Proofs.Store.Contents
import LanguageGraph.Proofs.Store.Growth

namespace LanguageGraph

set_option autoImplicit false

/-- A change of a graph by a single step, or by an operation that nobody validated. -/
inductive Change where
  | step (step : Step)
  | commit (operation : Operation)

namespace Store

def after (store : Store) : Change → Store
  | .step step =>
      match store.step step with
      | .ok next => next
      | .error _ => store
  | .commit operation => (operation.commit store).2

def run (store : Store) (changes : List Change) : Store :=
  changes.foldl after store

theorem run_append (store : Store) (first second : List Change) :
    store.run (first ++ second) = (store.run first).run second :=
  List.foldl_append

variable {store : Store}

theorem sound_empty : Store.empty.Sound where
  nodup := List.nodup_nil
  nested := by
    intro before element container after split
    cases before <;> cases split
  children _ := rfl
  sound _ member := by cases member
  below _ member := by cases member
  apart _ member := by cases member
  present _ member := by cases member
  incoming _ _ _ := rfl

/-- Adding an edge is linking it, where both ends are present. -/
theorem step_addEdge_eq_ok_iff {source destination : ElementId} {edgeType : EdgeType}
    {next : Store} :
    store.step (.addEdge source edgeType destination) = .ok next ↔
      store.checkEdge source destination = .ok () ∧
        store.link source edgeType destination = next := by
  rw [step, addEdge]
  cases store.checkEdge source destination <;> simp [Except.map]

theorem step_remove_eq_ok_iff {id : ElementId} {cascade : Bool} {next : Store} :
    store.step (.remove id cascade) = .ok next ↔
      store.checkRemove id cascade = .ok () ∧
        (detachAll (store.contents id) store).2 = next := by
  rw [step, remove]
  cases store.checkRemove id cascade <;> simp [Except.map]

theorem perform_cons_eq_ok_iff {step : Step} {steps : List Step} {final : Store} :
    store.perform (step :: steps) = (.ok (), final) ↔
      ∃ next, store.step step = .ok next ∧ next.perform steps = (.ok (), final) := by
  rw [perform]
  cases store.step step <;> simp

theorem perform_singleton_eq_ok_iff {step : Step} {final : Store} :
    store.perform [step] = (.ok (), final) ↔ store.step step = .ok final := by
  rw [perform_cons_eq_ok_iff]
  simp [perform]

theorem Sound.step (sound : store.Sound) {step : Step} {next : Store}
    (done : store.step step = .ok next) : next.Sound := by
  cases step with
  | add element container =>
      obtain ⟨checked, rfl⟩ := add_eq_ok_iff.1 done
      exact sound.insert checked
  | addEdge source edgeType destination =>
      obtain ⟨checked, rfl⟩ := step_addEdge_eq_ok_iff.1 done
      exact sound.link checked edgeType
  | removeEdge source edgeType destination => exact sound.removeEdge done
  | removeStamped source edgeType destination stamp => exact sound.removeStamped done
  | remove id cascade =>
      obtain ⟨checked, rfl⟩ := step_remove_eq_ok_iff.1 done
      exact sound.detachAll
        (sound.toPlaced.childrenFirst_contents (checkRemove_contains checked))

theorem Sound.perform (sound : store.Sound) (steps : List Step) : (store.perform steps).2.Sound := by
  induction steps generalizing store with
  | nil => exact sound
  | cons step steps ih =>
      unfold Store.perform
      cases done : store.step step with
      | error refusal => exact sound
      | ok next => exact ih (sound.step done)

theorem Sound.after (sound : store.Sound) (change : Change) : (store.after change).Sound := by
  cases change with
  | step step =>
      rw [Store.after]
      cases done : store.step step with
      | error refusal => exact sound
      | ok next => exact sound.step done
  | commit operation => exact sound.perform operation.steps

theorem Sound.run (sound : store.Sound) (changes : List Change) : (store.run changes).Sound := by
  induction changes generalizing store with
  | nil => exact sound
  | cons change changes ih => exact ih (sound.after change)

theorem sound_run (changes : List Change) : (Store.empty.run changes).Sound :=
  sound_empty.run changes

end Store

end LanguageGraph
