/-
# Proofs.Operation.Congruence — operations do not tell equal graphs apart

Two graphs that are the same may have come about in different ways, with other stamps, another order of
elements and other orders in both indices. An operation that names no stamps is checked by reads in which
all this does not show, and is committed in steps that name no stamps. So it is accepted by both graphs or
refused by both for the same reason, and whether it was checked or not, what it leaves of the one is the
same as what it leaves of the other (`congruent_of_same`). Only which of several missing edges is named
may differ, and that no more than it may from one check of one graph to the next.
-/
import LanguageGraph.Proofs.Operation.Thinning
import LanguageGraph.Proofs.Store.Alike

namespace LanguageGraph

set_option autoImplicit false

namespace Operation

variable {operation : Operation}

/-- The steps of an operation name stamps only when the operation does. -/
theorem steps_unstamped (unstamped : operation.stamps = []) :
    ∀ step ∈ operation.steps, step.stamp? = none := by
  intro step member
  cases operation with
  | root project =>
      rw [List.mem_singleton.1 member]
      rfl
  | newElement element container edges =>
      rcases List.mem_cons.1 member with rfl | later
      · rfl
      · obtain ⟨edge, -, rfl⟩ := List.mem_map.1 later
        rfl
  | newEdge source edges =>
      obtain ⟨edge, -, rfl⟩ := List.mem_map.1 member
      rfl
  | removeElement id cascade =>
      rw [List.mem_singleton.1 member]
      rfl
  | removeEdge source edges stamps =>
      have none_named : stamps = [] := unstamped
      rw [none_named] at member
      obtain ⟨edge, -, rfl⟩ := List.mem_map.1 member
      rfl

end Operation

namespace Store

/-- No read and no operation without stamps tells two stores apart. -/
structure Congruent (first second : Store) : Prop where
  reads : ReadsAlike first second
  validate : ∀ (order : EdgeOrder) (operation : Operation), operation.stamps = [] →
    operation.validate order first = operation.validate order second
  verdict : ∀ (order order' : EdgeOrder) (operation : Operation), operation.stamps = [] →
    operation.SameVerdict first (operation.validate order first) (operation.validate order' second)
  commit : ∀ operation : Operation, operation.stamps = [] →
    (operation.commit first).1 = (operation.commit second).1 ∧
      (operation.commit first).2.same (operation.commit second).2 = true

variable {first second : Store}

namespace Alike

theorem checkDestinations (alike : Alike first second) (introduced : Option ElementId)
    (edges : EdgeMap) :
    Operation.checkDestinations first introduced edges =
      Operation.checkDestinations second introduced edges := by
  simp only [Operation.checkDestinations, alike.contains]

theorem checkCounts (alike : Alike first second) (order : EdgeOrder) (source : ElementId)
    (edges : EdgeMap) :
    Operation.checkCounts order first source edges =
      Operation.checkCounts order second source edges := by
  have missing (edge : EdgeType × ElementId) :
      decide (Operation.Missing first source edges edge) =
        decide (Operation.Missing second source edges edge) := by
    rw [decide_eq_decide, Operation.Missing, Operation.Missing, alike.edges]
  simp only [Operation.checkCounts, missing]

/-- An operation that names no stamps is accepted by both, or refused by both for the same reason. -/
theorem validate (alike : Alike first second) (sound : first.Sound) (sound' : second.Sound)
    (order : EdgeOrder) {operation : Operation} (unstamped : operation.stamps = []) :
    operation.validate order first = operation.validate order second := by
  have placed := sound.toPlaced
  have placed' := sound'.toPlaced
  cases operation with
  | root project =>
      rw [Operation.validate, Operation.validate, alike.isEmpty, alike.checkAdd placed placed',
        alike.size]
  | newElement element container edges =>
      rw [Operation.validate, Operation.validate, alike.checkAdd placed placed',
        alike.checkDestinations]
  | newEdge source edges =>
      rw [Operation.validate, Operation.validate, alike.contains, alike.checkDestinations]
  | removeElement id cascade => exact alike.checkRemove sound sound' id cascade
  | removeEdge source edges stamps =>
      have none_named : stamps = [] := unstamped
      rw [Operation.validate, Operation.validate, none_named, alike.contains, alike.checkCounts]
      rfl

theorem commit (alike : Alike first second) (sound : first.Sound) (sound' : second.Sound)
    {operation : Operation} (unstamped : operation.stamps = []) :
    (operation.commit first).1 = (operation.commit second).1 ∧
      Alike (operation.commit first).2 (operation.commit second).2 :=
  alike.perform sound sound' (Operation.steps_unstamped unstamped)

theorem congruent (alike : Alike first second) (sound : first.Sound) (sound' : second.Sound) :
    Congruent first second where
  reads := alike.reads sound sound'
  validate order _ unstamped := alike.validate sound sound' order unstamped
  verdict order order' operation unstamped := by
    rw [← alike.validate sound sound' order' unstamped]
    exact Operation.sameVerdict_validate order order' operation first
  commit operation unstamped := by
    obtain ⟨answer, still⟩ := alike.commit sound sound' unstamped
    have left : (operation.commit first).2.Sound := sound.perform operation.steps
    have left' : (operation.commit second).2.Sound := sound'.perform operation.steps
    exact ⟨answer, (left.same_iff_alike left').2 still⟩

end Alike

/-- **Two graphs that are the same, whatever changes made each of them, answer every read alike up to the
order of lists, and every operation that names no stamps is accepted by both or refused by both for the
same reason, but for which missing edge is named in which order, and leaves both the same.** -/
theorem congruent_of_same (changes changes' : List Change)
    (same : (Store.empty.run changes).same (Store.empty.run changes') = true) :
    Congruent (Store.empty.run changes) (Store.empty.run changes') :=
  ((sound_run changes).alike_of_same same).congruent (sound_run changes) (sound_run changes')

/-- A library with two classes, the second with edges to both and a repeated one to itself. -/
def classesInOrder : List Change :=
  [.commit (.root ⟨.ofNat 1, "demo", "demo", ""⟩),
   .step (.add (.library ⟨.ofNat 2, "core"⟩) (some (.ofNat 1))),
   .step (.add (.clazz ⟨.ofNat 3, "List"⟩) (some (.ofNat 2))),
   .step (.add (.clazz ⟨.ofNat 4, "Array"⟩) (some (.ofNat 2))),
   .commit (.newEdge (.ofNat 4)
     (.ofDestinations .typeOf [.ofNat 3, .ofNat 4, .ofNat 4, .ofNat 2]))]

/-- The same, with the second class first and an edge that does not stay. -/
def classesSwapped : List Change :=
  [.commit (.root ⟨.ofNat 1, "demo", "demo", ""⟩),
   .step (.add (.library ⟨.ofNat 2, "core"⟩) (some (.ofNat 1))),
   .commit (.newElement (.clazz ⟨.ofNat 4, "Array"⟩) (some (.ofNat 2)) .empty),
   .commit (.newElement (.clazz ⟨.ofNat 3, "List"⟩) (some (.ofNat 2))
     (.ofDestinations .typeOf [.ofNat 4])),
   .commit (.newEdge (.ofNat 4)
     (.ofDestinations .typeOf [.ofNat 3, .ofNat 4, .ofNat 4, .ofNat 2])),
   .step (.removeStamped (.ofNat 3) .typeOf (.ofNat 4) ⟨0⟩)]

/-- The children of the library and the stamps differ, and the graphs are the same to any operation. -/
theorem congruent_of_same_classes :
    (Store.empty.run classesInOrder).childrenOf (.ofNat 2) = [.ofNat 3, .ofNat 4] ∧
      (Store.empty.run classesSwapped).childrenOf (.ofNat 2) = [.ofNat 4, .ofNat 3] ∧
      (Store.empty.run classesInOrder).nextStamp ≠ (Store.empty.run classesSwapped).nextStamp ∧
      Congruent (Store.empty.run classesInOrder) (Store.empty.run classesSwapped) :=
  ⟨rfl, rfl, by decide, congruent_of_same classesInOrder classesSwapped rfl⟩

end Store

end LanguageGraph
