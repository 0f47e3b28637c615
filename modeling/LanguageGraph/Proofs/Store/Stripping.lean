/-
# Proofs.Store.Stripping — a graph from which some edges were taken out

Edges taken out by their stamps leave everything else in place (`Stripped`), so the order in which they
are taken out cannot be told from what is left. And a graph from which edges were taken out is the graph
in which they were never added, but for the stamps of the others (`Stripped.same`).
-/
import LanguageGraph.Proofs.Store.Thinning

namespace LanguageGraph

set_option autoImplicit false

namespace Store

/-- One store is another without the edges that carry some stamps. -/
structure Stripped (stamps : List EdgeStamp) (store stripped : Store) : Prop where
  places : stripped.places = store.places
  root : stripped.root = store.root
  links : ∀ id edgeType, stripped.links id edgeType =
    (store.links id edgeType).filter fun link => link.2 ∉ stamps

namespace Stripped

variable {stamps stamps' : List EdgeStamp} {first second third : Store}

theorem refl (store : Store) : Stripped [] store store where
  places := rfl
  root := rfl
  links _ _ :=
    (List.filter_eq_self.2 fun link _ => decide_eq_true (List.not_mem_nil (a := link.2))).symm

theorem trans (stripped : Stripped stamps first second) (stripped' : Stripped stamps' second third) :
    Stripped (stamps ++ stamps') first third where
  places := stripped'.places.trans stripped.places
  root := stripped'.root.trans stripped.root
  links id edgeType := by
    rw [stripped'.links, stripped.links, List.filter_filter]
    refine List.filter_congr fun link _ => ?_
    simp only [List.mem_append, not_or, Bool.decide_and, Bool.and_comm]

/-- Only which stamps there are matters, not their order. -/
theorem congr (stripped : Stripped stamps first second)
    (same : ∀ stamp, stamp ∈ stamps ↔ stamp ∈ stamps') : Stripped stamps' first second where
  places := stripped.places
  root := stripped.root
  links id edgeType := by
    rw [stripped.links]
    exact List.filter_congr fun link _ => decide_eq_decide.2 (not_congr (same link.2))

theorem contains (stripped : Stripped stamps first second) (id : ElementId) :
    second.contains id = first.contains id :=
  contains_of_places stripped.places id

theorem mem_links (stripped : Stripped stamps first second) {id : ElementId} {edgeType : EdgeType}
    {link : ElementId × EdgeStamp} :
    link ∈ second.links id edgeType ↔ link ∈ first.links id edgeType ∧ link.2 ∉ stamps := by
  rw [stripped.links, List.mem_filter, decide_eq_true_iff]

/-- Removing listed edges by their stamps takes these edges out and nothing else. -/
theorem perform {store final : Store} (sound : store.Sound) {source : ElementId}
    {listed : List ((EdgeType × ElementId) × EdgeStamp)}
    (done : store.perform (listed.map fun edge =>
      .removeStamped source edge.1.1 edge.1.2 edge.2) = (.ok (), final)) :
    Stripped (listed.map Prod.snd) store final := by
  induction listed generalizing store with
  | nil =>
      cases done
      exact .refl _
  | cons edge listed ih =>
      obtain ⟨next, removed, rest⟩ := perform_cons_eq_ok_iff.1 done
      have one_less : Stripped [edge.2] store next := by
        obtain ⟨index, here, rfl⟩ := (removeStamped_eq_ok_iff sound.toLinked).1 removed
        refine ⟨places_unlinkAt .., rfl, fun id edgeType => ?_⟩
        rw [sound.toLinked.links_unlinkAt_eq_filter here]
        refine List.filter_congr fun link _ => decide_eq_decide.2 ?_
        rw [List.mem_singleton]
      exact one_less.trans (ih (sound.removeStamped removed) rest)

/-- **Taking edges out is never having added them.** -/
theorem same {full thin stripped : Store} (out : Stripped stamps full stripped)
    (never : Thinned stamps full thin) (sound : thin.Sound) (sound' : stripped.Sound) :
    thin.same stripped = true ∧
      ∀ id edgeType, thin.edges id edgeType = stripped.edges id edgeType := by
  have edges : ∀ id edgeType, thin.edges id edgeType = stripped.edges id edgeType := by
    intro id edgeType
    rw [← sound.toLinked.map_fst_links, ← sound'.toLinked.map_fst_links, never.links, out.links,
      thinned, List.map_map]
    rfl
  exact ⟨same_of_edges sound sound' (.of_eq (never.places.trans out.places.symm))
    (never.root.trans out.root.symm) edges, edges⟩

end Stripped

end Store

end LanguageGraph
