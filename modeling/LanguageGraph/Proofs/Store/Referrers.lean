/-
# Proofs.Store.Referrers — the order of the entries in the index of incoming edges

As a multiset the index is determined by the edges; its order is a matter of history. A new edge stands
behind the others of its destination (`referrers_link`), and of equal entries the latest goes
(`referrers_unlinkAt`). So entries that are appended and taken out again leave the order in front of them
alone; and when an element is taken out, the entries of all others keep their order
(`Sound.referrers_without`).
-/
import LanguageGraph.Proofs.Store.Detach
import LanguageGraph.Proofs.Store.Growth

namespace LanguageGraph

set_option autoImplicit false

namespace Store

variable {store : Store}

/-! ## One edge -/

theorem referrers_link (store : Store) (source : ElementId) (edgeType : EdgeType)
    (destination other : ElementId) :
    (store.link source edgeType destination).referrers other =
      store.referrers other ++ if destination = other then [(source, edgeType)] else [] := by
  show (store.incoming.push destination (source, edgeType)).get other = _
  rw [Multimap.get_push]
  by_cases here : other = destination
  · rw [if_pos here, if_pos here.symm, here]
    rfl
  · rw [if_neg here, if_neg (Ne.symm here), List.append_nil]
    rfl

theorem referrers_unlinkAt (store : Store) (source : ElementId) (edgeType : EdgeType)
    (destination : ElementId) (index : Nat) (other : ElementId) :
    (store.unlinkAt source edgeType destination index).referrers other =
      if destination = other then eraseLast (source, edgeType) (store.referrers other)
      else store.referrers other := by
  show (store.incoming.update destination (eraseLast (source, edgeType))).get other = _
  rw [Multimap.get_update]
  by_cases here : other = destination
  · rw [if_pos here, if_pos here.symm, here]
    rfl
  · rw [if_neg here, if_neg (Ne.symm here)]
    rfl

/-! ## All edges of an element -/

/-- Forgetting edges of one source takes their entries out one after the other. -/
theorem get_forgetIncoming_foldl (id : ElementId) (edges : List (EdgeType × ElementId))
    (incoming : Multimap ElementId (ElementId × EdgeType)) (destination : ElementId) :
    (edges.foldl (fun incoming edge => forgetIncoming incoming id edge.1 edge.2) incoming).get
        destination =
      eraseEach ((edges.filter fun edge => edge.2 = destination).map fun edge => (id, edge.1))
        (incoming.get destination) := by
  induction edges generalizing incoming with
  | nil => rfl
  | cons edge edges ih =>
      rw [List.foldl_cons, ih, forgetIncoming, Multimap.get_update, List.filter_cons]
      by_cases here : edge.2 = destination
      · have listed : decide (edge.2 = destination) = true := decide_eq_true here
        rw [if_pos here.symm, if_pos listed, here]
        rfl
      · have unlisted : ¬ decide (edge.2 = destination) = true := fun is =>
          here (of_decide_eq_true is)
        rw [if_neg (Ne.symm here), if_neg unlisted]

/-- Taking an element out takes out its entries; all others keep their order. -/
theorem Sound.referrers_without (sound : store.Sound) {slot : Slot} (member : slot ∈ store.slots)
    (destination : ElementId) :
    (store.without slot).referrers destination =
      if destination = slot.id then []
      else (store.referrers destination).filter fun edge => edge.1 ≠ slot.id := by
  show ((store.incomingBeside slot).erase slot.id).get destination = _
  rw [Multimap.get_erase]
  split
  · rfl
  · -- What is left has no entry of the element, and what went were its entries only.
    have none_left : ∀ edge ∈ (store.incomingBeside slot).get destination,
        decide (edge.1 ≠ slot.id) = true := by
      rintro ⟨source, edgeType⟩ left
      apply decide_eq_true
      intro mine
      have counted := List.count_pos_iff.2 left
      rw [sound.count_incomingBeside member, if_pos mine] at counted
      exact absurd counted (Nat.lt_irrefl 0)
    have mine_gone : ∀ edge ∈ (slot.edges.pairs.filter fun edge => edge.2 = destination).map
        (fun edge => (slot.id, edge.1)), decide (edge.1 ≠ slot.id) = false := by
      intro edge gone
      obtain ⟨_, _, rfl⟩ := List.mem_map.1 gone
      exact decide_eq_false fun other => other rfl
    rw [← List.filter_eq_self.2 none_left, incomingBeside, get_forgetIncoming_foldl]
    exact filter_eraseEach mine_gone _

end Store

end LanguageGraph
