/-
# Proofs.Operation.Commit — an operation that passes its checks is committed whole

The checks look at one store, while a commit changes the store from step to step. What a check found
still holds when its turn comes:

* added edges find their ends, since linking takes nothing away (`perform_addEdges`);
* unstamped removals find enough equal edges, since each takes one of those it was counted for
  (`perform_removeEdges_iff`, which is why the count is exact);
* stamped removals find their stamps, since taking one stamp out moves the others but leaves them
  beside their destinations (`perform_removeStamped`).

Hence `commit_of_validate`, for every sound store.
-/
import LanguageGraph.Proofs.Operation.Validation
import LanguageGraph.Proofs.Store.Run

namespace LanguageGraph

set_option autoImplicit false

namespace Store

variable {store : Store} {source : ElementId}

/-! ## Adding edges -/

theorem perform_addEdges (there : store.contains source = true)
    {edges : List (EdgeType × ElementId)} (present : ∀ edge ∈ edges, store.contains edge.2 = true) :
    ∃ final, store.perform (edges.map fun edge => .addEdge source edge.1 edge.2) =
      (.ok (), final) := by
  induction edges generalizing store with
  | nil => exact ⟨store, rfl⟩
  | cons edge edges ih =>
      rw [List.forall_mem_cons] at present
      have linked : store.step (.addEdge source edge.1 edge.2) =
          .ok (store.link source edge.1 edge.2) :=
        step_addEdge_eq_ok_iff.2 ⟨checkEdge_eq_ok_iff.2 ⟨there, present.1⟩, rfl⟩
      obtain ⟨final, done⟩ := @ih (store.link source edge.1 edge.2)
        (by rwa [contains_link])
        (fun other member => by rw [contains_link]; exact present.2 other member)
      exact ⟨final, perform_cons_eq_ok_iff.2 ⟨_, linked, done⟩⟩

/-- Every added edge gets a stamp of its own. -/
theorem nextStamp_of_perform_addEdges {edges : List (EdgeType × ElementId)} {final : Store}
    (done : store.perform (edges.map fun edge => .addEdge source edge.1 edge.2) =
      (.ok (), final)) :
    final.nextStamp = store.nextStamp + edges.length := by
  induction edges generalizing store with
  | nil =>
      cases done
      rfl
  | cons edge edges ih =>
      obtain ⟨next, first, rest⟩ := perform_cons_eq_ok_iff.1 done
      obtain ⟨-, rfl⟩ := step_addEdge_eq_ok_iff.1 first
      have counted : final.nextStamp = store.nextStamp + 1 + edges.length := ih rest
      rw [counted, List.length_cons]
      omega

/-! ## Removing the latest of equal edges -/

/-- One edge less is one less of its kind, and as many of every other. -/
theorem count_edges_unlinkAt {edgeType : EdgeType} {destination : ElementId} {index : Nat}
    (there : (store.edges source edgeType)[index]? = some destination)
    (edge : EdgeType × ElementId) :
    ((store.unlinkAt source edgeType destination index).edges source edge.1).count edge.2 =
      (store.edges source edge.1).count edge.2 -
        if edge = (edgeType, destination) then 1 else 0 := by
  obtain ⟨edgeType', destination'⟩ := edge
  rw [edges_unlinkAt]
  by_cases typed : edgeType' = edgeType
  · subst typed
    rw [if_pos ⟨rfl, rfl⟩, count_eraseIdx there]
    by_cases here : destination' = destination
    · rw [if_pos here, if_pos (by rw [here])]
    · rw [if_neg here, if_neg fun pair => here (Prod.mk.inj pair).2]
  · rw [if_neg fun both => typed both.2, if_neg fun pair => typed (Prod.mk.inj pair).1]
    rfl

/-- Listed edges can be removed one after the other exactly when there are enough of each. -/
theorem perform_removeEdges_iff {edges : List (EdgeType × ElementId)} :
    (∃ final, store.perform (edges.map fun edge => .removeEdge source edge.1 edge.2) =
        (.ok (), final)) ↔
      ∀ edge, edges.count edge ≤ (store.edges source edge.1).count edge.2 := by
  induction edges generalizing store with
  | nil => exact ⟨fun _ _ => Nat.zero_le _, fun _ => ⟨store, rfl⟩⟩
  | cons edge edges ih =>
      obtain ⟨edgeType, destination⟩ := edge
      -- Each removal takes one edge of its kind, so the count is exact in both directions.
      constructor
      · rintro ⟨final, done⟩ other
        obtain ⟨next, removed, rest⟩ := perform_cons_eq_ok_iff.1 done
        obtain ⟨index, found, rfl⟩ := removeEdge_eq_ok_iff.1 removed
        have there := getElem?_lastIndexOf? found
        have enough := ih.1 ⟨final, rest⟩ other
        rw [count_edges_unlinkAt there] at enough
        have some_there : 0 < (store.edges source edgeType).count destination :=
          List.count_pos_iff.2 (List.mem_of_getElem? there)
        rw [count_cons_ite]
        by_cases same : other = (edgeType, destination)
        · subst same
          rw [if_pos rfl] at enough ⊢
          dsimp only at enough ⊢
          omega
        · rw [if_neg same] at enough ⊢
          omega
      · intro enough
        have first := enough (edgeType, destination)
        rw [count_cons_ite, if_pos rfl] at first
        obtain ⟨index, found⟩ := exists_lastIndexOf? (List.count_pos_iff.1
          (Nat.lt_of_lt_of_le (Nat.succ_pos _) first))
        have there := getElem?_lastIndexOf? found
        obtain ⟨final, rest⟩ := ih.2 fun other => by
          have before := enough other
          rw [count_cons_ite] at before
          rw [count_edges_unlinkAt there]
          exact Nat.le_sub_of_add_le before
        exact ⟨final, perform_cons_eq_ok_iff.2
          ⟨_, removeEdge_eq_ok_iff.2 ⟨index, found, rfl⟩, rest⟩⟩

/-! ## Removing edges by their stamps -/

theorem perform_removeStamped (sound : store.Sound)
    {listed : List ((EdgeType × ElementId) × EdgeStamp)} (nodup : (listed.map Prod.snd).Nodup)
    (beside : ∀ edge ∈ listed, (edge.1.2, edge.2) ∈ store.links source edge.1.1) :
    ∃ final, store.perform (listed.map fun edge =>
      .removeStamped source edge.1.1 edge.1.2 edge.2) = (.ok (), final) := by
  induction listed generalizing store with
  | nil => exact ⟨store, rfl⟩
  | cons edge listed ih =>
      rw [List.map_cons, List.nodup_cons] at nodup
      rw [List.forall_mem_cons] at beside
      obtain ⟨index, here⟩ := List.mem_iff_getElem?.1 beside.1
      have removed := (removeStamped_eq_ok_iff sound.toLinked).2 ⟨index, here, rfl⟩
      obtain ⟨final, rest⟩ := ih (sound.removeStamped removed) nodup.2 fun other member => by
        rw [sound.toLinked.links_unlinkAt_eq_filter here]
        refine List.mem_filter.2 ⟨beside.2 other member, decide_eq_true fun same => nodup.1 ?_⟩
        exact same ▸ List.mem_map_of_mem member
      exact ⟨final, perform_cons_eq_ok_iff.2 ⟨_, removed, rest⟩⟩

end Store

namespace Operation

variable {order : EdgeOrder} {store : Store}

/-- Edges with as many stamps go by their stamps, also when there are none. -/
theorem steps_removeEdge_stamped {source : ElementId} {edges : EdgeMap} {stamps : List EdgeStamp}
    (length : stamps.length = edges.size) :
    (removeEdge source edges stamps).steps = (edges.pairs.zip stamps).map fun edge =>
      .removeStamped source edge.1.1 edge.1.2 edge.2 := by
  rw [steps]
  split
  · rename_i unstamped
    rw [List.isEmpty_iff.1 unstamped] at length ⊢
    rw [List.length_eq_zero_iff.1 length.symm]
    rfl
  · rfl

/-- **An operation that a sound store accepts is committed to its last step.** -/
theorem commit_of_validate (sound : store.Sound) {operation : Operation}
    (valid : operation.validate order store = .ok ()) :
    ∃ final, operation.commit store = (.ok (), final) := by
  cases operation with
  | root project =>
      have checked := Store.checkAdd_of_empty (validate_root_eq_ok_iff.1 valid) (.project project)
      exact ⟨_, Store.perform_singleton_eq_ok_iff.2 (Store.add_eq_ok_iff.2 ⟨checked, rfl⟩)⟩
  | newElement element container edges =>
      obtain ⟨-, checked, destinations⟩ := validate_newElement_eq_ok_iff.1 valid
      have present := checkDestinations_eq_ok_iff.1 destinations
      obtain ⟨final, rest⟩ := @Store.perform_addEdges (store.insert element container)
        element.id (by simp [Store.contains_insert]) edges.pairs fun edge member => by
          rw [Store.contains_insert, Bool.or_eq_true, decide_eq_true_iff]
          exact (present edge member).symm.imp_right Option.some.inj
      exact ⟨final, Store.perform_cons_eq_ok_iff.2 ⟨_, Store.add_eq_ok_iff.2 ⟨checked, rfl⟩, rest⟩⟩
  | newEdge source edges =>
      obtain ⟨there, destinations⟩ := validate_newEdge_eq_ok_iff.1 valid
      refine Store.perform_addEdges there fun edge member => ?_
      exact (checkDestinations_eq_ok_iff.1 destinations edge member).resolve_left (by simp)
  | removeElement id cascade =>
      exact ⟨_, Store.perform_singleton_eq_ok_iff.2
        (Store.step_remove_eq_ok_iff.2 ⟨valid, rfl⟩)⟩
  | removeEdge source edges stamps =>
      obtain ⟨-, ⟨rfl, counted⟩ | ⟨-, length, checked⟩⟩ := validate_removeEdge_eq_ok_iff.1 valid
      · exact Store.perform_removeEdges_iff.2 (checkCounts_eq_ok_iff.1 counted)
      · obtain ⟨nodup, -, beside⟩ := (checkStamped_eq_ok_iff sound.toLinked).1 checked
        rw [commit, steps_removeEdge_stamped length]
        exact Store.perform_removeStamped sound nodup beside

end Operation

end LanguageGraph
