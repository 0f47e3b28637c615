/-
# Proofs.Controller.Progress — what is accepted changes the graph, unless it lists nothing

An accepted operation leaves a mark that stamps and the order of creation do not hide: an element that was
absent is present or the other way round, or an element has more edges or fewer
(`Operation.isIdle_of_alike`).

There is one way to get nothing done. Operations on edges are checked edge by edge, so one that lists no
edge is refused for none, and performs no step (`Operation.commit_of_isIdle`). Such an operation can be read
from a text. A call accepts it, and the history gets an entry to which nothing in the graph corresponds
(`progress_run`).
-/
import LanguageGraph.Proofs.Controller.Run
import LanguageGraph.Proofs.Operation.Codec
import LanguageGraph.Proofs.Operation.EdgeRemoval
import LanguageGraph.Proofs.Store.Alike

namespace LanguageGraph

set_option autoImplicit false

namespace Operation

/-- Whether an operation is on edges and lists none. -/
def isIdle : Operation → Bool
  | root _ => false
  | newElement _ _ _ => false
  | newEdge _ edges => edges.pairs.isEmpty
  | removeElement _ _ => false
  | removeEdge _ edges _ => edges.pairs.isEmpty

variable {order : EdgeOrder} {operation : Operation} {store : Store} {source : ElementId} {edges : EdgeMap}
  {stamps : List EdgeStamp}

/-- An operation on no edges has no step, whether it is accepted or not. -/
theorem commit_of_isIdle (idle : operation.isIdle = true) (store : Store) :
    operation.commit store = (.ok (), store) := by
  have no_steps : operation.steps = [] := by
    cases operation with
    | root project => cases idle
    | newElement element container edges => cases idle
    | newEdge source edges => simpa [steps, isIdle] using idle
    | removeElement id cascade => cases idle
    | removeEdge source edges stamps =>
        have none_listed : edges.pairs = [] := List.isEmpty_iff.1 idle
        simp [steps, none_listed]
  rw [commit, no_steps]
  rfl

/-! ## Marks that operations leave -/

theorem not_alike_of_place (sound : store.Sound) (valid : operation.validate order store = .ok ())
    {place : Element × Option ElementId} (declared : operation.place? = some place) :
    ¬ Store.Alike (operation.commit store).2 store := by
  intro alike
  have introduced := introduced?_of_place? declared
  have added := added_of_validate sound (isAddition_of_place? declared) valid
  have there := added.there_iff.2 (.inr introduced)
  rw [alike.contains, absent_of_validate valid introduced] at there
  cases there

theorem pairs_eq_nil_of_added (sound : store.Sound)
    (valid : (newEdge source edges).validate order store = .ok ())
    (alike : Store.Alike ((newEdge source edges).commit store).2 store) : edges.pairs = [] := by
  have sound' : ((newEdge source edges).commit store).2.Sound := sound.perform _
  rw [List.eq_nil_iff_forall_not_mem]
  intro edge listed
  have longer := (added_of_validate sound rfl valid).edges sound.toLinked sound'.toLinked source edge.1
  rw [alike.edges, List.self_eq_append_right] at longer
  have new : edge.2 ∈ destinationsAmong source edge.1 (newEdge source edges).addedEdges :=
    mem_destinationsAmong.2 (List.mem_map_of_mem listed)
  rw [longer] at new
  cases new

theorem not_alike_of_removeElement (sound : store.Sound) {id : ElementId} {cascade : Bool}
    (valid : (removeElement id cascade).validate order store = .ok ()) :
    ¬ Store.Alike ((removeElement id cascade).commit store).2 store := by
  intro alike
  have there := Store.checkRemove_contains valid
  have cleared := sound.cleared_contents there
  have inside : id ∈ store.contents id := (sound.toPlaced.mem_contents_iff there).2 .refl
  rw [commit_removeElement valid] at alike
  rw [← alike.contains, Store.contains_iff_ids, cleared.places] at there
  obtain ⟨place, left, rfl⟩ := List.mem_map.1 there
  exact of_decide_eq_true (List.mem_filter.1 left).2 inside

theorem pairs_eq_nil_of_removed (sound : store.Sound)
    (valid : (removeEdge source edges stamps).validate order store = .ok ())
    (alike : Store.Alike ((removeEdge source edges stamps).commit store).2 store) :
    edges.pairs = [] := by
  have sound' : ((removeEdge source edges stamps).commit store).2.Sound := sound.perform _
  obtain ⟨taken, length, out, beside⟩ := unlinked_of_validate sound valid
  rw [List.eq_nil_iff_forall_not_mem]
  intro edge listed
  rw [← List.map_fst_zip (Nat.le_of_eq length.symm)] at listed
  obtain ⟨taking, inZip, rfl⟩ := List.mem_map.1 listed
  -- The source has as many edges as before, so its links pass the filter, also the one that is gone.
  have as_many := congrArg List.length (alike.edges source taking.1.1)
  rw [← sound'.toLinked.map_fst_links, ← sound.toLinked.map_fst_links, List.length_map,
    List.length_map, out.links, List.length_filter_eq_length_iff] at as_many
  have stays := as_many _ (beside taking inZip)
  exact of_decide_eq_true stays (List.mem_map_of_mem inZip)

/-- **An accepted operation leaves another graph, unless it lists nothing.** -/
theorem isIdle_of_alike (sound : store.Sound) (valid : operation.validate order store = .ok ())
    (alike : Store.Alike (operation.commit store).2 store) : operation.isIdle = true := by
  cases operation with
  | root project => exact absurd alike (not_alike_of_place sound valid rfl)
  | newElement element container edges => exact absurd alike (not_alike_of_place sound valid rfl)
  | newEdge source edges => exact List.isEmpty_iff.2 (pairs_eq_nil_of_added sound valid alike)
  | removeElement id cascade => exact absurd alike (not_alike_of_removeElement sound valid)
  | removeEdge source edges stamps =>
      exact List.isEmpty_iff.2 (pairs_eq_nil_of_removed sound valid alike)

theorem same_commit_iff (sound : store.Sound) (valid : operation.validate order store = .ok ()) :
    (operation.commit store).2.same store = true ↔ operation.isIdle = true := by
  have sound' : (operation.commit store).2.Sound := sound.perform _
  constructor
  · intro same
    exact isIdle_of_alike sound valid (sound'.alike_of_same same)
  · intro idle
    rw [commit_of_isIdle idle]
    exact Store.same_of_edges sound sound (.refl _) rfl fun _ _ => rfl

end Operation

namespace Controller

/-- **Whatever calls made a controller, a call that is accepted changes the graph, unless the operation
of its entry lists nothing; then the graph is left exactly as it was.** -/
theorem progress_run (config : Config) (calls : List Call) (call : Call) (applied : Applied)
    (accepted : (((Controller.new config).run calls).call call).result = .ok applied) :
    let before := (Controller.new config).run calls
    let after := (before.call call).controller
    ∃ entry, after.history = before.history ++ [entry] ∧
      (after.store.same before.store = true ↔ entry.operation.isIdle = true) ∧
      (entry.operation.isIdle = true → after.store = before.store) := by
  intro before after
  have sound : before.store.Sound := (grown_run config calls).sound
  rcases call_cases sound call with
    ⟨now, operation, author, compensates, -, checked, grown, -⟩ | ⟨-, refusal, refused⟩
  · have valid := (check_eq_ok_iff.1 checked).1
    have is : after = before.grow now operation author compensates := grown
    rw [is]
    refine ⟨_, rfl, Operation.same_commit_iff sound valid, fun idle => ?_⟩
    exact congrArg Prod.snd (Operation.commit_of_isIdle idle before.store)
  · rw [refused] at accepted
    cases accepted

/-- An edge from the root to itself makes another graph. -/
theorem progress_run_selfEdge :
    let before := (Controller.new .default).run
      [.apply .epoch (.root ⟨.ofNat 1, "demo", "demo", ""⟩)]
    let outcome := before.call
      (.submit .epoch (.newEdge (.ofNat 1) (.ofDestinations .typeOf [.ofNat 1])) "someone")
    outcome.result = .ok ⟨2, []⟩ ∧ outcome.controller.store.same before.store = false := by
  intro before outcome
  have accepted : outcome.result = .ok ⟨2, []⟩ := rfl
  obtain ⟨entry, grown, mark, -⟩ := progress_run .default _ _ _ accepted
  cases grown
  exact ⟨accepted, Bool.eq_false_iff.2 (mt mark.1 (by decide))⟩

/-- An operation that adds no edges can be read from a text. It is accepted and gets an entry, and the
graph is the same as before. -/
theorem progress_listless :
    let before := (Controller.new .default).run
      [.apply .epoch (.root ⟨.ofNat 1, "demo", "demo", ""⟩)]
    let operation := Operation.newEdge (.ofNat 1) (.ofDestinations .typeOf [])
    let outcome := before.call (.apply .epoch operation)
    Operation.ofText? operation.toJson.text = some operation ∧
      outcome.result = .ok ⟨2, []⟩ ∧
      outcome.controller.history.length = before.history.length + 1 ∧
      outcome.controller.store.same before.store = true := by
  intro before operation outcome
  have plain : operation.toJson.plain = true :=
    Operation.plain_toJson fun stamp named => by cases named
  exact ⟨Operation.ofText?_of_json _ operation (Json.ofText?_text plain), rfl, rfl, rfl⟩

end Controller

end LanguageGraph
