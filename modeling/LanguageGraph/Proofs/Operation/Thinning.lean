/-
# Proofs.Operation.Thinning — operations where some edges were never added

An operation names stamps only when it removes edges by their stamps; where some edges were never added
it must name the stamps that the others have there (`Operation.among`). An operation that was accepted
and committed is then accepted in the thin store as well, and committed to the same effect
(`Store.Thinned.commit`). That fewer edges stand there does not matter to it: it removes none of the
missing ones, so there are enough of those it lists.
-/
import LanguageGraph.Proofs.Operation.Commit
import LanguageGraph.Proofs.Store.Thinning

namespace LanguageGraph

set_option autoImplicit false

namespace Operation

def stamps : Operation → List EdgeStamp
  | removeEdge _ _ stamps => stamps
  | _ => []

/-- The operation in place of this one, where dropped stamps are not given out. -/
def among (dropped : List EdgeStamp) : Operation → Operation
  | removeEdge source edges stamps => removeEdge source edges (stamps.map (EdgeStamp.among dropped))
  | operation => operation

variable {dropped : List EdgeStamp} {operation : Operation}

/-- An operation that names no stamps stays as it is. -/
theorem among_of_unstamped (unstamped : operation.stamps = []) :
    operation.among dropped = operation := by
  cases operation with
  | removeEdge source edges stamps =>
      have none_named : stamps = [] := unstamped
      rw [among, none_named, List.map_nil]
  | _ => rfl

theorem introduced?_among (dropped : List EdgeStamp) (operation : Operation) :
    (operation.among dropped).introduced? = operation.introduced? := by
  cases operation <;> rfl

theorem orphan?_among (dropped : List EdgeStamp) (operation : Operation) :
    (operation.among dropped).orphan? = operation.orphan? := by
  cases operation <;> rfl

/-- The inverse names the stamps that were given out. -/
theorem inverse?_among (dropped : List EdgeStamp) (operation : Operation)
    (stamps : List EdgeStamp) :
    (operation.among dropped).inverse? (stamps.map (EdgeStamp.among dropped)) =
      (operation.inverse? stamps).map (among dropped) := by
  cases operation <;> rfl

theorem stamps_of_inverse? {stamps : List EdgeStamp} {inverse : Operation}
    (inverted : operation.inverse? stamps = some inverse) : inverse.stamps ⊆ stamps := by
  cases operation with
  | newEdge source edges =>
      cases inverted
      exact List.Subset.refl _
  | root project =>
      cases inverted
      exact List.nil_subset _
  | newElement element container edges =>
      cases inverted
      exact List.nil_subset _
  | _ => cases inverted

theorem steps_among (dropped : List EdgeStamp) (operation : Operation) :
    (operation.among dropped).steps = operation.steps.map (Step.among dropped) := by
  cases operation with
  | root project => rfl
  | newElement element container edges =>
      simp only [among, steps, List.map_cons, List.map_map]
      rfl
  | newEdge source edges =>
      simp only [among, steps, List.map_map]
      rfl
  | removeElement id cascade => rfl
  | removeEdge source edges stamps =>
      simp only [among, steps, List.isEmpty_map]
      split
      · rw [List.map_map]
        rfl
      · rw [List.zip_map_right, List.map_map, List.map_map]
        rfl

end Operation

namespace Store.Thinned

variable {order : EdgeOrder} {dropped : List EdgeStamp} {full thin : Store}

theorem checkDestinations (related : Thinned dropped full thin) {introduced : Option ElementId}
    {edges : EdgeMap}
    (checked : Operation.checkDestinations full introduced edges = .ok ()) :
    Operation.checkDestinations thin introduced edges = .ok () := by
  rw [Operation.checkDestinations_eq_ok_iff] at checked ⊢
  intro edge member
  rw [related.contains]
  exact checked edge member

/-- Stamps that are not dropped stay apart and beside their destinations. -/
theorem checkStamped (related : Thinned dropped full thin) (linked : full.Linked)
    (linked' : thin.Linked) {source : ElementId}
    {listed : List ((EdgeType × ElementId) × EdgeStamp)}
    (kept : ∀ edge ∈ listed, edge.2 ∉ dropped)
    (checked : Operation.checkStamped full source [] listed = .ok ()) :
    Operation.checkStamped thin source []
      (listed.map fun edge => (edge.1, edge.2.among dropped)) = .ok () := by
  obtain ⟨nodup, -, beside⟩ := (Operation.checkStamped_eq_ok_iff linked).1 checked
  refine (Operation.checkStamped_eq_ok_iff linked').2 ⟨?_, fun _ _ => List.not_mem_nil, ?_⟩
  · have stamps : (listed.map fun edge => (edge.1, edge.2.among dropped)).map Prod.snd =
        (listed.map Prod.snd).map (EdgeStamp.among dropped) := by
      rw [List.map_map, List.map_map]
      rfl
    rw [stamps]
    refine nodup.map_on fun first member second member' same => ?_
    obtain ⟨edge, inListed, rfl⟩ := List.mem_map.1 member
    obtain ⟨edge', inListed', rfl⟩ := List.mem_map.1 member'
    exact EdgeStamp.among_inj (kept edge inListed) (kept edge' inListed') same
  · refine List.forall_mem_map.2 fun edge member => ?_
    rw [related.links]
    exact mem_thinned_of_kept (beside edge member) (kept edge member)

/-- A removal of edges that the full store accepts, the thin store accepts, when unstamped edges can be
removed there one after the other. -/
theorem validate_removeEdge (related : Thinned dropped full thin) (linked : full.Linked)
    (linked' : thin.Linked) {source : ElementId} {edges : EdgeMap} {stamps : List EdgeStamp}
    (valid : (Operation.removeEdge source edges stamps).validate order full = .ok ())
    (kept : ∀ stamp ∈ stamps, stamp ∉ dropped)
    (enough : stamps.isEmpty = true → ∃ final, thin.perform
      (edges.pairs.map fun edge => .removeEdge source edge.1 edge.2) = (.ok (), final)) :
    (Operation.removeEdge source edges (stamps.map (EdgeStamp.among dropped))).validate order thin =
      .ok () := by
  obtain ⟨there, ⟨rfl, -⟩ | ⟨stamped, length, checked⟩⟩ :=
    Operation.validate_removeEdge_eq_ok_iff.1 valid
  · refine Operation.validate_removeEdge_eq_ok_iff.2
      ⟨(related.contains source).trans there, .inl ⟨rfl, ?_⟩⟩
    exact Operation.checkCounts_eq_ok_iff.2 (perform_removeEdges_iff.1 (enough rfl))
  · refine Operation.validate_removeEdge_eq_ok_iff.2
      ⟨(related.contains source).trans there, .inr ⟨?_, ?_, ?_⟩⟩
    · exact fun none_left => stamped (List.map_eq_nil_iff.1 none_left)
    · rw [List.length_map, length]
    · rw [List.zip_map_right]
      refine related.checkStamped linked linked' ?_ checked
      intro edge member
      exact kept edge.2 (List.of_mem_zip member).2

/-- An operation that the full store accepts and commits, the thin store accepts. -/
theorem validate (related : Thinned dropped full thin) (sound : full.Sound) (sound' : thin.Sound)
    {operation : Operation} {final : Store} (valid : operation.validate order full = .ok ())
    (done : operation.commit full = (.ok (), final)) (keeps : final.Keeps dropped)
    (fresh : ∀ stamp ∈ dropped, full.nextStamp ≤ stamp.number → final.nextStamp ≤ stamp.number)
    (kept : ∀ stamp ∈ operation.stamps, stamp ∉ dropped) :
    (operation.among dropped).validate order thin = .ok () := by
  obtain ⟨final', done', -⟩ := related.perform sound sound' done keeps fresh
  rw [← Operation.steps_among] at done'
  cases operation with
  | root project =>
      rw [Operation.validate_root_eq_ok_iff, ← List.isEmpty_iff] at valid
      exact Operation.validate_root_eq_ok_iff.2
        (List.isEmpty_iff.1 (related.isEmpty.trans valid))
  | newElement element container edges =>
      obtain ⟨unrooted, checked, destinations⟩ :=
        Operation.validate_newElement_eq_ok_iff.1 valid
      exact Operation.validate_newElement_eq_ok_iff.2 ⟨unrooted,
        related.checkAdd sound.toPlaced sound'.toPlaced checked,
        related.checkDestinations destinations⟩
  | newEdge source edges =>
      obtain ⟨there, destinations⟩ := Operation.validate_newEdge_eq_ok_iff.1 valid
      exact Operation.validate_newEdge_eq_ok_iff.2
        ⟨(related.contains source).trans there, related.checkDestinations destinations⟩
  | removeElement id cascade => exact related.checkRemove sound sound' valid
  | removeEdge source edges stamps =>
      refine related.validate_removeEdge sound.toLinked sound'.toLinked valid kept
        fun unstamped => ⟨final', ?_⟩
      simpa only [Operation.among, Operation.steps, List.isEmpty_map, if_pos unstamped] using done'

/-- **An operation that is accepted in the full store is accepted in the thin one and does the same
there, when it gives out no dropped stamp and takes out no dropped edge.** -/
theorem commit (related : Thinned dropped full thin) (sound : full.Sound) (sound' : thin.Sound)
    {operation : Operation} (valid : operation.validate order full = .ok ())
    (keeps : (operation.commit full).2.Keeps dropped)
    (fresh : ∀ stamp ∈ dropped, full.nextStamp ≤ stamp.number →
      (operation.commit full).2.nextStamp ≤ stamp.number)
    (kept : ∀ stamp ∈ operation.stamps, stamp ∉ dropped) :
    (operation.among dropped).validate order thin = .ok () ∧
      Thinned dropped (operation.commit full).2 ((operation.among dropped).commit thin).2 := by
  obtain ⟨final, done⟩ := Operation.commit_of_validate sound valid
  rw [done] at keeps fresh ⊢
  refine ⟨related.validate sound sound' valid done keeps fresh kept, ?_⟩
  obtain ⟨final', done', ends⟩ := related.perform sound sound' done keeps fresh
  rw [Operation.commit, Operation.steps_among, done']
  exact ends

end Store.Thinned

end LanguageGraph
