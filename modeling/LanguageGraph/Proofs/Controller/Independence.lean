/-
# Proofs.Controller.Independence — independent additions in any order

Several callers may submit additions that each of them checked against the same graph. Which call is
served first does not matter when the additions are independent: all are accepted
(`Grown.gathered_submitAll`), and what they leave is the same graph with the same lists of edges
(`submitAll_perm`). Only numbers, stamps and the order of elements tell what came first.
-/
import LanguageGraph.Proofs.Controller.Reversal
import LanguageGraph.Proofs.Operation.Independence

namespace LanguageGraph

set_option autoImplicit false

namespace Controller

variable {controller : Controller} {config : Config} {order : EdgeOrder}

/-- A submission that passes the check is served, and then the others. -/
theorem submitAll_of_check (sound : controller.store.Sound) {submission : Submission}
    {submissions : List Submission} (checked : controller.check order submission.operation = .ok ())
    {numbers : List Nat} {final : Controller}
    (rest : (controller.grow submission.now submission.operation submission.author none).submitAll
      submissions = .ok (numbers, final)) :
    controller.submitAll (submission :: submissions) =
      .ok ((controller.history.length + 1) :: numbers, final) := by
  rw [submitAll, submit, record_of_check sound checked]
  dsimp only
  rw [rest]
  rfl

/-- After the first of some independent additions, the others pass their checks as before. -/
theorem check_after (sound : controller.store.Sound) {operation : Operation}
    {operations : List Operation} (independent : Operation.Independent (operation :: operations))
    (checked : ∀ other ∈ operation :: operations, controller.check order other = .ok ())
    (now : Occasion) (author : String) :
    ∀ other ∈ operations,
      (controller.grow now operation author none).check order other = .ok () := by
  rw [List.forall_mem_cons] at checked
  intro other member
  have valid := (check_eq_ok_iff.1 checked.1).1
  have others : ∀ other ∈ operations, other.validate order controller.store = .ok () :=
    fun other member => (check_eq_ok_iff.1 (checked.2 other member)).1
  exact check_eq_ok_iff.2 ⟨independent.validate_after sound valid others other member,
    (check_eq_ok_iff.1 (checked.2 other member)).2⟩

/-- Independent additions that pass their checks one by one are all served, in the order given. -/
theorem Grown.gathered_submitAll (grown : Grown config controller) {submissions : List Submission}
    (independent : Operation.Independent (submissions.map Submission.operation))
    (checked : ∀ operation ∈ submissions.map Submission.operation,
      controller.check order operation = .ok ()) :
    ∃ numbers final, controller.submitAll submissions = .ok (numbers, final) ∧
      Grown config final ∧
      Operation.Gathered (submissions.map Submission.operation) controller.store final.store := by
  induction submissions generalizing controller with
  | nil => exact ⟨[], controller, rfl, grown, .refl _⟩
  | cons submission submissions ih =>
      rw [List.map_cons] at independent checked
      have first := checked submission.operation List.mem_cons_self
      have next : Grown config
          (controller.grow submission.now submission.operation submission.author none) :=
        grown.submitted first
      obtain ⟨numbers, final, rest, grown_final, gathered⟩ := ih next independent.tail
        (check_after grown.sound independent checked submission.now submission.author)
      have added := Operation.added_of_validate grown.sound
        (independent.isAddition List.mem_cons_self) (check_eq_ok_iff.1 first).1
      exact ⟨_, final, submitAll_of_check grown.sound first rest, grown_final,
        .cons added (independent.not_root List.mem_cons_self) grown.sound.toLinked
          next.sound.toLinked gathered⟩

/-- **New elements with identities of their own and new edges from sources of their own, each of which a
controller would accept, are accepted in any order and by whomever they are submitted; and any two orders
leave the same graph, with the same edges in the same order at every source.** -/
theorem submitAll_perm (config : Config) (calls : List Call) (operations : List Operation)
    (independent : Operation.Independent operations)
    (accepted : ∀ operation ∈ operations, ∃ now author applied,
      (((Controller.new config).run calls).submit now operation author).result = .ok applied)
    (submissions submissions' : List Submission)
    (order : (submissions.map Submission.operation).Perm operations)
    (order' : (submissions'.map Submission.operation).Perm operations) :
    ∃ numbers numbers' final final',
      ((Controller.new config).run calls).submitAll submissions = .ok (numbers, final) ∧
        ((Controller.new config).run calls).submitAll submissions' = .ok (numbers', final') ∧
        final.store.same final'.store = true ∧
        ∀ id edgeType, final.store.edges id edgeType = final'.store.edges id edgeType := by
  have start := grown_run config calls
  have checked : ∀ operation ∈ operations,
      ((Controller.new config).run calls).check .listed operation = .ok () := by
    intro operation member
    obtain ⟨now, author, answer⟩ := accepted operation member
    exact (submit_accepted_iff start.sound .listed).1 answer
  have served : ∀ listed : List Submission, (listed.map Submission.operation).Perm operations →
      ∃ numbers final, ((Controller.new config).run calls).submitAll listed = .ok (numbers, final) ∧
        Grown config final ∧ Operation.Gathered (listed.map Submission.operation)
          ((Controller.new config).run calls).store final.store := by
    intro listed order
    exact start.gathered_submitAll (independent.perm order.symm) fun operation member =>
      checked operation (order.mem_iff.1 member)
  obtain ⟨numbers, final, done, grown, gathered⟩ := served submissions order
  obtain ⟨numbers', final', done', grown', gathered'⟩ := served submissions' order'
  have alike := gathered.alike gathered' (independent.perm order.symm)
    (fun operation member =>
      (check_eq_ok_iff.1 (checked operation (order.mem_iff.1 member))).1)
    (order.trans order'.symm)
  exact ⟨numbers, numbers', final, final', done, done',
    (grown.sound.same_iff_alike grown'.sound).2 alike, alike.edges⟩

def twoClasses : List Call :=
  [.apply .epoch (.root ⟨.ofNat 1, "demo", "demo", ""⟩),
   .apply .epoch (.newElement (.library ⟨.ofNat 2, "core"⟩) (some (.ofNat 1)) .empty),
   .apply .epoch (.newElement (.clazz ⟨.ofNat 3, "List"⟩) (some (.ofNat 2)) .empty),
   .apply .epoch (.newElement (.clazz ⟨.ofNat 4, "Array"⟩) (some (.ofNat 2)) .empty)]

/-- Two methods of one class, one with an edge to itself, and edges between the classes. -/
def methodsAndEdges : List Operation :=
  [.newElement (.method ⟨.ofNat 5, "map"⟩) (some (.ofNat 3))
     (.ofDestinations .typeOf [.ofNat 4, .ofNat 5]),
   .newEdge (.ofNat 3) (.ofDestinations .typeOf [.ofNat 4, .ofNat 3, .ofNat 4]),
   .newElement (.method ⟨.ofNat 6, "run"⟩) (some (.ofNat 3)) (.ofDestinations .typeOf [.ofNat 4]),
   .newEdge (.ofNat 4) (.ofDestinations .typeOf [.ofNat 3])]

/-- The four additions in their order by one author, and in reverse by another. -/
theorem submitAll_perm_methodsAndEdges :
    ∃ numbers numbers' final final',
      ((Controller.new .default).run twoClasses).submitAll
          (methodsAndEdges.map fun operation => ⟨.epoch, operation, "someone"⟩) =
        .ok (numbers, final) ∧
      ((Controller.new .default).run twoClasses).submitAll
          (methodsAndEdges.reverse.map fun operation => ⟨.epoch, operation, "other"⟩) =
        .ok (numbers', final') ∧
      final.store.same final'.store = true ∧
      ∀ id edgeType, final.store.edges id edgeType = final'.store.edges id edgeType := by
  have independent : Operation.Independent methodsAndEdges :=
    ⟨by simp [methodsAndEdges], by decide, by decide⟩
  refine submitAll_perm .default twoClasses methodsAndEdges independent ?_ _ _ ?_ ?_
  · intro operation member
    simp only [methodsAndEdges, List.mem_cons, List.not_mem_nil, or_false] at member
    rcases member with rfl | rfl | rfl | rfl <;> exact ⟨.epoch, "someone", _, rfl⟩
  · rw [List.map_map]
    exact .of_eq (List.map_id _)
  · rw [List.map_map]
    exact (List.Perm.of_eq (List.map_id _)).trans (List.reverse_perm _)

end Controller

end LanguageGraph
