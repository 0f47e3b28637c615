/-
# Proofs.Operation.Validation — what the checks of an operation say

Each check answers `.ok` exactly under a condition on the store it looks at: the destinations are
present (`checkDestinations_eq_ok_iff`), the edges are there as often as they are listed
(`checkCounts_eq_ok_iff`), the listed stamps differ and stand beside their destinations
(`checkStamped_eq_ok_iff`). An operation is accepted when its own checks are passed, and these are told
for each kind apart (`validate_newElement_eq_ok_iff` and the like).

Whether an operation is accepted does not depend on the order in which counted edges come up, and nor
does the refusal, but for one thing: which missing edge a removal without stamps names
(`sameVerdict_validate`). This is left open in earnest, since every missing edge is named in some order
(`exists_validate_eq_unknownEdge_iff`).
-/
import LanguageGraph.Operation.Validation
import LanguageGraph.Proofs.Store.Growth
import LanguageGraph.Proofs.Store.Unlink

namespace LanguageGraph

set_option autoImplicit false

/-- The order in which one edge comes up before all others. -/
def EdgeOrder.first (edge : EdgeType × ElementId) : EdgeOrder where
  arrange edges := if edge ∈ edges then edge :: edges.erase edge else edges
  perm edges := by
    split
    · rename_i member
      exact (List.perm_cons_erase member).symm
    · exact .refl edges

namespace Operation

/-- Two answers to the check of one operation that are the same, except perhaps in which of its missing
edges a removal without stamps names. -/
inductive SameVerdict (operation : Operation) (store : Store) :
    Except Refusal Unit → Except Refusal Unit → Prop where
  | same (verdict : Except Refusal Unit) : SameVerdict operation store verdict verdict
  | missing {source : ElementId} {edges : EdgeMap} {edge edge' : EdgeType × ElementId}
      (removal : operation = .removeEdge source edges []) (missing : Missing store source edges edge)
      (missing' : Missing store source edges edge') :
      SameVerdict operation store (.error (.unknownEdge source edge.1 edge.2))
        (.error (.unknownEdge source edge'.1 edge'.2))

variable {order : EdgeOrder} {store : Store} {source : ElementId} {edges : EdgeMap}

theorem mem_destinations {destination : ElementId} :
    destination ∈ edges.destinations ↔ ∃ edge ∈ edges.pairs, edge.2 = destination :=
  List.mem_map

theorem checkDestinations_eq_ok_iff {introduced : Option ElementId} :
    checkDestinations store introduced edges = .ok () ↔
      ∀ edge ∈ edges.pairs, introduced = some edge.2 ∨ store.contains edge.2 = true := by
  unfold checkDestinations
  split
  · rename_i destination found
    have missing := List.find?_some found
    obtain ⟨edge, member, rfl⟩ := mem_destinations.1 (List.mem_of_find?_eq_some found)
    simp only [Bool.and_eq_true, decide_eq_true_iff, Bool.not_eq_true'] at missing
    simp only [reduceCtorEq, false_iff]
    intro all_there
    rcases all_there edge member with new | there
    · exact missing.1 new
    · rw [missing.2] at there
      cases there
  · rename_i none_missing
    simp only [true_iff]
    intro edge member
    have unmissed := List.find?_eq_none.1 none_missing edge.2 (mem_destinations.2 ⟨edge, member, rfl⟩)
    by_cases new : introduced = some edge.2
    · exact .inl new
    · right
      simpa [new] using unmissed

theorem validate_root_eq_ok_iff {project : Project} :
    (root project).validate order store = .ok () ↔ store.slots = [] := by
  rw [validate]
  by_cases empty : store.slots = []
  · simp [Store.isEmpty, empty, Store.checkAdd_of_empty empty]
  · simp [Store.isEmpty, empty]

theorem validate_newElement_eq_ok_iff {element : Element} {container : Option ElementId} :
    (newElement element container edges).validate order store = .ok () ↔
      element.isRoot = false ∧ store.checkAdd element container = .ok () ∧
        checkDestinations store (some element.id) edges = .ok () := by
  rw [validate]
  cases element.isRoot with
  | true => simp
  | false => cases store.checkAdd element container <;> simp

theorem validate_newEdge_eq_ok_iff :
    (newEdge source edges).validate order store = .ok () ↔
      store.contains source = true ∧ checkDestinations store none edges = .ok () := by
  rw [validate]
  cases store.contains source <;> simp

theorem Missing.mem {edge : EdgeType × ElementId} (missing : Missing store source edges edge) :
    edge ∈ edges.pairs :=
  List.count_pos_iff.1 (Nat.zero_lt_of_lt missing)

theorem checkCounts_cases (order : EdgeOrder) (store : Store) (source : ElementId) (edges : EdgeMap) :
    (checkCounts order store source edges = .ok () ∧ ∀ edge, ¬ Missing store source edges edge) ∨
      ∃ edge, Missing store source edges edge ∧
        checkCounts order store source edges = .error (.unknownEdge source edge.1 edge.2) := by
  unfold checkCounts
  split
  · rename_i edgeType destination found
    have missing := List.find?_some found
    exact .inr ⟨(edgeType, destination), of_decide_eq_true missing, rfl⟩
  · rename_i none_missing
    refine .inl ⟨rfl, fun edge missing => ?_⟩
    have comes_up := (order.perm edges.pairs).mem_iff.2 missing.mem
    exact List.find?_eq_none.1 none_missing edge comes_up (decide_eq_true missing)

theorem checkCounts_eq_ok_iff :
    checkCounts order store source edges = .ok () ↔
      ∀ edge, edges.pairs.count edge ≤ (store.edges source edge.1).count edge.2 := by
  rcases checkCounts_cases order store source edges with ⟨passed, enough⟩ | ⟨edge, missing, refused⟩
  · exact ⟨fun _ edge => Nat.le_of_not_lt (enough edge), fun _ => passed⟩
  · rw [refused]
    exact ⟨nofun, fun enough => absurd (enough edge) (Nat.not_le_of_lt missing)⟩

theorem validate_removeEdge_eq_ok_iff {stamps : List EdgeStamp} :
    (removeEdge source edges stamps).validate order store = .ok () ↔
      store.contains source = true ∧
        (stamps = [] ∧ checkCounts order store source edges = .ok () ∨
          stamps ≠ [] ∧ stamps.length = edges.size ∧
            checkStamped store source [] (edges.pairs.zip stamps) = .ok ()) := by
  rw [validate]
  cases store.contains source with
  | false => simp
  | true =>
      cases stamps with
      | nil => simp
      | cons stamp stamps =>
          by_cases length : stamps.length + 1 = edges.size
          · simp [length]
          · simp [length]

theorem checkStamped_eq_ok_iff (linked : store.Linked) {seen : List EdgeStamp}
    {listed : List ((EdgeType × ElementId) × EdgeStamp)} :
    checkStamped store source seen listed = .ok () ↔
      (listed.map Prod.snd).Nodup ∧ (∀ edge ∈ listed, edge.2 ∉ seen) ∧
        ∀ edge ∈ listed, (edge.1.2, edge.2) ∈ store.links source edge.1.1 := by
  induction listed generalizing seen with
  | nil => simp [checkStamped]
  | cons edge listed ih =>
      obtain ⟨⟨edgeType, destination⟩, stamp⟩ := edge
      rw [checkStamped]
      by_cases twice : stamp ∈ seen
      · rw [if_pos twice]
        simp only [reduceCtorEq, List.forall_mem_cons, twice, not_true_eq_false, false_and,
          and_false]
      · rw [if_neg twice]
        have check : store.checkRemoveStamped source edgeType destination stamp = .ok () ↔
            (destination, stamp) ∈ store.links source edgeType :=
          Store.checkRemoveStamped_eq_ok_iff linked
        cases checked : store.checkRemoveStamped source edgeType destination stamp with
        | error refusal =>
            have missing : (destination, stamp) ∉ store.links source edgeType := by
              intro there
              rw [check.2 there] at checked
              cases checked
            simp only [reduceCtorEq, List.forall_mem_cons, missing, false_and, and_false]
        | ok _ =>
            have there := check.1 checked
            have new_here : stamp ∉ listed.map Prod.snd ↔ ∀ other ∈ listed, other.2 ≠ stamp := by
              simp only [List.mem_map, not_exists, not_and, ne_eq]
            rw [ih, List.map_cons, List.nodup_cons, List.forall_mem_cons, List.forall_mem_cons,
              new_here]
            constructor
            · rintro ⟨nodup, unlike, beside⟩
              refine ⟨⟨?_, nodup⟩, ⟨twice, ?_⟩, there, beside⟩
              · intro other member same
                exact unlike other member (List.mem_cons.2 (.inl same))
              · intro other member before
                exact unlike other member (List.mem_cons_of_mem stamp before)
            · rintro ⟨⟨unlike, nodup⟩, ⟨_, unseen⟩, _, beside⟩
              refine ⟨nodup, ?_, beside⟩
              intro other member before
              rcases List.mem_cons.1 before with same | before
              · exact unlike other member same
              · exact unseen other member before

/-! ## The order of counting -/

theorem sameVerdict_checkCounts (order order' : EdgeOrder) (store : Store) (source : ElementId)
    (edges : EdgeMap) :
    SameVerdict (.removeEdge source edges []) store (checkCounts order store source edges)
      (checkCounts order' store source edges) := by
  rcases checkCounts_cases order store source edges with ⟨passed, -⟩ | ⟨edge, missing, refused⟩
  · rw [passed, checkCounts_eq_ok_iff.2 (checkCounts_eq_ok_iff.1 passed)]
    exact .same _
  · rcases checkCounts_cases order' store source edges with ⟨-, enough⟩ | ⟨edge', missing', refused'⟩
    · exact absurd missing (enough edge)
    · rw [refused, refused']
      exact .missing rfl missing missing'

/-- An order makes a difference only where several edges are missing. -/
theorem sameVerdict_validate (order order' : EdgeOrder) (operation : Operation) (store : Store) :
    SameVerdict operation store (operation.validate order store)
      (operation.validate order' store) := by
  cases operation with
  | removeEdge source edges stamps =>
      rw [validate, validate]
      split
      · exact .same _
      · split
        · rename_i unstamped
          rw [List.isEmpty_iff] at unstamped
          subst unstamped
          exact sameVerdict_checkCounts order order' store source edges
        · exact .same _
  | _ => exact .same _

theorem validate_of_order {operation : Operation} (valid : operation.validate order store = .ok ())
    (order' : EdgeOrder) : operation.validate order' store = .ok () := by
  have same := sameVerdict_validate order order' operation store
  generalize operation.validate order' store = verdict at same
  rw [valid] at same
  cases same
  rfl

/-- The edges that a removal without stamps may name are just those that are missing. -/
theorem exists_validate_eq_unknownEdge_iff {edge : EdgeType × ElementId}
    (there : store.contains source = true) :
    (∃ order, (removeEdge source edges []).validate order store =
        .error (.unknownEdge source edge.1 edge.2)) ↔
      Missing store source edges edge := by
  have counts (order : EdgeOrder) : (removeEdge source edges []).validate order store =
      checkCounts order store source edges := by
    simp [validate, there]
  simp only [counts]
  constructor
  · rintro ⟨order, named⟩
    rcases checkCounts_cases order store source edges with ⟨passed, -⟩ | ⟨edge', missing, refused⟩
    · exact nomatch passed.symm.trans named
    · obtain ⟨-, type, destination⟩ :=
        Refusal.unknownEdge.inj (Except.error.inj (refused.symm.trans named))
      rwa [Prod.ext type destination] at missing
  · intro missing
    have comes_first : (EdgeOrder.first edge).arrange edges.pairs = edge :: edges.pairs.erase edge :=
      if_pos missing.mem
    have found : ((EdgeOrder.first edge).arrange edges.pairs).find?
        (fun edge => Missing store source edges edge) = some edge := by
      rw [comes_first]
      exact List.find?_cons_of_pos (decide_eq_true missing)
    exact ⟨.first edge, by rw [checkCounts, found]⟩

end Operation

end LanguageGraph
