/-
# Proofs.Operation.EdgeRemoval — which edges a removal takes

Edges are removed in one of two ways: with stamps, exactly the edges that carry them; without, the latest
of equal edges, as many as are listed. Both are checked once, at the store as it is, and then done one
edge after the other in a store that gets smaller.

The check says what can be done. With stamps it asks for one stamp to each edge, each once and beside its
own edge (`validate_stamped_iff`), and then just the edges with these stamps go (`removeEdge_stamped_run`).
Without, it counts (`validate_unstamped_iff`), and then the last edges to each destination go, which
might have been named by their stamps as well (`removeEdge_latest_run`).

Which way is meant is told by the stamps alone. A removal by stamps for which none are given is taken for
the other kind, so it is neither refused nor does it spare the edges it had no stamps for
(`removeEdge_loses_run`).
-/
import LanguageGraph.Proofs.Operation.Unlinking

namespace LanguageGraph

set_option autoImplicit false

namespace Store

/-- An element has an edge of this type to this destination that carries this stamp. -/
def HasEdge (store : Store) (source : ElementId) (edge : EdgeType × ElementId)
    (stamp : EdgeStamp) : Prop :=
  ∃ position : Nat, (store.edges source edge.1)[position]? = some edge.2 ∧
    (store.edgeStamps source edge.1)[position]? = some stamp

/-- Every edge that is gone carried one of these stamps. -/
def LosesOnly (stamps : List EdgeStamp) (store left : Store) : Prop :=
  ∀ id edge stamp, store.HasEdge id edge stamp → ¬ left.HasEdge id edge stamp → stamp ∈ stamps

theorem hasEdge_iff {store : Store} {source : ElementId} {edge : EdgeType × ElementId}
    {stamp : EdgeStamp} :
    store.HasEdge source edge stamp ↔ (edge.2, stamp) ∈ store.links source edge.1 := by
  rw [← zip_edges_edgeStamps, List.mem_iff_getElem?]
  apply exists_congr
  intro position
  rw [List.getElem?_zip_eq_some]

variable {store left : Store} {source : ElementId} {stamps : List EdgeStamp}
  {listed : List ((EdgeType × ElementId) × EdgeStamp)}

/-- When edges went by their stamps, there is a stamp given for all that is gone, provided that there
was one given for all that was listed. -/
theorem Unlinked.losesOnly_iff (out : Unlinked source listed store left)
    (there : ∀ edge ∈ listed, (edge.1.2, edge.2) ∈ store.links source edge.1.1) :
    LosesOnly stamps store left ↔ ∀ edge ∈ listed, edge.2 ∈ stamps := by
  have stays : ∀ {id edge stamp}, left.HasEdge id edge stamp ↔
      store.HasEdge id edge stamp ∧ stamp ∉ listed.map Prod.snd := by
    intro id edge stamp
    rw [hasEdge_iff, hasEdge_iff]
    exact out.mem_links
  constructor
  · intro only edge inListed
    refine only source edge.1 edge.2 (hasEdge_iff.2 (there edge inListed)) fun still => ?_
    exact (stays.1 still).2 (List.mem_map_of_mem inListed)
  · intro given id edge stamp before gone
    by_contra unnamed
    refine gone (stays.2 ⟨before, fun inStamps => unnamed ?_⟩)
    obtain ⟨other, inListed, rfl⟩ := List.mem_map.1 inStamps
    exact given other inListed

end Store

namespace Operation

open Store

variable {order : EdgeOrder} {store : Store} {source : ElementId} {edges edges' : EdgeMap}
  {stamps stamps' : List EdgeStamp}

theorem sound_of_commit (sound : store.Sound) {operation : Operation} {left : Store}
    (done : operation.commit store = (.ok (), left)) : left.Sound := by
  have kept : (operation.commit store).2.Sound := sound.perform operation.steps
  rwa [done] at kept

/-- Two operations that take the same edges leave the same graph. -/
theorem commit_eq_of_unlinked (sound : store.Sound) {operation operation' : Operation}
    {left left' : Store} {listed listed' : List ((EdgeType × ElementId) × EdgeStamp)}
    (done : operation.commit store = (.ok (), left))
    (done' : operation'.commit store = (.ok (), left')) (out : Unlinked source listed store left)
    (out' : Unlinked source listed' store left') (perm : listed'.Perm listed) :
    operation'.commit store = operation.commit store := by
  rw [done, done']
  congr 1
  exact out'.eq_of_perm out (sound_of_commit sound done') (sound_of_commit sound done) perm

/-! ## By stamps -/

/-- Edges are accepted for removal by their stamps when each stands beside its own. -/
theorem validate_stamped_iff (linked : store.Linked) (there : store.contains source = true)
    (stamped : stamps ≠ []) :
    (removeEdge source edges stamps).validate order store = .ok () ↔
      stamps.length = edges.size ∧ stamps.Nodup ∧
        ∀ edge ∈ edges.pairs.zip stamps, (edge.1.2, edge.2) ∈ store.links source edge.1.1 := by
  rw [validate_removeEdge_eq_ok_iff, checkStamped_eq_ok_iff linked]
  constructor
  · rintro ⟨-, ⟨none_listed, -⟩ | ⟨-, length, nodup, -, beside⟩⟩
    · exact absurd none_listed stamped
    · rw [List.map_snd_zip (Nat.le_of_eq length)] at nodup
      exact ⟨length, nodup, beside⟩
  · rintro ⟨length, nodup, beside⟩
    rw [← List.map_snd_zip (Nat.le_of_eq length)] at nodup
    exact ⟨there, .inr ⟨stamped, length, nodup, by simp, beside⟩⟩

/-- Listed edges have their stamps when each position of the one list goes with that of the other. -/
theorem forall_zip_iff :
    (∀ edge ∈ edges.pairs.zip stamps, (edge.1.2, edge.2) ∈ store.links source edge.1.1) ↔
      ∀ (index : Nat) edge stamp, edges.pairs[index]? = some edge → stamps[index]? = some stamp →
        store.HasEdge source edge stamp := by
  constructor
  · intro beside index edge stamp listed named
    exact hasEdge_iff.2 (beside (edge, stamp)
      (List.mem_of_getElem? (List.getElem?_zip_eq_some.2 ⟨listed, named⟩)))
  · rintro each ⟨edge, stamp⟩ inZip
    obtain ⟨index, found⟩ := List.mem_iff_getElem?.1 inZip
    obtain ⟨listed, named⟩ := List.getElem?_zip_eq_some.1 found
    exact hasEdge_iff.1 (each index edge stamp listed named)

/-- What a committed removal by stamps leaves. -/
theorem unlinked_of_commit (sound : store.Sound) (length : stamps.length = edges.size) {left : Store}
    (done : (removeEdge source edges stamps).commit store = (.ok (), left)) :
    Unlinked source (edges.pairs.zip stamps) store left := by
  rw [commit, steps_removeEdge_stamped length] at done
  exact sound.unlinked_perform done

/-- The check does not depend on the order in which edges and stamps are listed. -/
theorem validate_stamped_perm_iff (linked : store.Linked) (there : store.contains source = true)
    (stamped : stamps ≠ []) (size : edges'.size = edges.size)
    (length : stamps'.length = stamps.length)
    (perm : (edges'.pairs.zip stamps').Perm (edges.pairs.zip stamps)) :
    (removeEdge source edges' stamps').validate order store = .ok () ↔
      (removeEdge source edges stamps).validate order store = .ok () := by
  have stamped' : stamps' ≠ [] := by
    rintro rfl
    exact stamped (List.length_eq_zero_iff.1 length.symm)
  have paired_iff : stamps'.length = edges'.size ↔ stamps.length = edges.size := by omega
  rw [validate_stamped_iff linked there stamped', validate_stamped_iff linked there stamped,
    paired_iff]
  refine and_congr_right fun paired => and_congr ?_ ?_
  · have same_stamps := perm.map Prod.snd
    rw [List.map_snd_zip (Nat.le_of_eq paired),
      List.map_snd_zip (Nat.le_of_eq (paired_iff.2 paired))] at same_stamps
    exact same_stamps.nodup_iff
  · simp only [perm.mem_iff]

/-- What is left does not depend on that order either. -/
theorem commit_stamped_perm (sound : store.Sound)
    (valid : (removeEdge source edges stamps).validate order store = .ok ())
    (valid' : (removeEdge source edges' stamps').validate order store = .ok ())
    (paired : stamps.length = edges.size) (paired' : stamps'.length = edges'.size)
    (perm : (edges'.pairs.zip stamps').Perm (edges.pairs.zip stamps)) :
    (removeEdge source edges' stamps').commit store =
      (removeEdge source edges stamps).commit store := by
  obtain ⟨left, done⟩ := commit_of_validate sound valid
  obtain ⟨left', done'⟩ := commit_of_validate sound valid'
  exact commit_eq_of_unlinked sound done done' (unlinked_of_commit sound paired done)
    (unlinked_of_commit sound paired' done') perm

/-- Just the edges with the given stamps go. -/
theorem trimmed_stamped (sound : store.Sound) (stamped : stamps ≠ [])
    (valid : (removeEdge source edges stamps).validate order store = .ok ()) :
    ∃ left, (removeEdge source edges stamps).commit store = (.ok (), left) ∧
      Trimmed source (fun _ link => link.2 ∉ stamps) store left := by
  have there := (validate_removeEdge_eq_ok_iff.1 valid).1
  obtain ⟨length, -, beside⟩ := (validate_stamped_iff sound.toLinked there stamped).1 valid
  obtain ⟨left, done⟩ := commit_of_validate sound valid
  have trimmed := (unlinked_of_commit sound length done).trimmed sound
    (sound_of_commit sound done) beside
  rw [List.map_snd_zip (Nat.le_of_eq length)] at trimmed
  exact ⟨left, done, trimmed⟩

/-- **Whatever changes made a graph, edges of a present element are accepted for removal by stamps
exactly when there is one stamp for each edge, no stamp twice, and each edge carries its own. Then the
edges with these stamps go and nothing else changes; and edges and stamps may be listed in any order.** -/
theorem removeEdge_stamped_run (order : EdgeOrder) (changes : List Change) (source : ElementId)
    (edges : EdgeMap) (stamps : List EdgeStamp) (there : (Store.empty.run changes).contains source = true)
    (stamped : stamps ≠ []) :
    let store := Store.empty.run changes
    let operation := removeEdge source edges stamps
    (operation.validate order store = .ok () ↔
        stamps.length = edges.size ∧ stamps.Nodup ∧
          ∀ (index : Nat) edge stamp, edges.pairs[index]? = some edge →
            stamps[index]? = some stamp → store.HasEdge source edge stamp) ∧
      (operation.validate order store = .ok () →
        ∃ left, operation.commit store = (.ok (), left) ∧
          Trimmed source (fun _ link => link.2 ∉ stamps) store left) ∧
      ∀ edges' stamps', edges'.size = edges.size → stamps'.length = stamps.length →
        (edges'.pairs.zip stamps').Perm (edges.pairs.zip stamps) →
          ((removeEdge source edges' stamps').validate order store = .ok () ↔
              operation.validate order store = .ok ()) ∧
            (operation.validate order store = .ok () →
              (removeEdge source edges' stamps').commit store = operation.commit store) := by
  intro store operation
  have sound : store.Sound := sound_run changes
  have accepted : operation.validate order store = .ok () ↔ _ :=
    validate_stamped_iff sound.toLinked there stamped
  refine ⟨accepted.trans ?_, trimmed_stamped sound stamped, ?_⟩
  · rw [forall_zip_iff]
  · intro edges' stamps' size length perm
    have same_verdict :
        (removeEdge source edges' stamps').validate order store = .ok () ↔
          operation.validate order store = .ok () :=
      validate_stamped_perm_iff sound.toLinked there stamped size length perm
    refine ⟨same_verdict, fun valid => ?_⟩
    have paired := (accepted.1 valid).1
    exact commit_stamped_perm sound valid (same_verdict.2 valid) paired (by omega) perm

/-- A root, and a method with edges to the root and to itself in turns. -/
def inTurns : List Change :=
  [.commit (.root ⟨.ofNat 1, "demo", "demo", ""⟩),
   .commit (.newElement (.method ⟨.ofNat 2, "run"⟩) none
     (.ofDestinations .typeOf [.ofNat 1, .ofNat 2, .ofNat 1, .ofNat 2, .ofNat 1]))]

/-- The first and the last but one of five edges go, listed one way or the other; but not with the
stamps exchanged. -/
theorem removeEdge_stamped_run_inTurns :
    let store := Store.empty.run inTurns
    let removal := removeEdge (.ofNat 2) (.ofDestinations .typeOf [.ofNat 2, .ofNat 1]) [⟨3⟩, ⟨0⟩]
    (∃ left, removal.commit store = (.ok (), left) ∧
        left.edges (.ofNat 2) .typeOf = [.ofNat 2, .ofNat 1, .ofNat 1] ∧
        left.edgeStamps (.ofNat 2) .typeOf = [⟨1⟩, ⟨2⟩, ⟨4⟩]) ∧
      (removeEdge (.ofNat 2) (.ofDestinations .typeOf [.ofNat 1, .ofNat 2]) [⟨0⟩, ⟨3⟩]).commit
        store = removal.commit store ∧
      (removeEdge (.ofNat 2) (.ofDestinations .typeOf [.ofNat 2, .ofNat 1]) [⟨0⟩, ⟨3⟩]).validate
        .listed store ≠ .ok () := by
  intro store removal
  have valid : removal.validate .listed store = .ok () := rfl
  obtain ⟨-, leaves, any_order⟩ := removeEdge_stamped_run .listed inTurns (.ofNat 2)
    (.ofDestinations .typeOf [.ofNat 2, .ofNat 1]) [⟨3⟩, ⟨0⟩] rfl (by decide)
  obtain ⟨left, done, trimmed⟩ := leaves valid
  refine ⟨⟨left, done, ?_, ?_⟩, ?_, by decide⟩
  · rw [trimmed.edges]
    rfl
  · rw [trimmed.edgeStamps]
    rfl
  · exact (any_order (.ofDestinations .typeOf [.ofNat 1, .ofNat 2]) [⟨0⟩, ⟨3⟩] rfl rfl
      (List.Perm.swap _ _ _)).2 valid

/-! ## The latest ones -/

/-- Edges are accepted for removal without stamps when there are enough of each. -/
theorem validate_unstamped_iff (there : store.contains source = true) :
    (removeEdge source edges []).validate order store = .ok () ↔
      ∀ edge, edges.pairs.count edge ≤ (store.edges source edge.1).count edge.2 := by
  simp [validate_removeEdge_eq_ok_iff, there, checkCounts_eq_ok_iff]

/-- The last edges to each destination may also be removed by their stamps. -/
theorem validate_of_named (linked : store.Linked) (there : store.contains source = true)
    {wanted : List (EdgeType × ElementId)}
    (named : store.NamesLatest source wanted edges.pairs stamps) :
    (removeEdge source edges stamps).validate order store = .ok () := by
  by_cases stamped : stamps = []
  · subst stamped
    have none_listed : edges.pairs = [] := List.length_eq_zero_iff.1 named.length.symm
    rw [validate_unstamped_iff there, none_listed]
    simp
  · exact (validate_stamped_iff linked there stamped).2 ⟨named.length, named.nodup, named.mem_links⟩

/-- What a committed removal without stamps leaves. -/
theorem unlinked_of_commit_unstamped (sound : store.Sound) {left : Store}
    (done : (removeEdge source edges []).commit store = (.ok (), left)) :
    ∃ stamps, store.NamesLatest source edges.pairs edges.pairs stamps ∧
      Unlinked source (edges.pairs.zip stamps) store left := by
  obtain ⟨stamps, named, by_stamps⟩ := sound.removeStamped_of_removeEdges done
  exact ⟨stamps, named, sound.unlinked_perform by_stamps⟩

/-- What an accepted removal takes can be told by stamps, whether any are given or not. -/
theorem unlinked_of_validate (sound : store.Sound)
    (valid : (removeEdge source edges stamps).validate order store = .ok ()) :
    ∃ taken, taken.length = edges.size ∧
      Unlinked source (edges.pairs.zip taken) store
        ((removeEdge source edges stamps).commit store).2 ∧
      ∀ edge ∈ edges.pairs.zip taken, (edge.1.2, edge.2) ∈ store.links source edge.1.1 := by
  have there := (validate_removeEdge_eq_ok_iff.1 valid).1
  obtain ⟨left, done⟩ := commit_of_validate sound valid
  rw [done]
  by_cases stamped : stamps = []
  · subst stamped
    obtain ⟨taken, named, out⟩ := unlinked_of_commit_unstamped sound done
    exact ⟨taken, named.length, out, named.mem_links⟩
  · obtain ⟨length, -, beside⟩ := (validate_stamped_iff sound.toLinked there stamped).1 valid
    exact ⟨stamps, length, unlinked_of_commit sound length done, beside⟩

/-- The last edges to each destination go, as many as are listed. -/
theorem trimmed_latest (sound : store.Sound)
    (valid : (removeEdge source edges []).validate order store = .ok ()) :
    ∃ left, (removeEdge source edges []).commit store = (.ok (), left) ∧
      Trimmed source (fun edgeType link =>
        link ∉ store.latest source edgeType link.1 (edges.pairs.count (edgeType, link.1)))
        store left := by
  obtain ⟨left, done⟩ := commit_of_validate sound valid
  obtain ⟨stamps, named, out⟩ := unlinked_of_commit_unstamped sound done
  have trimmed := out.trimmed sound (sound_of_commit sound done) named.mem_links
  rw [List.map_snd_zip (Nat.le_of_eq named.length)] at trimmed
  refine ⟨left, done, trimmed.congr fun edgeType link inLinks => ?_⟩
  exact decide_eq_decide.2 (not_congr (named.mem_stamps_iff sound.toLinked inLinks))

/-- Edges that are removed without stamps may be listed in any order. -/
theorem removeEdge_unstamped_perm (sound : store.Sound) (there : store.contains source = true)
    (perm : edges'.pairs.Perm edges.pairs) :
    ((removeEdge source edges' []).validate order store = .ok () ↔
        (removeEdge source edges []).validate order store = .ok ()) ∧
      ((removeEdge source edges []).validate order store = .ok () →
        (removeEdge source edges' []).commit store =
          (removeEdge source edges []).commit store) := by
  have same_verdict : (removeEdge source edges' []).validate order store = .ok () ↔
      (removeEdge source edges []).validate order store = .ok () := by
    simp only [validate_unstamped_iff there, perm.count_eq]
  refine ⟨same_verdict, fun valid => ?_⟩
  obtain ⟨left, done⟩ := commit_of_validate sound valid
  obtain ⟨left', done'⟩ := commit_of_validate sound (same_verdict.2 valid)
  obtain ⟨stamps, named, out⟩ := unlinked_of_commit_unstamped sound done
  obtain ⟨stamps', named', out'⟩ := unlinked_of_commit_unstamped sound done'
  exact commit_eq_of_unlinked sound done done' out out' (named'.perm named perm)

/-- The edges that go without stamps have stamps, and to name these leaves the same graph. -/
theorem removeEdge_by_name (sound : store.Sound) (there : store.contains source = true)
    (valid : (removeEdge source edges []).validate order store = .ok ()) :
    (∃ stamps, store.NamesLatest source edges.pairs edges.pairs stamps) ∧
      ∀ edges' stamps, store.NamesLatest source edges.pairs edges'.pairs stamps →
        (removeEdge source edges' stamps).validate order store = .ok () ∧
          (removeEdge source edges' stamps).commit store =
            (removeEdge source edges []).commit store := by
  obtain ⟨left, done⟩ := commit_of_validate sound valid
  obtain ⟨stamps, named, out⟩ := unlinked_of_commit_unstamped sound done
  refine ⟨⟨stamps, named⟩, fun edges' stamps' named' => ?_⟩
  have valid' : (removeEdge source edges' stamps').validate order store = .ok () :=
    validate_of_named sound.toLinked there named'
  obtain ⟨left', done'⟩ := commit_of_validate sound valid'
  exact ⟨valid', commit_eq_of_unlinked sound done done' out
    (unlinked_of_commit sound named'.length done') (named'.perm named (.refl _))⟩

/-- **Whatever changes made a graph, edges of a present element are accepted for removal without stamps
exactly when they can be removed one after the other, and exactly when each is there as often as it is
listed. Then the last edges to each destination go, as many as are listed, and nothing else changes.
Edges may be listed in any order, and it is all the same to remove by their stamps those that go.** -/
theorem removeEdge_latest_run (order : EdgeOrder) (changes : List Change) (source : ElementId)
    (edges : EdgeMap) (there : (Store.empty.run changes).contains source = true) :
    let store := Store.empty.run changes
    let operation := removeEdge source edges []
    (operation.validate order store = .ok () ↔ (operation.commit store).1 = .ok ()) ∧
      (operation.validate order store = .ok () ↔
        ∀ edge, edges.pairs.count edge ≤ (store.edges source edge.1).count edge.2) ∧
      (operation.validate order store = .ok () →
        ∃ left, operation.commit store = (.ok (), left) ∧
          Trimmed source (fun edgeType link =>
            link ∉ store.latest source edgeType link.1 (edges.pairs.count (edgeType, link.1)))
            store left) ∧
      (∀ edges', edges'.pairs.Perm edges.pairs →
        ((removeEdge source edges' []).validate order store = .ok () ↔
            operation.validate order store = .ok ()) ∧
          (operation.validate order store = .ok () →
            (removeEdge source edges' []).commit store = operation.commit store)) ∧
      (operation.validate order store = .ok () →
        (∃ stamps, store.NamesLatest source edges.pairs edges.pairs stamps) ∧
          ∀ edges' stamps, store.NamesLatest source edges.pairs edges'.pairs stamps →
            (removeEdge source edges' stamps).validate order store = .ok () ∧
              (removeEdge source edges' stamps).commit store = operation.commit store) := by
  intro store operation
  have sound : store.Sound := sound_run changes
  have accepted : operation.validate order store = .ok () ↔ _ := validate_unstamped_iff there
  refine ⟨⟨fun valid => ?_, fun committed => ?_⟩, accepted, trimmed_latest sound,
    fun edges' perm => removeEdge_unstamped_perm sound there perm, removeEdge_by_name sound there⟩
  · obtain ⟨left, done⟩ := commit_of_validate sound valid
    rw [done]
  · exact accepted.2 (perform_removeEdges_iff.1 ⟨_, Prod.ext committed rfl⟩)

/-- Of edges to the root and to the method in turns, the last two to the root go and the last one to
the method, as they would by their stamps. -/
theorem removeEdge_latest_run_inTurns :
    let store := Store.empty.run inTurns
    let removal :=
      removeEdge (.ofNat 2) (.ofDestinations .typeOf [.ofNat 1, .ofNat 2, .ofNat 1]) []
    (∃ left, removal.commit store = (.ok (), left) ∧
        left.edges (.ofNat 2) .typeOf = [.ofNat 1, .ofNat 2] ∧
        left.edgeStamps (.ofNat 2) .typeOf = [⟨0⟩, ⟨1⟩]) ∧
      ((removeEdge (.ofNat 2) (.ofDestinations .typeOf [.ofNat 2, .ofNat 2, .ofNat 2]) []).commit
        store).1 ≠ .ok () := by
  intro store removal
  obtain ⟨-, -, leaves, -⟩ := removeEdge_latest_run .listed inTurns (.ofNat 2)
    (.ofDestinations .typeOf [.ofNat 1, .ofNat 2, .ofNat 1]) rfl
  obtain ⟨left, done, trimmed⟩ := leaves rfl
  refine ⟨⟨left, done, ?_, ?_⟩, ?_⟩
  · rw [trimmed.edges]
    rfl
  · rw [trimmed.edgeStamps]
    rfl
  · -- Three edges to the method are asked for where there are two.
    rw [ne_eq, ← (removeEdge_latest_run .listed inTurns (.ofNat 2)
      (.ofDestinations .typeOf [.ofNat 2, .ofNat 2, .ofNat 2]) rfl).1]
    decide

/-! ## Stamps that are not given -/

/-- Counting edges finds no fault with stamps. -/
theorem checkCounts_ne_edgeStampMismatch (listed given : Nat) :
    checkCounts order store source edges ≠ .error (.edgeStampMismatch listed given) := by
  unfold checkCounts
  split <;> simp

/-- **Whatever changes made a graph, a number of stamps that is not the number of edges is refused,
unless no stamp is given at all. What is accepted takes only edges with the given stamps, unless no
stamp is given and some edge is listed.** -/
theorem removeEdge_loses_run (order : EdgeOrder) (changes : List Change) (source : ElementId)
    (edges : EdgeMap) (stamps : List EdgeStamp) (there : (Store.empty.run changes).contains source = true) :
    let store := Store.empty.run changes
    let operation := removeEdge source edges stamps
    (stamps.length ≠ edges.size →
        (operation.validate order store = .error (.edgeStampMismatch edges.size stamps.length) ↔
          stamps ≠ [])) ∧
      (operation.validate order store = .ok () →
        ∃ left, operation.commit store = (.ok (), left) ∧
          (LosesOnly stamps store left ↔ stamps ≠ [] ∨ edges.pairs = [])) := by
  intro store operation
  have sound : store.Sound := sound_run changes
  constructor
  · intro unpaired
    by_cases stamped : stamps = []
    · subst stamped
      simp [operation, validate, store, there, checkCounts_ne_edgeStampMismatch]
    · simp [operation, validate, store, there, stamped, unpaired]
  · intro valid
    obtain ⟨left, done⟩ := commit_of_validate sound valid
    refine ⟨left, done, ?_⟩
    by_cases stamped : stamps = []
    · subst stamped
      obtain ⟨taken, named, out⟩ := unlinked_of_commit_unstamped sound done
      rw [out.losesOnly_iff named.mem_links]
      -- Every edge that is listed takes one with a stamp that was not given.
      have taken_none : taken = [] ↔ edges.pairs = [] := by
        rw [← List.length_eq_zero_iff, named.length, List.length_eq_zero_iff]
      simp [← List.eq_nil_iff_forall_not_mem, List.zip_eq_nil_iff, taken_none]
    · obtain ⟨length, -, beside⟩ := (validate_stamped_iff sound.toLinked there stamped).1 valid
      rw [(unlinked_of_commit sound length done).losesOnly_iff beside]
      simp only [ne_eq, stamped, not_false_eq_true, true_or, iff_true]
      exact fun edge inZip => (List.of_mem_zip inZip).2

/-- Of two edges listed with one stamp neither goes; listed with their stamps, just these two go. -/
theorem removeEdge_loses_run_inTurns :
    let store := Store.empty.run inTurns
    let edges : EdgeMap := .ofDestinations .typeOf [.ofNat 2, .ofNat 1]
    (removeEdge (.ofNat 2) edges [⟨3⟩]).validate .listed store = .error (.edgeStampMismatch 2 1) ∧
      LosesOnly [⟨3⟩, ⟨0⟩] store ((removeEdge (.ofNat 2) edges [⟨3⟩, ⟨0⟩]).commit store).2 := by
  intro store edges
  constructor
  · exact ((removeEdge_loses_run .listed inTurns (.ofNat 2) edges [⟨3⟩] rfl).1 (by decide)).2 (by decide)
  · obtain ⟨left, done, only⟩ :=
      (removeEdge_loses_run .listed inTurns (.ofNat 2) edges [⟨3⟩, ⟨0⟩] rfl).2 rfl
    rw [done]
    exact only.2 (.inl (by decide))

/-- An element with one edge: to remove this edge by stamps, without giving any, is accepted, and takes
the edge with its stamp. -/
theorem removeEdge_loses_unnamed :
    let store := Store.empty.run
      [.step (.add (.method ⟨.ofNat 1, "run"⟩) none), .step (.add (.clazz ⟨.ofNat 2, "Unit"⟩) none),
       .step (.addEdge (.ofNat 1) .typeOf (.ofNat 2))]
    let operation := removeEdge (.ofNat 1) (.ofDestinations .typeOf [.ofNat 2]) []
    store.contains (.ofNat 1) = true ∧
      operation.validate .listed store ≠ .error (.edgeStampMismatch 1 0) ∧
      operation.validate .listed store = .ok () ∧
      ∃ left, operation.commit store = (.ok (), left) ∧ ¬ LosesOnly [] store left := by
  intro store operation
  refine ⟨rfl, by decide, rfl, _, rfl, fun only => ?_⟩
  have there : store.HasEdge (.ofNat 1) (.typeOf, .ofNat 2) ⟨0⟩ := ⟨0, rfl, rfl⟩
  have given := only _ _ _ there (by rintro ⟨position, listed, -⟩; cases listed)
  cases given

end Operation

end LanguageGraph
