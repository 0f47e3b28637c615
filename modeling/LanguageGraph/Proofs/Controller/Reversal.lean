/-
# Proofs.Controller.Reversal — additions undone last first

Additions that are submitted one after the other can be undone one after the other, the last one first,
and leave the graph as it was (`compensateAll_reverse`).

What is undone is checked against a history that keeps growing: the entries of later additions stand in
it, and those of their undoings. `Reverted` says what these may not do: undo an entry from before, or
introduce an element that was there. With that, an addition is undone at a graph that is again the one it
led to, and there nothing stands in the way (`Reverted.undo`). The induction is on the additions; the
controller they start from changes with each.
-/
import LanguageGraph.Proofs.Controller.Compensation
import LanguageGraph.Proofs.Operation.Reversal

namespace LanguageGraph

set_option autoImplicit false

structure Submission where
  now : Occasion
  operation : Operation
  author : String

namespace Controller

/-- Submit operations one after the other, up to the first refusal, and tell the numbers of their
entries. -/
def submitAll (controller : Controller) : List Submission → Except Refusal (List Nat × Controller)
  | [] => .ok ([], controller)
  | submission :: submissions =>
      let outcome := controller.submit submission.now submission.operation submission.author
      match outcome.result with
      | .error refusal => .error refusal
      | .ok applied =>
          (outcome.controller.submitAll submissions).map fun rest =>
            (applied.sequence :: rest.1, rest.2)

/-- A controller whose graph is that of an earlier one again. Its newer entries undo no entry of the
earlier one and introduce no element that was there. -/
structure Reverted (start : Controller) (newer : List HistoryEntry) (left : Controller) : Prop where
  store : Store.Restored start.store left.store
  nextStamp : start.store.nextStamp ≤ left.store.nextStamp
  history : left.history = start.history ++ newer
  undoes : ∀ entry ∈ newer, ∀ target, entry.compensates = some target →
    start.history.length < target
  introduces : ∀ entry ∈ newer, ∀ id, entry.operation.introduced? = some id →
    start.store.contains id = false

variable {start left controller : Controller} {config : Config} {operation : Operation}
  {now : Occasion} {order : EdgeOrder} {author : String}

/-! ## Calls in a row -/

theorem compensateAll_append (controller : Controller) (first second : List Undo) :
    controller.compensateAll (first ++ second) =
      (controller.compensateAll first).bind fun left => left.compensateAll second := by
  induction first generalizing controller with
  | nil => rfl
  | cons undo first ih =>
      rw [List.cons_append, compensateAll, compensateAll]
      cases (controller.compensate undo.now undo.sequence undo.author).result with
      | error refusal => rfl
      | ok applied => exact ih _

theorem compensateAll_singleton {undo : Undo}
    (accepted : ∃ applied, (controller.compensate undo.now undo.sequence undo.author).result =
      .ok applied) :
    controller.compensateAll [undo] =
      .ok (controller.compensate undo.now undo.sequence undo.author).controller := by
  obtain ⟨applied, answer⟩ := accepted
  rw [compensateAll, answer]
  rfl

/-- The first of some submissions is accepted, and the others from there. -/
theorem submitAll_cons (sound : controller.store.Sound) {submission : Submission}
    {submissions : List Submission} {numbers : List Nat} {final : Controller}
    (done : controller.submitAll (submission :: submissions) = .ok (numbers, final)) :
    controller.check submission.now.order submission.operation = .ok () ∧
      ∃ others, numbers = (controller.history.length + 1) :: others ∧
        (controller.grow submission.now submission.operation submission.author none).submitAll
          submissions = .ok (others, final) := by
  rw [submitAll, submit] at done
  rcases record_cases sound submission.now submission.operation submission.author none with
    ⟨checked, next, answer⟩ | ⟨-, refusal, -, answer⟩
  · rw [answer, next] at done
    refine ⟨checked, ?_⟩
    cases rest : (controller.grow submission.now submission.operation submission.author
        none).submitAll submissions with
    | error refusal =>
        rw [rest] at done
        cases done
    | ok reached =>
        rw [rest] at done
        cases done
        exact ⟨reached.1, rfl, rfl⟩
  · rw [answer] at done
    cases done

/-! ## What the history and the graph say along the way -/

theorem Grown.submitted (grown : Grown config controller)
    (checked : controller.check order operation = .ok ()) :
    Grown config (controller.grow now operation author none) :=
  .grow now author grown (fun _ is => nomatch is) (check_of_order checked now.order)

theorem Grown.rooted (grown : Grown config controller) : controller.store.Rooted := by
  induction grown with
  | new => exact Store.rooted_empty
  | @grow controller now operation author compensates grown undoing checked ih =>
      exact ih.perform grown.sound operation.steps

theorem Grown.compensate_grows (grown : Grown config controller) {sequence : Nat}
    (accepted : ∃ applied, (controller.compensate now sequence author).result = .ok applied) :
    ∃ inverse, (controller.compensate now sequence author).controller =
        controller.grow now inverse author (some sequence) ∧
      inverse.introduced? = none := by
  obtain ⟨inverse, allowed, checked⟩ := (compensate_accepted_iff grown.sound now.order).1 accepted
  refine ⟨inverse, compensate_of_checked grown.sound allowed checked, ?_⟩
  obtain ⟨_, _, _, _, _, _, _, inverted⟩ := compensationFor_eq_ok_iff.1 allowed
  exact Operation.introduced?_of_inverse? inverted

/-- Undoing an addition of edges takes their entries out of the index in the order of the addition. -/
theorem Grown.referrers_of_compensate (grown : Grown config controller) {sequence : Nat}
    {entry : HistoryEntry} (found : controller.entryAt? sequence = some entry) {source : ElementId}
    {edges : EdgeMap} (addition : entry.operation = .newEdge source edges)
    (accepted : ∃ applied, (controller.compensate now sequence author).result = .ok applied)
    (destination : ElementId) :
    (controller.compensate now sequence author).controller.store.referrers destination =
      eraseEach (referrersAmong destination entry.operation.addedEdges)
        (controller.store.referrers destination) := by
  obtain ⟨member, -⟩ := grown.record_of_entryAt? found
  have length : entry.edgeStamps.length = edges.size := grown.length_stamps member addition
  obtain ⟨checked, next⟩ :=
    compensate_entry grown.sound found (HistoryEntry.inverse?_newEdge addition) accepted
  obtain ⟨final, done⟩ := Operation.commit_of_validate grown.sound (check_eq_ok_iff.1 checked).1
  have listed : (edges.pairs.zip entry.edgeStamps).map (fun edge => (source, edge.1)) =
      entry.operation.addedEdges := by
    have pairs : (edges.pairs.zip entry.edgeStamps).map Prod.fst = edges.pairs :=
      List.map_fst_zip (Nat.le_of_eq length.symm)
    rw [addition]
    calc (edges.pairs.zip entry.edgeStamps).map (fun edge => (source, edge.1))
        = ((edges.pairs.zip entry.edgeStamps).map Prod.fst).map fun edge => (source, edge) :=
          List.map_map.symm
      _ = edges.pairs.map fun edge => (source, edge) := by rw [pairs]
  rw [next, Controller.grow, done]
  rw [Operation.commit, Operation.steps_removeEdge_stamped length] at done
  rw [← listed]
  exact grown.sound.referrers_perform_removeStamped done destination

/-! ## Undoing one addition -/

theorem Reverted.refl (start : Controller) : Reverted start [] start where
  store := .refl start.store
  nextStamp := Nat.le_refl _
  history := (List.append_nil _).symm
  undoes := List.forall_mem_nil _
  introduces := List.forall_mem_nil _

section Undo

variable {newer : List HistoryEntry}

/-- The entry of an addition stands at its number, whatever came after it. -/
theorem Reverted.found
    (reverted : Reverted (start.grow now operation author none) newer left) :
    left.entryAt? (start.history.length + 1) =
      some (start.entryFor now operation author none) := by
  apply entryAt?_eq_some_iff.2
  refine ⟨start.history, newer, ?_, rfl⟩
  rw [reverted.history, grow, List.append_assoc]
  rfl

/-- Neither what was there before the addition nor what came after it undoes it. -/
theorem Reverted.stands (grown : Grown config start)
    (reverted : Reverted (start.grow now operation author none) newer left) :
    left.Stands (start.history.length + 1) := by
  intro other member undoes
  rw [reverted.history] at member
  rcases List.mem_append.1 member with earlier | later
  · rcases List.mem_append.1 earlier with old | this
    · have numbered := grown.sequence_le (List.mem_map_of_mem old)
      have before := (grown.target_lt other old _ undoes).2
      exact absurd (Nat.lt_of_lt_of_le before numbered) Nat.not_succ_lt_self
    · rw [List.mem_singleton.1 this] at undoes
      cases undoes
  · have behind := reverted.undoes other later _ undoes
    rw [length_history_grow] at behind
    exact absurd behind (Nat.lt_irrefl _)

/-- What came after the addition introduces nothing that was there then. -/
theorem Reverted.latest (reverted : Reverted (start.grow now operation author none) newer left)
    {id : ElementId} (there : (start.grow now operation author none).store.contains id = true) :
    ∀ later ∈ left.history.drop (start.history.length + 1),
      later.operation.introduced? ≠ some id := by
  intro later member introduces
  rw [reverted.history, ← length_history_grow start now operation author none,
    List.drop_left] at member
  have absent := reverted.introduces later member id introduces
  rw [there] at absent
  cases absent

/-- The introduction of an element can be undone, and the graph is the one before. -/
theorem Reverted.restored_element (grown : Grown config start)
    (checked : start.check order operation = .ok ()) (grown' : Grown config left)
    (reverted : Reverted (start.grow now operation author none) newer left)
    {place : Element × Option ElementId} (declared : operation.place? = some place)
    (undo : Undo) (number : undo.sequence = start.history.length + 1) :
    (∃ applied, (left.compensate undo.now undo.sequence undo.author).result = .ok applied) ∧
      Store.Restored start.store
        (left.compensate undo.now undo.sequence undo.author).controller.store := by
  have valid := (check_eq_ok_iff.1 checked).1
  have grown_once : Grown config (start.grow now operation author none) := grown.submitted checked
  have added : Operation.Added operation start.store (start.grow now operation author none).store :=
    Operation.added_of_validate grown.sound (Operation.isAddition_of_place? declared) valid
  have introduced := Operation.introduced?_of_place? declared
  have absent := Operation.absent_of_validate valid introduced
  have entered := added.there_iff.2 (.inr introduced)
  have there : left.store.contains place.1.id = true :=
    (reverted.store.readsAs.contains place.1.id).trans entered
  have free := reverted.store.noDependents
    (added.noDependents grown.sound grown_once.sound declared absent)
  rw [number]
  have accepted : ∃ applied,
      (left.compensate undo.now (start.history.length + 1) undo.author).result = .ok applied :=
    (grown'.compensate_element_iff reverted.found declared).2
      ⟨reverted.stands grown, reverted.latest entered, there, free⟩
  obtain ⟨-, plucked⟩ := grown'.plucked_of_compensate reverted.found declared accepted
  exact ⟨accepted, added.restored_of_plucked grown.sound grown.rooted grown_once.rooted declared
    absent reverted.store plucked
    (grown'.call (.compensate undo.now (start.history.length + 1) undo.author)).sound⟩

/-- An addition of edges can be undone, and the graph is the one before. -/
theorem Reverted.restored_edges (grown : Grown config start)
    (checked : start.check order operation = .ok ()) (grown' : Grown config left)
    (reverted : Reverted (start.grow now operation author none) newer left)
    {source : ElementId} {edges : EdgeMap} (addition : operation = .newEdge source edges)
    (undo : Undo) (number : undo.sequence = start.history.length + 1) :
    (∃ applied, (left.compensate undo.now undo.sequence undo.author).result = .ok applied) ∧
      Store.Restored start.store
        (left.compensate undo.now undo.sequence undo.author).controller.store := by
  have valid := (check_eq_ok_iff.1 checked).1
  have grown_once : Grown config (start.grow now operation author none) := grown.submitted checked
  have added : Operation.Added operation start.store (start.grow now operation author none).store :=
    Operation.added_of_validate grown.sound (addition ▸ rfl) valid
  have source_there : start.store.contains source = true :=
    (Operation.validate_newEdge_eq_ok_iff.1 (addition ▸ valid)).1
  have there : left.store.contains source = true :=
    (reverted.store.readsAs.contains source).trans (added.there_iff.2 (.inl source_there))
  have linked : ∀ stamp ∈ (start.entryFor now operation author none).edgeStamps,
      ∃ id edgeType, stamp ∈ left.store.edgeStamps id edgeType := by
    intro stamp given
    obtain ⟨id, edgeType, inGrown⟩ := added.stamps_there grown_once.sound given
    refine ⟨id, edgeType, ?_⟩
    rw [reverted.store.readsAs.edgeStamps]
    exact inGrown
  rw [number]
  have accepted : ∃ applied,
      (left.compensate undo.now (start.history.length + 1) undo.author).result = .ok applied :=
    (grown'.compensate_edges_iff reverted.found addition).2
      ⟨reverted.stands grown, there, linked⟩
  have filled : start.store.slots ≠ [] := by
    obtain ⟨slot, member, -⟩ := Store.contains_iff.1 source_there
    exact List.ne_nil_of_mem member
  exact ⟨accepted, added.restored_of_stripped grown.sound filled (addition ▸ rfl) reverted.store
    (grown'.stripped_of_compensate reverted.found addition accepted)
    (grown'.referrers_of_compensate reverted.found addition accepted)
    (grown'.call (.compensate undo.now (start.history.length + 1) undo.author)).sound⟩

/-- With the addition and its undoing at the two ends, the newer entries still leave the earlier
controller alone. -/
theorem Reverted.close (valid : operation.validate order start.store = .ok ())
    (added : Operation.Added operation start.store (start.grow now operation author none).store)
    (grown' : Grown config left)
    (reverted : Reverted (start.grow now operation author none) newer left) {inverse : Operation}
    (brings_nothing : inverse.introduced? = none) (now' : Occasion) (author' : String)
    (restored : Store.Restored start.store (inverse.commit left.store).2) :
    Reverted start
      (start.entryFor now operation author none ::
        (newer ++ [left.entryFor now' inverse author' (some (start.history.length + 1))]))
      (left.grow now' inverse author' (some (start.history.length + 1))) where
  store := restored
  nextStamp := by
    have longer : start.store.nextStamp ≤ (start.grow now operation author none).store.nextStamp :=
      added.nextStamp ▸ Nat.le_add_right _ _
    have later := grown'.sound.later_perform inverse.steps
    exact Nat.le_trans longer (Nat.le_trans reverted.nextStamp later.nextStamp)
  history := by
    rw [grow, reverted.history, grow, List.append_assoc, List.append_assoc]
    rfl
  undoes := by
    intro entry member target undoes
    rcases List.mem_cons.1 member with rfl | others
    · cases undoes
    · rcases List.mem_append.1 others with between | last
      · have behind := reverted.undoes entry between target undoes
        rw [length_history_grow] at behind
        omega
      · rw [List.mem_singleton.1 last] at undoes
        have is : start.history.length + 1 = target := Option.some.inj undoes
        omega
  introduces := by
    intro entry member id introduces
    rcases List.mem_cons.1 member with rfl | others
    · exact Operation.absent_of_validate valid introduces
    · rcases List.mem_append.1 others with between | last
      · have absent := reverted.introduces entry between id introduces
        rw [Bool.eq_false_iff] at absent ⊢
        exact fun there => absent (added.there_iff.2 (.inl there))
      · rw [List.mem_singleton.1 last] at introduces
        have brought : inverse.introduced? = some id := introduces
        rw [brings_nothing] at brought
        cases brought

/-- An addition can be undone where its graph is there again, and then so is the graph before it. -/
theorem Reverted.undo (grown : Grown config start) (checked : start.check order operation = .ok ())
    (addition : operation.isAddition = true) (grown' : Grown config left)
    (reverted : Reverted (start.grow now operation author none) newer left) (undo : Undo)
    (number : undo.sequence = start.history.length + 1) :
    (∃ applied, (left.compensate undo.now undo.sequence undo.author).result = .ok applied) ∧
      ∃ newer', Reverted start newer'
        (left.compensate undo.now undo.sequence undo.author).controller := by
  obtain ⟨accepted, restored⟩ : (∃ applied,
      (left.compensate undo.now undo.sequence undo.author).result = .ok applied) ∧
        Store.Restored start.store
          (left.compensate undo.now undo.sequence undo.author).controller.store := by
    rcases operation.place?_or_newEdge addition with ⟨place, declared⟩ | ⟨source, edges, is⟩
    · exact reverted.restored_element grown checked grown' declared undo number
    · exact reverted.restored_edges grown checked grown' is undo number
  have valid := (check_eq_ok_iff.1 checked).1
  have added := Operation.added_of_validate grown.sound addition valid
  obtain ⟨inverse, next, brings_nothing⟩ := grown'.compensate_grows accepted
  refine ⟨accepted, ?_⟩
  rw [next] at restored ⊢
  rw [number]
  exact ⟨_, reverted.close valid added grown' brings_nothing undo.now undo.author restored⟩

end Undo

/-! ## Undoing all of them -/

/-- Additions that were accepted one after the other can be undone in reverse order. -/
theorem Grown.reverted_submitAll (grown : Grown config start) {submissions : List Submission}
    (additions : ∀ submission ∈ submissions, submission.operation.isAddition = true)
    {numbers : List Nat} {final : Controller}
    (done : start.submitAll submissions = .ok (numbers, final)) {undos : List Undo}
    (backwards : undos.map Undo.sequence = numbers.reverse) :
    ∃ left newer, final.compensateAll undos = .ok left ∧ Grown config left ∧
      Reverted start newer left := by
  induction submissions generalizing start numbers undos with
  | nil =>
      cases done
      rw [List.map_eq_nil_iff.1 backwards]
      exact ⟨_, [], rfl, grown, .refl _⟩
  | cons submission submissions ih =>
      rw [List.forall_mem_cons] at additions
      obtain ⟨checked, others, rfl, rest⟩ := submitAll_cons grown.sound done
      have grown_once : Grown config
          (start.grow submission.now submission.operation submission.author none) :=
        grown.submitted checked
      rw [List.reverse_cons] at backwards
      obtain ⟨earlier, last, rfl, before, final_one⟩ := List.map_eq_append_iff.1 backwards
      obtain ⟨undo, rfl, number⟩ := List.map_eq_singleton_iff.1 final_one
      obtain ⟨left, newer, undone, grown', reverted⟩ := ih grown_once additions.2 rest before
      obtain ⟨accepted, newer', reverted'⟩ :=
        reverted.undo grown checked additions.1 grown' undo number
      refine ⟨_, newer', ?_, grown'.call (.compensate undo.now undo.sequence undo.author), reverted'⟩
      rw [compensateAll_append, undone]
      exact compensateAll_singleton accepted

/-- **Whatever calls made a controller, roots, elements and edges that are added to it one after the
other can be undone one after the other, the last one first. The graph is then the same, and answers
every read as before; stamps and entries that were given out in between stay.** -/
theorem compensateAll_reverse (config : Config) (calls : List Call) (submissions : List Submission)
    (additions : ∀ submission ∈ submissions, submission.operation.isAddition = true)
    (numbers : List Nat) {final : Controller}
    (done : ((Controller.new config).run calls).submitAll submissions = .ok (numbers, final))
    (undos : List Undo) (backwards : undos.map Undo.sequence = numbers.reverse) :
    let start := (Controller.new config).run calls
    ∃ left, final.compensateAll undos = .ok left ∧
      left.store.same start.store = true ∧
      start.store.ReadsAs left.store ∧
      start.store.nextStamp ≤ left.store.nextStamp ∧
      start.history <+: left.history ∧
      left.config = start.config := by
  intro start
  have grown : Grown config start := grown_run config calls
  obtain ⟨left, newer, undone, grown', reverted⟩ :=
    grown.reverted_submitAll additions done backwards
  refine ⟨left, undone, reverted.store.same grown.sound grown'.sound, reverted.store.readsAs,
    reverted.nextStamp, ?_, ?_⟩
  · rw [reverted.history]
    exact List.prefix_append _ _
  · rw [grown'.config_eq, grown.config_eq]

/-- A root, and a class without a container that is removed again. -/
def removedClass : List Call :=
  [.apply .epoch (.root ⟨.ofNat 1, "demo", "demo", ""⟩),
   .apply .epoch (.newElement (.clazz ⟨.ofNat 2, "Shape"⟩) none .empty),
   .submit .epoch (.removeElement (.ofNat 2) false) "someone"]

/-- The class comes back with an edge to itself, gets a method with equal edges, and one more edge. -/
def classAgain : List Submission :=
  [⟨.epoch, .newElement (.clazz ⟨.ofNat 2, "Shape"⟩) none (.ofDestinations .typeOf [.ofNat 2]),
     "someone"⟩,
   ⟨.epoch, .newElement (.method ⟨.ofNat 3, "area"⟩) (some (.ofNat 2))
     (.ofDestinations .typeOf [.ofNat 2, .ofNat 1, .ofNat 2]), "someone"⟩,
   ⟨.epoch, .newEdge (.ofNat 2) (.ofDestinations .typeOf [.ofNat 3, .ofNat 2]), "someone else"⟩]

/-- All three can be undone, the edge to the method first and the class last. -/
theorem compensateAll_reverse_classAgain :
    ∃ numbers final left,
      ((Controller.new .default).run removedClass).submitAll classAgain = .ok (numbers, final) ∧
      final.compensateAll [⟨.epoch, 6, "someone"⟩, ⟨.epoch, 5, "someone"⟩, ⟨.epoch, 4, "someone"⟩] =
        .ok left ∧
      ((Controller.new .default).run removedClass).store.ReadsAs left.store := by
  obtain ⟨left, undone, -, reads, -⟩ := compensateAll_reverse .default removedClass classAgain
    (by decide) [4, 5, 6] rfl
    [⟨.epoch, 6, "someone"⟩, ⟨.epoch, 5, "someone"⟩, ⟨.epoch, 4, "someone"⟩] rfl
  exact ⟨[4, 5, 6], _, left, rfl, undone, reads⟩

end Controller

end LanguageGraph
