/-
# Proofs.Controller.Undo — undoing additions of edges

An entry that added edges can be undone as long as no entry undoes it and all its edges are still there
(`Removable`). Undoing it takes out exactly its edges, which are not those of any other entry; so the
other entries stay as removable as they were, and the entries of a list can be undone in one order as in
any other, to the same effect (`compensateAll_of_removable`). In turn, a list that was undone in some
order was removable to begin with (`removable_of_compensateAll`).
-/
import LanguageGraph.Proofs.Controller.History
import LanguageGraph.Proofs.Store.Stripping

namespace LanguageGraph

set_option autoImplicit false

structure Undo where
  now : Occasion
  sequence : Nat
  author : String

namespace Controller

/-- Undo entries one after the other, up to the first refusal. -/
def compensateAll (controller : Controller) : List Undo → Except Refusal Controller
  | [] => .ok controller
  | undo :: undos =>
      let outcome := controller.compensate undo.now undo.sequence undo.author
      match outcome.result with
      | .error refusal => .error refusal
      | .ok _ => outcome.controller.compensateAll undos

/-- The stamps that the entries with some numbers gave out. -/
def stampsOf (controller : Controller) (sequences : List Nat) : List EdgeStamp :=
  (controller.records.filter fun record => record.sequence ∈ sequences).flatMap
    EntryRecord.edgeStamps

/-- An entry that added edges can be undone: nothing undoes it, and its edges are there. -/
structure Removable (controller : Controller) (record : EntryRecord) (source : ElementId)
    (edges : EdgeMap) : Prop where
  member : record ∈ controller.records
  addition : record.operation = .newEdge source edges
  free : ∀ other ∈ controller.records, other.compensates ≠ some record.sequence
  there : controller.store.contains source = true
  linked : ∀ edge ∈ edges.pairs.zip record.edgeStamps,
    (edge.1.2, edge.2) ∈ controller.store.links source edge.1.1

variable {controller : Controller} {config : Config} {order : EdgeOrder} {record : EntryRecord}
  {source : ElementId} {edges : EdgeMap}

theorem mem_stampsOf {sequences : List Nat} {stamp : EdgeStamp} :
    stamp ∈ controller.stampsOf sequences ↔
      ∃ record ∈ controller.records, record.sequence ∈ sequences ∧
        stamp ∈ record.edgeStamps := by
  simp only [stampsOf, List.mem_flatMap, List.mem_filter, decide_eq_true_iff, and_assoc]

/-! ## Undoing one entry -/

/-- Listed edges beside the stamps they got, stamp by stamp. -/
theorem Grown.map_snd_zip (grown : Grown config controller) (member : record ∈ controller.records)
    (addition : record.operation = .newEdge source edges) :
    (edges.pairs.zip record.edgeStamps).map Prod.snd = record.edgeStamps :=
  List.map_snd_zip (Nat.le_of_eq (grown.length_stamps member addition))

theorem Grown.compensationFor_newEdge (grown : Grown config controller)
    (member : record ∈ controller.records)
    (addition : record.operation = .newEdge source edges) {inverse : Operation} :
    controller.compensationFor record.sequence = .ok inverse ↔
      (∀ other ∈ controller.records, other.compensates ≠ some record.sequence) ∧
        inverse = .removeEdge source edges record.edgeStamps := by
  rw [compensationFor_eq_ok_iff]
  constructor
  · rintro ⟨before, other, after, split, number, free, -, inverted⟩
    have same : other = record := by
      refine grown.eq_of_sequence ?_ member ((grown.numbered split).2.trans number.symm)
      rw [split]
      exact List.mem_append_cons_self
    rw [same, addition] at inverted
    cases inverted
    exact ⟨free, rfl⟩
  · rintro ⟨free, rfl⟩
    obtain ⟨before, after, split⟩ := List.append_of_mem member
    refine ⟨before, record, after, split, (grown.numbered split).2, free, ?_, ?_⟩
    · rw [addition]
      intro id introduced
      cases introduced
    · rw [addition]
      rfl

theorem Grown.check_removeEdge (grown : Grown config controller)
    (member : record ∈ controller.records)
    (addition : record.operation = .newEdge source edges) :
    controller.check order (.removeEdge source edges record.edgeStamps) = .ok () ↔
      controller.store.contains source = true ∧
        ∀ edge ∈ edges.pairs.zip record.edgeStamps,
          (edge.1.2, edge.2) ∈ controller.store.links source edge.1.1 := by
  have length := grown.length_stamps member addition
  have unorphaned : controller.config.rejectOrphans = true →
      (Operation.removeEdge source edges record.edgeStamps).orphan? = none := fun _ => rfl
  rw [check_eq_ok_iff, and_iff_left unorphaned, Operation.validate]
  cases there : controller.store.contains source with
  | false => simp
  | true =>
      rw [if_neg (by simp), and_iff_right rfl]
      split
      · rename_i unstamped
        have none_listed : edges.pairs = [] := by
          rw [List.isEmpty_iff.1 unstamped] at length
          exact List.length_eq_zero_iff.1 length.symm
        rw [Operation.checkCounts_eq_ok_iff, none_listed]
        simp
      · rw [if_neg (not_not.2 length), Operation.checkStamped_eq_ok_iff grown.sound.toLinked,
          grown.map_snd_zip member addition]
        constructor
        · exact fun stamped => stamped.2.2
        · exact fun beside =>
            ⟨grown.stamps_nodup member, fun _ _ => List.not_mem_nil, beside⟩

/-- Undoing an addition of edges takes these edges out and nothing else. -/
theorem Grown.stripped_removeEdge (grown : Grown config controller)
    (member : record ∈ controller.records)
    (addition : record.operation = .newEdge source edges)
    (checked : controller.check order (.removeEdge source edges record.edgeStamps) = .ok ()) :
    Store.Stripped record.edgeStamps controller.store
      ((Operation.removeEdge source edges record.edgeStamps).commit controller.store).2 := by
  obtain ⟨final, done⟩ := Operation.commit_of_validate grown.sound (check_eq_ok_iff.1 checked).1
  have length := grown.length_stamps member addition
  rw [done]
  rw [Operation.commit, Operation.steps_removeEdge_stamped length] at done
  have taken := Store.Stripped.perform grown.sound done
  rwa [grown.map_snd_zip member addition] at taken

/-- The controller after undoing an addition of edges. -/
def undone (controller : Controller) (undo : Undo) (record : EntryRecord) (source : ElementId)
    (edges : EdgeMap) : Controller :=
  controller.grow undo.now (.removeEdge source edges record.edgeStamps) undo.author
    (some record.sequence)

theorem Removable.checked (grown : Grown config controller)
    (removable : Removable controller record source edges) (order : EdgeOrder) :
    controller.check order (.removeEdge source edges record.edgeStamps) = .ok () :=
  (grown.check_removeEdge removable.member removable.addition).2
    ⟨removable.there, removable.linked⟩

theorem Removable.compensate (grown : Grown config controller)
    (removable : Removable controller record source edges) {undo : Undo}
    (number : record.sequence = undo.sequence) :
    Grown config (controller.undone undo record source edges) ∧
      (∃ applied, (controller.compensate undo.now undo.sequence undo.author).result =
        .ok applied) ∧
      (controller.compensate undo.now undo.sequence undo.author).controller =
        controller.undone undo record source edges := by
  have allowed := (grown.compensationFor_newEdge removable.member removable.addition).2
    ⟨removable.free, rfl⟩
  have checked := removable.checked grown undo.now.order
  refine ⟨.grow undo.now undo.author grown (fun target is => ?_) checked, ?_⟩
  · cases is
    exact allowed
  · rw [← number, compensate_of_allowed allowed, record_of_check grown.sound checked]
    exact ⟨⟨_, rfl⟩, rfl⟩

/-- An entry that was undone was removable. -/
theorem Grown.removable_of_compensate (grown : Grown config controller)
    (member : record ∈ controller.records) (addition : record.operation = .newEdge source edges)
    {undo : Undo} (number : record.sequence = undo.sequence) {applied : Applied}
    (done : (controller.compensate undo.now undo.sequence undo.author).result = .ok applied) :
    Removable controller record source edges := by
  rw [← number] at done
  cases allowed : controller.compensationFor record.sequence with
  | error refusal =>
      rw [Controller.compensate, allowed] at done
      cases done
  | ok inverse =>
      rw [compensate_of_allowed allowed] at done
      obtain ⟨free, rfl⟩ := (grown.compensationFor_newEdge member addition).1 allowed
      rcases record_cases grown.sound undo.now (.removeEdge source edges record.edgeStamps)
        undo.author (some record.sequence) with ⟨checked, -, -⟩ | ⟨-, refusal, -, refused⟩
      · obtain ⟨there, linked⟩ := (grown.check_removeEdge member addition).1 checked
        exact ⟨member, addition, free, there, linked⟩
      · rw [refused] at done
        cases done

/-! ## Undoing several entries -/

theorem mem_records_undone {undo : Undo} {other : EntryRecord}
    (member : other ∈ (controller.undone undo record source edges).records) :
    other ∈ controller.records ∨
      other.operation = .removeEdge source edges record.edgeStamps ∧
        other.sequence = controller.history.length + 1 ∧
        other.compensates = some record.sequence := by
  rcases mem_records_grow.1 member with old | rfl
  · exact .inl old
  · exact .inr ⟨rfl, rfl, rfl⟩

/-- Undoing one entry leaves every other removable. -/
theorem Removable.undone (grown : Grown config controller)
    (removable : Removable controller record source edges) (undo : Undo) {other : EntryRecord}
    {source' : ElementId} {edges' : EdgeMap}
    (removable' : Removable controller other source' edges')
    (unlike : other.sequence ≠ record.sequence) :
    Removable (controller.undone undo record source edges) other source' edges' := by
  have stripped := grown.stripped_removeEdge removable.member removable.addition
    (removable.checked grown undo.now.order)
  refine ⟨?_, removable'.addition, ?_, ?_, ?_⟩
  · exact mem_records_grow.2 (.inl removable'.member)
  · intro newer member
    rcases mem_records_undone member with old | ⟨-, -, undoes⟩
    · exact removable'.free newer old
    · rw [undoes]
      exact fun same => unlike (Option.some.inj same).symm
  · exact (stripped.contains source').trans removable'.there
  · intro edge member
    refine stripped.mem_links.2 ⟨removable'.linked edge member, fun taken => unlike ?_⟩
    exact grown.stamps_apart other removable'.member record removable.member edge.2
      (List.of_mem_zip member).2 taken

/-- What is removable after undoing one entry was so before, and is not that entry. -/
theorem Removable.of_undone (grown : Grown config controller)
    (removable : Removable controller record source edges) (undo : Undo) {other : EntryRecord}
    {source' : ElementId} {edges' : EdgeMap}
    (removable' : Removable (controller.undone undo record source edges) other source' edges') :
    Removable controller other source' edges' ∧ other.sequence ≠ record.sequence := by
  have stripped := grown.stripped_removeEdge removable.member removable.addition
    (removable.checked grown undo.now.order)
  refine ⟨⟨?_, removable'.addition, ?_, ?_, ?_⟩, ?_⟩
  · rcases mem_records_undone removable'.member with old | ⟨removal, -, -⟩
    · exact old
    · rw [removable'.addition] at removal
      cases removal
  · exact fun older member => removable'.free older (mem_records_grow.2 (.inl member))
  · exact (stripped.contains source').symm.trans removable'.there
  · exact fun edge member => (stripped.mem_links.1 (removable'.linked edge member)).1
  · intro same
    exact removable'.free _ (mem_records_grow.2 (.inr rfl)) (congrArg some same.symm)

/-- **Different removable entries can be undone in any order, and each time this takes out the edges
that they added, and nothing else.** -/
theorem Grown.compensateAll_of_removable (grown : Grown config controller) {undos : List Undo}
    (nodup : (undos.map Undo.sequence).Nodup)
    (removable : ∀ undo ∈ undos, ∃ record source edges, record.sequence = undo.sequence ∧
      Removable controller record source edges) :
    ∃ left, controller.compensateAll undos = .ok left ∧ Grown config left ∧
      Store.Stripped (controller.stampsOf (undos.map Undo.sequence)) controller.store
        left.store := by
  induction undos generalizing controller with
  | nil =>
      refine ⟨controller, rfl, grown, (Store.Stripped.refl _).congr fun stamp => ?_⟩
      simp [mem_stampsOf]
  | cons undo undos ih =>
      rw [List.map_cons, List.nodup_cons] at nodup
      rw [List.forall_mem_cons] at removable
      obtain ⟨⟨record, source, edges, number, first⟩, others⟩ := removable
      obtain ⟨grown', ⟨applied, answer⟩, next⟩ := first.compensate grown number
      -- Undoing the first entry leaves the others removable, from the next controller on.
      have rest : ∀ undo' ∈ undos, ∃ record' source' edges', record'.sequence = undo'.sequence ∧
          Removable (controller.undone undo record source edges) record' source' edges' := by
        intro undo' member
        obtain ⟨record', source', edges', number', later⟩ := others undo' member
        refine ⟨record', source', edges', number', first.undone grown undo later fun same => ?_⟩
        refine nodup.1 (List.mem_map.2 ⟨undo', member, ?_⟩)
        rw [← number', same, number]
      obtain ⟨left, done, grown_left, stripped⟩ := ih grown' nodup.2 rest
      refine ⟨left, ?_, grown_left, ?_⟩
      · rw [compensateAll, answer, next]
        exact done
      · refine ((grown.stripped_removeEdge first.member first.addition
          (first.checked grown undo.now.order)).trans stripped).congr fun stamp => ?_
        rw [List.mem_append, mem_stampsOf, mem_stampsOf, List.map_cons]
        constructor
        · rintro (taken | ⟨other, member, listed, taken⟩)
          · exact ⟨record, first.member, number ▸ List.mem_cons_self, taken⟩
          · refine ⟨other, ?_, List.mem_cons_of_mem _ listed, taken⟩
            rcases mem_records_undone member with old | ⟨-, last, -⟩
            · exact old
            · obtain ⟨undo', inUndos, same⟩ := List.mem_map.1 listed
              obtain ⟨record', source', edges', number', later⟩ := others undo' inUndos
              have := grown.sequence_le later.member
              omega
        · rintro ⟨other, member, listed, taken⟩
          rcases List.mem_cons.1 listed with same | listed
          · left
            rwa [grown.eq_of_sequence first.member member (number.trans same.symm)]
          · right
            exact ⟨other, mem_records_grow.2 (.inl member), listed, taken⟩

/-- Entries that were undone one after the other are different, and were removable from the start. -/
theorem Grown.removable_of_compensateAll (grown : Grown config controller) {undos : List Undo}
    (additions : ∀ undo ∈ undos, ∃ record ∈ controller.records, record.sequence = undo.sequence ∧
      ∃ source edges, record.operation = .newEdge source edges)
    {left : Controller} (done : controller.compensateAll undos = .ok left) :
    (undos.map Undo.sequence).Nodup ∧ ∀ undo ∈ undos, ∃ record source edges,
      record.sequence = undo.sequence ∧ Removable controller record source edges := by
  induction undos generalizing controller with
  | nil => exact ⟨List.nodup_nil, fun undo member => absurd member List.not_mem_nil⟩
  | cons undo undos ih =>
      rw [List.forall_mem_cons] at additions
      obtain ⟨⟨record, member, number, source, edges, addition⟩, others⟩ := additions
      rw [compensateAll] at done
      cases answer : (controller.compensate undo.now undo.sequence undo.author).result with
      | error refusal =>
          rw [answer] at done
          cases done
      | ok applied =>
          have first := grown.removable_of_compensate member addition number answer
          obtain ⟨grown', -, next⟩ := first.compensate grown number
          rw [answer, next] at done
          have still : ∀ undo' ∈ undos,
              ∃ record' ∈ (controller.undone undo record source edges).records,
                record'.sequence = undo'.sequence ∧
                  ∃ source edges, record'.operation = .newEdge source edges := by
            intro undo' inUndos
            obtain ⟨record', member', number', addition'⟩ := others undo' inUndos
            exact ⟨record', mem_records_grow.2 (.inl member'), number', addition'⟩
          obtain ⟨nodup, removable⟩ := ih grown' still done
          have before : ∀ undo' ∈ undos, ∃ record' source' edges',
              record'.sequence = undo'.sequence ∧ record'.sequence ≠ undo.sequence ∧
                Removable controller record' source' edges' := by
            intro undo' inUndos
            obtain ⟨record', source', edges', number', later⟩ := removable undo' inUndos
            obtain ⟨removable', unlike⟩ := first.of_undone grown undo later
            exact ⟨record', source', edges', number', number ▸ unlike, removable'⟩
          rw [List.map_cons, List.nodup_cons, List.forall_mem_cons]
          refine ⟨⟨fun twice => ?_, nodup⟩, ⟨record, source, edges, number, first⟩, ?_⟩
          · obtain ⟨undo', inUndos, same⟩ := List.mem_map.1 twice
            obtain ⟨record', source', edges', number', unlike, -⟩ := before undo' inUndos
            exact unlike (number'.trans same)
          · intro undo' inUndos
            obtain ⟨record', source', edges', number', -, removable'⟩ := before undo' inUndos
            exact ⟨record', source', edges', number', removable'⟩

end Controller

end LanguageGraph
