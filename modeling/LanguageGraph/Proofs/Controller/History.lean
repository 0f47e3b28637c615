/-
# Proofs.Controller.History — what a history says

The history without its times is a list of records. Whether an entry may still be undone, and by which
operation, is a matter of the records alone (`compensationFor_eq_ok_iff`): the record stands at its
number, no other record undoes it, and no later one introduces the same element again.

The records of a grown controller are numbered from one (`Grown.numbered`), and the stamps they list
were given out in a row, to one record each (`Grown.stamped`, `Grown.stamps_apart`).
-/
import LanguageGraph.Proofs.Controller.Run
import LanguageGraph.Proofs.Store.Later
import LanguageGraph.Proofs.Stamp

namespace LanguageGraph

set_option autoImplicit false

/-- An operation that creates an orphan introduces it. -/
theorem Operation.introduced?_of_orphan? {operation : Operation} {id : ElementId}
    (orphaned : operation.orphan? = some id) : operation.introduced? = some id := by
  cases operation with
  | newElement element container edges =>
      cases container with
      | none => exact orphaned
      | some containerId => cases orphaned
  | _ => cases orphaned

namespace Controller

variable {controller : Controller} {operation : Operation} {config : Config}

/-- The history without the times. -/
def records (controller : Controller) : List EntryRecord :=
  controller.history.map HistoryEntry.toEntryRecord

theorem length_records (controller : Controller) :
    controller.records.length = controller.history.length :=
  List.length_map ..

theorem records_grow (controller : Controller) (now : Occasion) (operation : Operation)
    (author : String) (compensates : Option Nat) :
    (controller.grow now operation author compensates).records =
      controller.records ++
        [(controller.entryFor now operation author compensates).toEntryRecord] :=
  List.map_append

theorem length_history_grow (controller : Controller) (now : Occasion) (operation : Operation)
    (author : String) (compensates : Option Nat) :
    (controller.grow now operation author compensates).history.length =
      controller.history.length + 1 :=
  List.length_append

theorem mem_records_grow {now : Occasion} {author : String} {compensates : Option Nat}
    {record : EntryRecord} :
    record ∈ (controller.grow now operation author compensates).records ↔
      record ∈ controller.records ∨
        record = (controller.entryFor now operation author compensates).toEntryRecord := by
  rw [records_grow, List.mem_append, List.mem_singleton]

/-! ## Undoing -/

theorem entryAt?_eq_some_iff {sequence : Nat} {entry : HistoryEntry} :
    controller.entryAt? sequence = some entry ↔
      ∃ before after, controller.history = before ++ entry :: after ∧
        sequence = before.length + 1 := by
  unfold entryAt?
  constructor
  · intro found
    split at found
    · cases found
    · obtain ⟨before, after, split, length⟩ := split_of_getElem? found
      exact ⟨before, after, split, by omega⟩
  · rintro ⟨before, after, split, rfl⟩
    rw [if_neg (Nat.succ_ne_zero _), split, Nat.add_sub_cancel]
    exact getElem?_split before after entry

theorem records_split {before after : List EntryRecord} {record : EntryRecord}
    (split : controller.records = before ++ record :: after) :
    ∃ earlier entry later, controller.history = earlier ++ entry :: later ∧
      earlier.map HistoryEntry.toEntryRecord = before ∧ entry.toEntryRecord = record ∧
      later.map HistoryEntry.toEntryRecord = after := by
  obtain ⟨earlier, rest, whole, is, more⟩ := List.map_eq_append_iff.1 split
  obtain ⟨entry, later, rfl, this, those⟩ := List.map_eq_cons_iff.1 more
  exact ⟨earlier, entry, later, whole, is, this, those⟩

/-- What is said of entries without their times, in terms of records. -/
theorem compensationFor_of_split {before after : List HistoryEntry} {entry : HistoryEntry}
    (split : controller.history = before ++ entry :: after) {inverse : Operation} :
    controller.compensationFor (before.length + 1) = .ok inverse ↔
      (∀ other ∈ controller.history, other.compensates ≠ some (before.length + 1)) ∧
        (∀ id, entry.operation.introduced? = some id →
          ∀ later ∈ after, later.operation.introduced? ≠ some id) ∧
        entry.inverse? = some inverse := by
  have found : controller.entryAt? (before.length + 1) = some entry :=
    entryAt?_eq_some_iff.2 ⟨before, after, split, rfl⟩
  have behind : controller.history.drop (before.length + 1) = after := by
    rw [split, List.drop_length_add_append]
    rfl
  rw [compensationFor, found, behind]
  dsimp only
  split
  · rename_i undone
    obtain ⟨other, member, is⟩ := List.any_eq_true.1 undone
    simp only [reduceCtorEq, false_iff]
    intro free
    exact free.1 other member (of_decide_eq_true is)
  · rename_i free
    have unundone : ∀ other ∈ controller.history, other.compensates ≠ some (before.length + 1) :=
      fun other member is => free (List.any_eq_true.2 ⟨other, member, decide_eq_true is⟩)
    split
    · rename_i later found
      obtain ⟨id, introduced, again⟩ := Option.bind_eq_some_iff.1 found
      simp only [reduceCtorEq, false_iff]
      intro free
      have same := List.find?_some again
      exact free.2.1 id introduced later (List.mem_of_find?_eq_some again) (of_decide_eq_true same)
    · rename_i none_later
      have unrepeated : ∀ id, entry.operation.introduced? = some id →
          ∀ later ∈ after, later.operation.introduced? ≠ some id := by
        intro id introduced later member is
        rw [introduced, Option.bind_some] at none_later
        exact List.find?_eq_none.1 none_later later member (decide_eq_true is)
      cases entry.inverse? with
      | some other =>
          simp only [Except.ok.injEq, Option.some.injEq]
          exact ⟨fun same => ⟨unundone, unrepeated, same⟩, fun free => free.2.2⟩
      | none => simp

/-- An entry may be undone when no entry undoes it, no later one introduces the same element, and its
operation has an inverse. -/
theorem compensationFor_eq_ok_iff {sequence : Nat} {inverse : Operation} :
    controller.compensationFor sequence = .ok inverse ↔
      ∃ before record after, controller.records = before ++ record :: after ∧
        sequence = before.length + 1 ∧
        (∀ other ∈ controller.records, other.compensates ≠ some sequence) ∧
        (∀ id, record.operation.introduced? = some id →
          ∀ later ∈ after, later.operation.introduced? ≠ some id) ∧
        record.operation.inverse? record.edgeStamps = some inverse := by
  constructor
  · intro allowed
    cases found : controller.entryAt? sequence with
    | none => simp [compensationFor, found] at allowed
    | some entry =>
        obtain ⟨before, after, split, rfl⟩ := entryAt?_eq_some_iff.1 found
        obtain ⟨unundone, unrepeated, inverted⟩ := (compensationFor_of_split split).1 allowed
        refine ⟨before.map HistoryEntry.toEntryRecord, entry.toEntryRecord,
          after.map HistoryEntry.toEntryRecord, ?_, ?_, ?_, ?_, inverted⟩
        · rw [records, split, List.map_append, List.map_cons]
        · rw [List.length_map]
        · exact List.forall_mem_map.2 unundone
        · exact fun id introduced => List.forall_mem_map.2 (unrepeated id introduced)
  · rintro ⟨before, record, after, split, rfl, unundone, unrepeated, inverted⟩
    obtain ⟨earlier, entry, later, whole, rfl, rfl, rfl⟩ := records_split split
    rw [List.length_map] at unundone ⊢
    refine (compensationFor_of_split whole).2 ⟨?_, ?_, inverted⟩
    · intro other member
      exact unundone other.toEntryRecord (List.mem_map_of_mem member)
    · intro id introduced other member
      exact unrepeated id introduced other.toEntryRecord (List.mem_map_of_mem member)

theorem compensate_of_allowed {sequence : Nat} {inverse : Operation}
    (allowed : controller.compensationFor sequence = .ok inverse) (now : Occasion)
    (author : String) :
    controller.compensate now sequence author =
      controller.record now inverse author (some sequence) := by
  rw [compensate, allowed]

/-- An undoing is accepted when there is one and it passes the checks. -/
theorem compensate_accepted_iff {now : Occasion} {sequence : Nat} {author : String}
    (sound : controller.store.Sound) (order : EdgeOrder) :
    (∃ applied, (controller.compensate now sequence author).result = .ok applied) ↔
      ∃ inverse, controller.compensationFor sequence = .ok inverse ∧
        controller.check order inverse = .ok () := by
  cases allowed : controller.compensationFor sequence with
  | error refusal => simp [compensate, allowed]
  | ok inverse =>
      rw [compensate_of_allowed allowed]
      constructor
      · rintro ⟨applied, answer⟩
        refine ⟨inverse, rfl, ?_⟩
        rcases record_cases sound now inverse author (some sequence) with
          ⟨checked, -, -⟩ | ⟨-, refusal, -, refused⟩
        · exact check_of_order checked order
        · rw [refused] at answer
          cases answer
      · rintro ⟨_, same, checked⟩
        cases same
        rw [record_of_check sound checked]
        exact ⟨_, rfl⟩

theorem compensate_of_checked {now : Occasion} {sequence : Nat} {author : String}
    (sound : controller.store.Sound) {order : EdgeOrder} {inverse : Operation}
    (allowed : controller.compensationFor sequence = .ok inverse)
    (checked : controller.check order inverse = .ok ()) :
    (controller.compensate now sequence author).controller =
      controller.grow now inverse author (some sequence) := by
  rw [compensate_of_allowed allowed, record_of_check sound checked]

/-! ## What committing writes down -/

/-- What holds of every entry as it is appended holds of all entries. -/
theorem Grown.forall_entries {motive : HistoryEntry → Prop} (grown : Grown config controller)
    (appended : ∀ (earlier : Controller) (now : Occasion) (operation : Operation) (author : String)
      (compensates : Option Nat), Grown config earlier →
        (∀ target, compensates = some target → earlier.compensationFor target = .ok operation) →
        earlier.check now.order operation = .ok () →
          motive (earlier.entryFor now operation author compensates)) :
    ∀ entry ∈ controller.history, motive entry := by
  induction grown with
  | new =>
      intro entry member
      cases member
  | @grow controller now operation author compensates grown undoing checked ih =>
      intro entry member
      rcases List.mem_append.1 member with old | new
      · exact ih entry old
      · rw [List.mem_singleton.1 new]
        exact appended controller now operation author compensates grown undoing checked

theorem Grown.warned (grown : Grown config controller) :
    ∀ entry ∈ controller.history, entry.warnings = warningsOf entry.operation :=
  grown.forall_entries fun _ _ _ _ _ _ _ _ => rfl

theorem Grown.unorphaned (grown : Grown config controller) (strict : config.rejectOrphans = true) :
    ∀ entry ∈ controller.history, entry.operation.orphan? = none := by
  refine grown.forall_entries ?_
  intro earlier now operation author compensates grown _ checked
  exact (check_eq_ok_iff.1 checked).2 (grown.config_eq ▸ strict)

/-- An entry undoes an earlier one. -/
theorem Grown.target_lt (grown : Grown config controller) :
    ∀ entry ∈ controller.history, ∀ target, entry.compensates = some target →
      0 < target ∧ target < entry.sequence := by
  refine grown.forall_entries ?_
  intro earlier now operation author compensates _ undoing _ target undoes
  obtain ⟨before, record, after, split, rfl, -⟩ :=
    compensationFor_eq_ok_iff.1 (undoing target undoes)
  show 0 < before.length + 1 ∧ before.length + 1 < earlier.history.length + 1
  rw [← length_records, split, List.length_append, List.length_cons]
  omega

/-- Records are numbered from one. -/
theorem Grown.sequences (grown : Grown config controller) :
    controller.records.map EntryRecord.sequence = List.range' 1 controller.records.length := by
  induction grown with
  | new => rfl
  | @grow controller now operation author compensates grown undoing checked ih =>
      rw [records_grow, List.map_append, ih, List.length_append, List.length_singleton,
        List.range'_concat, List.map_singleton, Nat.one_mul, Nat.add_comm 1, length_records]
      rfl

theorem Grown.numbered (grown : Grown config controller) {before after : List EntryRecord}
    {record : EntryRecord} (split : controller.records = before ++ record :: after) :
    before.map EntryRecord.sequence = List.range' 1 before.length ∧
      record.sequence = before.length + 1 := by
  have numbers := grown.sequences
  rw [split, List.map_append, List.length_append, ← List.range'_append, Nat.one_mul] at numbers
  obtain ⟨early, late⟩ := List.append_inj numbers (by rw [List.length_map, List.length_range'])
  rw [List.map_cons, List.length_cons, List.range'_succ] at late
  exact ⟨early, (List.cons.inj late).1.trans (Nat.add_comm _ _)⟩

theorem Grown.sequence_le (grown : Grown config controller) {record : EntryRecord}
    (member : record ∈ controller.records) :
    record.sequence ≤ controller.history.length := by
  obtain ⟨before, after, split⟩ := List.append_of_mem member
  rw [(grown.numbered split).2, ← length_records, split, List.length_append, List.length_cons]
  omega

theorem Grown.eq_of_sequence (grown : Grown config controller) {first second : EntryRecord}
    (member : first ∈ controller.records) (member' : second ∈ controller.records)
    (same : first.sequence = second.sequence) : first = second := by
  have nodup : (controller.records.map EntryRecord.sequence).Nodup := by
    rw [grown.sequences]
    exact List.nodup_range'
  exact List.inj_on_of_nodup_map nodup member member' same

theorem Grown.record_of_entryAt? (grown : Grown config controller) {sequence : Nat}
    {entry : HistoryEntry} (found : controller.entryAt? sequence = some entry) :
    entry.toEntryRecord ∈ controller.records ∧ entry.sequence = sequence := by
  obtain ⟨before, after, split, rfl⟩ := entryAt?_eq_some_iff.1 found
  have whole : controller.records =
      before.map HistoryEntry.toEntryRecord ++ entry.toEntryRecord ::
        after.map HistoryEntry.toEntryRecord := by
    rw [records, split, List.map_append, List.map_cons]
  have number := (grown.numbered whole).2
  rw [List.length_map] at number
  refine ⟨?_, number⟩
  rw [whole]
  exact List.mem_append_cons_self

/-- A record holds stamps in a row that the store has given out, one for each edge that was added. -/
theorem Grown.stamped (grown : Grown config controller) :
    ∀ record ∈ controller.records, ∃ first next,
      record.edgeStamps = EdgeStamp.between first next ∧ next ≤ controller.store.nextStamp ∧
        ∀ source edges, record.operation = .newEdge source edges → next = first + edges.size := by
  induction grown with
  | new =>
      intro record member
      cases member
  | @grow controller now operation author compensates grown undoing checked ih =>
      intro record member
      rcases mem_records_grow.1 member with old | rfl
      · obtain ⟨first, next, stamps, below, counted⟩ := ih record old
        have later := grown.sound.later_perform operation.steps
        exact ⟨first, next, stamps, Nat.le_trans below later.nextStamp, counted⟩
      · refine ⟨_, _, rfl, Nat.le_refl _, ?_⟩
        rintro source edges rfl
        obtain ⟨final, done⟩ :=
          Operation.commit_of_validate grown.sound (check_eq_ok_iff.1 checked).1
        rw [done]
        exact Store.nextStamp_of_perform_addEdges done

theorem Grown.stamps_below (grown : Grown config controller) {record : EntryRecord}
    (member : record ∈ controller.records) {stamp : EdgeStamp} (listed : stamp ∈ record.edgeStamps) :
    stamp.number < controller.store.nextStamp := by
  obtain ⟨first, next, stamps, below, -⟩ := grown.stamped record member
  rw [stamps, EdgeStamp.mem_between] at listed
  exact Nat.lt_of_lt_of_le listed.2 below

theorem Grown.stamps_nodup (grown : Grown config controller) {record : EntryRecord}
    (member : record ∈ controller.records) : record.edgeStamps.Nodup := by
  obtain ⟨first, next, stamps, -, -⟩ := grown.stamped record member
  rw [stamps]
  exact EdgeStamp.nodup_between first next

theorem Grown.length_stamps (grown : Grown config controller) {record : EntryRecord}
    (member : record ∈ controller.records) {source : ElementId} {edges : EdgeMap}
    (addition : record.operation = .newEdge source edges) :
    record.edgeStamps.length = edges.size := by
  obtain ⟨first, next, stamps, -, counted⟩ := grown.stamped record member
  rw [stamps, EdgeStamp.length_between, counted source edges addition, Nat.add_sub_cancel_left]

theorem Grown.stamps_apart (grown : Grown config controller) :
    ∀ first ∈ controller.records, ∀ second ∈ controller.records, ∀ stamp,
      stamp ∈ first.edgeStamps → stamp ∈ second.edgeStamps → first.sequence = second.sequence := by
  induction grown with
  | new =>
      intro first member
      cases member
  | @grow controller now operation author compensates grown undoing checked ih =>
      have apart : ∀ old ∈ controller.records, ∀ stamp ∈ old.edgeStamps,
          stamp ∉ (controller.entryFor now operation author compensates).edgeStamps := by
        intro old member stamp early late
        have given_out := grown.stamps_below member early
        exact absurd given_out (Nat.not_lt.2 (EdgeStamp.mem_between.1 late).1)
      intro first member second member' stamp inFirst inSecond
      rcases mem_records_grow.1 member with old | rfl <;>
        rcases mem_records_grow.1 member' with old' | rfl
      · exact ih first old second old' stamp inFirst inSecond
      · exact absurd inSecond (apart first old stamp inFirst)
      · exact absurd inFirst (apart second old' stamp inSecond)
      · rfl

end Controller

end LanguageGraph
