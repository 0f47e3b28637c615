/-
# Proofs.Controller.Provenance — where elements and edges come from

The history and the graph are kept apart: the one lists stamps entry by entry, the other beside the
destinations of each element. They never disagree. Every present element has an `Origin`: the last entry
that introduces it, which declares the very element and container that are stored, and all edges of the
element are among those declared in that entry or since, in the order of declaration (`Grown.origin`).

One step keeps this because no operation brings in more than it declares (`Operation.Affected`). A new
entry introduces only what was not there, so the origin of what was there stays the last of its kind; and
an element that enters again has no edges left from before.

Stamps are given out without a gap (`Grown.stamps_in_row`), so each names one entry and one of the edges
which that entry declares (`attributed_run`).
-/
import LanguageGraph.Proofs.Controller.History
import LanguageGraph.Proofs.Operation.Effect

namespace LanguageGraph

set_option autoImplicit false

def EntryRecord.addedLinks (record : EntryRecord) (id : ElementId) (edgeType : EdgeType) :
    List (ElementId × EdgeStamp) :=
  linksAmong id edgeType (record.operation.addedEdges.zip record.edgeStamps)

/-- An entry added a link when destination and stamp stand at one position of what it declares and of
what it lists. -/
theorem EntryRecord.mem_addedLinks {record : EntryRecord} {id : ElementId} {edgeType : EdgeType}
    {link : ElementId × EdgeStamp} :
    link ∈ record.addedLinks id edgeType ↔
      ∃ index : Nat, record.operation.addedEdges[index]? = some (id, edgeType, link.1) ∧
        record.edgeStamps[index]? = some link.2 := by
  rw [addedLinks, mem_linksAmong, List.mem_iff_getElem?]
  exact exists_congr fun index => List.getElem?_zip_eq_some

namespace Controller

variable {controller : Controller} {config : Config} {order : EdgeOrder}

/-! ## Stamps and entries -/

/-- An entry lists a stamp for each edge that it adds. -/
theorem Grown.counted (grown : Grown config controller) :
    ∀ record ∈ controller.records,
      record.edgeStamps.length = record.operation.addedEdges.length := by
  refine List.forall_mem_map.2 (grown.forall_entries ?_)
  intro earlier now operation author compensates grown _ checked
  have affected := Operation.affected_of_validate grown.sound (check_eq_ok_iff.1 checked).1
  show (EdgeStamp.between earlier.store.nextStamp
    (operation.commit earlier.store).2.nextStamp).length = operation.addedEdges.length
  rw [EdgeStamp.length_between, affected.nextStamp, Nat.add_sub_cancel_left]

/-- The entries together list all stamps, in order. -/
theorem Grown.stamps_in_row (grown : Grown config controller) :
    controller.records.flatMap EntryRecord.edgeStamps =
      EdgeStamp.between 0 controller.store.nextStamp := by
  induction grown with
  | new => rfl
  | @grow controller now operation author compensates grown undoing checked ih =>
      have later : controller.store.Later (operation.commit controller.store).2 :=
        grown.sound.later_perform operation.steps
      rw [records_grow, List.flatMap_append, ih, List.flatMap_singleton]
      exact EdgeStamp.between_append (Nat.zero_le _) later.nextStamp

/-- A stamp that one entry lists stands in no entry before or after. -/
theorem Grown.stamp_alone (grown : Grown config controller) {before after : List EntryRecord}
    {record : EntryRecord} (split : controller.records = before ++ record :: after)
    {stamp : EdgeStamp} (listed : stamp ∈ record.edgeStamps) :
    ∀ other ∈ before ++ after, stamp ∉ other.edgeStamps := by
  have nodup : (controller.records.map EntryRecord.sequence).Nodup := by
    rw [grown.sequences]
    exact List.nodup_range'
  rw [split, List.map_append, List.map_cons, List.nodup_middle, ← List.map_append,
    List.nodup_cons] at nodup
  intro other member listed'
  have inRecords : other ∈ controller.records := by
    rw [split]
    exact List.mem_append.2 ((List.mem_append.1 member).imp_right (List.mem_cons_of_mem record))
  have here : record ∈ controller.records := by
    rw [split]
    exact List.mem_append_cons_self
  have same := grown.stamps_apart other inRecords record here stamp listed' listed
  exact nodup.1 (same ▸ List.mem_map_of_mem member)

/-! ## Elements and entries -/

/-- The entry that an element stems from: it declares the element, no later one introduces it again,
and the element has no edges but those declared in that entry or since. -/
structure Origin (controller : Controller) (place : Element × Option ElementId)
    (before : List EntryRecord) (record : EntryRecord) (after : List EntryRecord) : Prop where
  split : controller.records = before ++ record :: after
  declared : record.operation.place? = some place
  latest : ∀ later ∈ after, later.operation.introduced? ≠ some place.1.id
  links : ∀ edgeType, (controller.store.links place.1.id edgeType).Sublist
    ((record :: after).flatMap fun since => since.addedLinks place.1.id edgeType)

/-- An operation that is committed later takes nothing from the origin of what was there. -/
theorem Origin.grow {place : Element × Option ElementId} {before after : List EntryRecord}
    {record : EntryRecord} (origin : Origin controller place before record after)
    (there : controller.store.contains place.1.id = true) {operation : Operation}
    (valid : operation.validate order controller.store = .ok ())
    (affected : operation.Affected controller.store (operation.commit controller.store).2)
    (now : Occasion) (author : String) (compensates : Option Nat) :
    Origin (controller.grow now operation author compensates) place before record
      (after ++ [(controller.entryFor now operation author compensates).toEntryRecord]) where
  split := by rw [records_grow, origin.split, List.append_assoc, List.cons_append]
  declared := origin.declared
  latest := by
    intro later member introduced
    rcases List.mem_append.1 member with old | new
    · exact origin.latest later old introduced
    · rw [List.mem_singleton.1 new] at introduced
      have absent := Operation.absent_of_validate valid introduced
      rw [there] at absent
      cases absent
  links edgeType := by
    have declared := affected.links place.1.id edgeType
    rw [← List.cons_append, List.flatMap_append, List.flatMap_singleton]
    exact declared.trans ((origin.links edgeType).append_right _)

theorem origin_of_introduced {place : Element × Option ElementId} {operation : Operation}
    (declared : operation.place? = some place)
    (valid : operation.validate order controller.store = .ok ())
    (affected : operation.Affected controller.store (operation.commit controller.store).2)
    (now : Occasion) (author : String) (compensates : Option Nat) :
    Origin (controller.grow now operation author compensates) place controller.records
      (controller.entryFor now operation author compensates).toEntryRecord [] where
  split := records_grow controller now operation author compensates
  declared := declared
  latest := by
    intro later member
    cases member
  links edgeType := by
    have absent := Operation.absent_of_validate valid (Operation.introduced?_of_place? declared)
    have fresh := affected.links place.1.id edgeType
    rw [Store.links_of_absent absent, List.nil_append] at fresh
    rw [List.flatMap_singleton]
    exact fresh

/-- **Every present element, with its container, was declared by the last entry that introduces it, and
its edges in that entry or since.** -/
theorem Grown.origin (grown : Grown config controller) :
    ∀ place ∈ controller.store.places,
      ∃ before record after, Origin controller place before record after := by
  induction grown with
  | new =>
      intro place member
      cases member
  | @grow controller now operation author compensates grown undoing checked ih =>
      have valid := (check_eq_ok_iff.1 checked).1
      have affected := Operation.affected_of_validate grown.sound valid
      intro place member
      rcases List.mem_append.1 (affected.places.subset member) with old | new
      · obtain ⟨before, record, after, origin⟩ := ih place old
        have there : controller.store.contains place.1.id = true :=
          Store.contains_iff_ids.2 (List.mem_map_of_mem old)
        exact ⟨before, record, _, origin.grow there valid affected now author compensates⟩
      · have declared : operation.place? = some place := Option.mem_toList.1 new
        exact ⟨_, _, _, origin_of_introduced declared valid affected now author compensates⟩

/-- What the last entry that introduces a present element declares is what is stored. -/
theorem Grown.place_of_latest (grown : Grown config controller) {before after : List EntryRecord}
    {record : EntryRecord} (split : controller.records = before ++ record :: after)
    {place : Element × Option ElementId} (declared : record.operation.place? = some place)
    (latest : ∀ later ∈ after, later.operation.introduced? ≠ some place.1.id)
    (there : controller.store.contains place.1.id = true) : place ∈ controller.store.places := by
  obtain ⟨slot, member, same⟩ := Store.contains_iff.1 there
  have stored : slot.place ∈ controller.store.places := List.mem_map_of_mem member
  obtain ⟨before', record', after', origin⟩ := grown.origin slot.place stored
  have introduces := Operation.introduced?_of_place? declared
  have introduces' := Operation.introduced?_of_place? origin.declared
  have latest' := origin.latest
  rw [show slot.place.1.id = place.1.id from same] at introduces' latest'
  have same_record : record = record' := last_unique
    (p := fun record => record.operation.introduced? = some place.1.id)
    (split.symm.trans origin.split) introduces introduces' latest latest'
  have same_place := origin.declared
  rw [← same_record, declared] at same_place
  rw [Option.some.inj same_place]
  exact stored

/-- Every link was added by an entry. -/
theorem Grown.record_of_link (grown : Grown config controller) {id : ElementId}
    {edgeType : EdgeType} {link : ElementId × EdgeStamp}
    (there : link ∈ controller.store.links id edgeType) :
    ∃ record ∈ controller.records, link ∈ record.addedLinks id edgeType := by
  obtain ⟨slot, member, rfl, -⟩ := grown.sound.toLinked.mem_links there
  obtain ⟨before, record, after, origin⟩ := grown.origin slot.place (List.mem_map_of_mem member)
  obtain ⟨since, listed, added⟩ := List.mem_flatMap.1 ((origin.links edgeType).subset there)
  refine ⟨since, ?_, added⟩
  rw [origin.split]
  exact List.mem_append_right before listed

/-! ## All of it -/

/-- Every edge of the graph can be traced to the one entry that declared it. -/
structure Attributed (controller : Controller) : Prop where
  /-- The entries together list the stamps from zero up to the next one, in order. -/
  stamps : controller.history.flatMap (fun entry => entry.edgeStamps) =
    EdgeStamp.between 0 controller.store.nextStamp
  /-- An entry lists as many stamps as its operation adds edges. -/
  counted : ∀ entry ∈ controller.history,
    entry.edgeStamps.length = entry.operation.addedEdges.length
  /-- Every edge of an element has a stamp beside it. -/
  parallel : ∀ id edgeType, (controller.store.edges id edgeType).length =
    (controller.store.edgeStamps id edgeType).length
  /-- Stamps go up along the edges of an element. -/
  increasing : ∀ id edgeType, (controller.store.edgeStamps id edgeType).Pairwise
    fun earlier later => earlier.number < later.number
  /-- The stamp of an edge stands in one entry, at the position at which the entry declares the edge. -/
  declared : ∀ id edgeType,
    ∀ link ∈ (controller.store.edges id edgeType).zip (controller.store.edgeStamps id edgeType),
      ∃ (before : List HistoryEntry) (entry : HistoryEntry) (after : List HistoryEntry) (index : Nat),
        controller.history = before ++ entry :: after ∧
          entry.edgeStamps[index]? = some link.2 ∧
          entry.operation.addedEdges[index]? = some (id, edgeType, link.1) ∧
          ∀ other ∈ before ++ after, link.2 ∉ other.edgeStamps
  /-- The edges of an element are some of those declared since it was introduced last, in order. -/
  since : ∀ id, controller.store.contains id = true →
    ∃ (before : List HistoryEntry) (entry : HistoryEntry) (after : List HistoryEntry),
      controller.history = before ++ entry :: after ∧
        entry.operation.introduced? = some id ∧
        (∀ later ∈ after, later.operation.introduced? ≠ some id) ∧
        ∀ edgeType, (controller.store.edges id edgeType).Sublist
          ((entry :: after).flatMap fun declaring =>
            destinationsAmong id edgeType declaring.operation.addedEdges)

theorem Grown.declared (grown : Grown config controller) {id : ElementId} {edgeType : EdgeType}
    {link : ElementId × EdgeStamp} (there : link ∈ controller.store.links id edgeType) :
    ∃ (before : List HistoryEntry) (entry : HistoryEntry) (after : List HistoryEntry) (index : Nat),
      controller.history = before ++ entry :: after ∧
        entry.edgeStamps[index]? = some link.2 ∧
        entry.operation.addedEdges[index]? = some (id, edgeType, link.1) ∧
        ∀ other ∈ before ++ after, link.2 ∉ other.edgeStamps := by
  obtain ⟨record, member, added⟩ := grown.record_of_link there
  obtain ⟨index, edge, stamp⟩ := EntryRecord.mem_addedLinks.1 added
  obtain ⟨earlier, later, split⟩ := List.append_of_mem member
  have alone := grown.stamp_alone split (List.mem_of_getElem? stamp)
  obtain ⟨before, entry, after, whole, rfl, rfl, rfl⟩ := records_split split
  refine ⟨before, entry, after, index, whole, stamp, edge, ?_⟩
  intro other inOthers
  have inRecords : other.toEntryRecord ∈
      before.map HistoryEntry.toEntryRecord ++ after.map HistoryEntry.toEntryRecord := by
    rw [← List.map_append]
    exact List.mem_map_of_mem inOthers
  exact alone other.toEntryRecord inRecords

theorem Grown.since (grown : Grown config controller) {id : ElementId}
    (there : controller.store.contains id = true) :
    ∃ (before : List HistoryEntry) (entry : HistoryEntry) (after : List HistoryEntry),
      controller.history = before ++ entry :: after ∧
        entry.operation.introduced? = some id ∧
        (∀ later ∈ after, later.operation.introduced? ≠ some id) ∧
        ∀ edgeType, (controller.store.edges id edgeType).Sublist
          ((entry :: after).flatMap fun declaring =>
            destinationsAmong id edgeType declaring.operation.addedEdges) := by
  obtain ⟨slot, member, rfl⟩ := Store.contains_iff.1 there
  obtain ⟨earlier, record, later, origin⟩ := grown.origin slot.place (List.mem_map_of_mem member)
  obtain ⟨before, entry, after, whole, rfl, rfl, rfl⟩ := records_split origin.split
  refine ⟨before, entry, after, whole, Operation.introduced?_of_place? origin.declared, ?_, ?_⟩
  · intro later inAfter
    exact origin.latest later.toEntryRecord (List.mem_map_of_mem inAfter)
  · intro edgeType
    -- The links without their stamps are the edges, on both sides.
    have links : (controller.store.links slot.id edgeType).Sublist
        ((entry.toEntryRecord :: after.map HistoryEntry.toEntryRecord).flatMap fun since =>
          since.addedLinks slot.id edgeType) := origin.links edgeType
    have edges := links.map Prod.fst
    rw [grown.sound.toLinked.map_fst_links, List.map_flatMap, ← List.map_cons,
      List.flatMap_map] at edges
    have declared : ∀ declaring ∈ entry :: after,
        (declaring.toEntryRecord.addedLinks slot.id edgeType).map Prod.fst =
          destinationsAmong slot.id edgeType declaring.operation.addedEdges := by
      intro declaring inHistory
      apply map_fst_linksAmong
      apply grown.counted declaring.toEntryRecord
      apply List.mem_map_of_mem
      rw [whole]
      exact List.mem_append_right before inHistory
    rwa [List.flatMap_congr declared] at edges

/-- **Whatever calls made a controller, its history names every edge of its graph: the stamps of the
entries follow each other without a gap, each edge has the stamp at whose position its entry declares
it, and the edges of an element are some of those declared since it entered, in order.** -/
theorem attributed_run (config : Config) (calls : List Call) :
    ((Controller.new config).run calls).Attributed := by
  have grown := grown_run config calls
  have linked := grown.sound.toLinked
  constructor
  · have in_row := grown.stamps_in_row
    rwa [records, List.flatMap_map] at in_row
  · exact fun entry member => grown.counted entry.toEntryRecord (List.mem_map_of_mem member)
  · intro id edgeType
    rw [← linked.map_fst_links, ← linked.map_snd_links, List.length_map, List.length_map]
  · exact linked.increasing
  · intro id edgeType link there
    rw [Store.zip_edges_edgeStamps] at there
    exact grown.declared there
  · exact fun id there => grown.since there

end Controller

end LanguageGraph
