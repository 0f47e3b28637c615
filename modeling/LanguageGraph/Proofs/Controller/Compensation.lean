/-
# Proofs.Controller.Compensation — undoing an entry undoes that entry and no other

The undoing of an entry is an operation like any other, made up from what the entry declares and from the
stamps it lists, and checked against the graph as it has become. Two things might go wrong: the identity
of an element that was introduced may belong to a later element, and an edge that was added may have a
later twin.

Neither does. An element can be undone only by its last introduction, and what is stored under an
identity is what its last introduction declares (`Grown.place_of_latest`). An edge goes by its stamp, and
a stamp belongs to one entry (`Grown.linked_iff_stamps`). So an undoing is accepted whenever there is
something left to undo and nothing depends on it, and takes out just that (`compensate_own`).
-/
import LanguageGraph.Proofs.Controller.Provenance
import LanguageGraph.Proofs.Controller.Undo
import LanguageGraph.Proofs.Store.Dependents

namespace LanguageGraph

set_option autoImplicit false

namespace Store

/-- An identity belongs to one element. -/
theorem Placed.eq_of_mem_elements {store : Store} (placed : store.Placed) {element : Element}
    {place : Element × Option ElementId} (stored : place ∈ store.places)
    (there : element ∈ store.elements) (same : element.id = place.1.id) : element = place.1 := by
  rw [elements_eq_map] at there
  obtain ⟨place', stored', rfl⟩ := List.mem_map.1 there
  have own := (get?_eq_some_iff placed).2 ⟨place, stored, rfl, rfl⟩
  have other := (get?_eq_some_iff placed).2 ⟨place', stored', rfl, same⟩
  exact Option.some.inj (other.symm.trans own)

/-- One store is another without the edges that carry some stamps; the others keep their order. -/
structure EdgesTaken (stamps : List EdgeStamp) (store taken : Store) : Prop where
  elements : taken.elements = store.elements
  containerOf? : ∀ id, taken.containerOf? id = store.containerOf? id
  root : taken.root = store.root
  edges : ∀ id edgeType, taken.edges id edgeType =
    (((store.edges id edgeType).zip (store.edgeStamps id edgeType)).filter fun link =>
      link.2 ∉ stamps).map Prod.fst
  edgeStamps : ∀ id edgeType, taken.edgeStamps id edgeType =
    (((store.edges id edgeType).zip (store.edgeStamps id edgeType)).filter fun link =>
      link.2 ∉ stamps).map Prod.snd

theorem Stripped.edgesTaken {stamps : List EdgeStamp} {store taken : Store}
    (stripped : Stripped stamps store taken) (linked : taken.Linked) :
    EdgesTaken stamps store taken where
  elements := by rw [elements_eq_map, stripped.places, ← elements_eq_map]
  containerOf? id := by rw [containerOf?_eq_find, stripped.places, ← containerOf?_eq_find]
  root := stripped.root
  edges id edgeType := by
    rw [zip_edges_edgeStamps, ← stripped.links, linked.map_fst_links]
  edgeStamps id edgeType := by
    rw [zip_edges_edgeStamps, ← stripped.links, linked.map_snd_links]

/-- Of an element that is taken out alone nothing stays, and no other element loses anything. -/
theorem Plucked.takes_only {id : ElementId} {store plucked : Store} (out : Plucked id store plucked)
    (linked : store.Linked) (linked' : plucked.Linked) :
    (∀ element ∈ store.elements, element ∉ plucked.elements → element.id = id) ∧
      ∀ other edgeType, ∀ stamp ∈ store.edgeStamps other edgeType,
        stamp ∉ plucked.edgeStamps other edgeType → other = id := by
  constructor
  · intro element there gone
    rw [out.elements, List.mem_filter, decide_eq_true_iff] at gone
    by_contra unlike
    exact gone ⟨there, unlike⟩
  · intro other edgeType stamp there gone
    by_contra unlike
    rw [← linked'.map_snd_links, out.links, if_neg unlike, linked.map_snd_links] at gone
    exact gone there

/-- Edges that are taken out by their stamps leave the elements and all other edges. -/
theorem Stripped.takes_only {stamps : List EdgeStamp} {store taken : Store}
    (stripped : Stripped stamps store taken) (linked : store.Linked) (linked' : taken.Linked) :
    taken.elements = store.elements ∧
      ∀ id edgeType, ∀ stamp ∈ store.edgeStamps id edgeType,
        stamp ∉ taken.edgeStamps id edgeType → stamp ∈ stamps := by
  refine ⟨(stripped.edgesTaken linked').elements, ?_⟩
  intro id edgeType stamp there gone
  by_contra other
  rw [← linked.map_snd_links] at there
  obtain ⟨link, inLinks, rfl⟩ := List.mem_map.1 there
  rw [← linked'.map_snd_links] at gone
  exact gone (List.mem_map_of_mem (stripped.mem_links.2 ⟨inLinks, other⟩))

end Store

theorem HistoryEntry.inverse?_newEdge {entry : HistoryEntry} {source : ElementId} {edges : EdgeMap}
    (addition : entry.operation = .newEdge source edges) :
    entry.inverse? = some (.removeEdge source edges entry.edgeStamps) := by
  rw [inverse?, addition]
  rfl

namespace Controller

variable {controller : Controller} {config : Config} {now : Occasion} {sequence : Nat}
  {author : String} {entry : HistoryEntry}

/-- No entry undoes the entry with a number. -/
def Stands (controller : Controller) (sequence : Nat) : Prop :=
  ∀ other ∈ controller.history, other.compensates ≠ some sequence

/-! ## When an undoing is accepted -/

theorem compensationFor_of_entryAt? (found : controller.entryAt? sequence = some entry)
    {inverse : Operation} :
    controller.compensationFor sequence = .ok inverse ↔
      controller.Stands sequence ∧
        (∀ id, entry.operation.introduced? = some id →
          ∀ later ∈ controller.history.drop sequence, later.operation.introduced? ≠ some id) ∧
        entry.inverse? = some inverse := by
  obtain ⟨before, after, split, rfl⟩ := entryAt?_eq_some_iff.1 found
  have behind : controller.history.drop (before.length + 1) = after := by
    rw [split, List.drop_length_add_append]
    rfl
  rw [behind]
  exact compensationFor_of_split split

/-- An entry with an inverse is undone when nothing undoes it, no later entry introduces its element
again, and the inverse passes the checks. -/
theorem compensate_entry_iff (sound : controller.store.Sound)
    (found : controller.entryAt? sequence = some entry) {inverse : Operation}
    (inverted : entry.inverse? = some inverse) :
    (∃ applied, (controller.compensate now sequence author).result = .ok applied) ↔
      controller.Stands sequence ∧
        (∀ id, entry.operation.introduced? = some id →
          ∀ later ∈ controller.history.drop sequence, later.operation.introduced? ≠ some id) ∧
        controller.check now.order inverse = .ok () := by
  rw [compensate_accepted_iff sound now.order]
  constructor
  · rintro ⟨other, allowed, checked⟩
    obtain ⟨stands, latest, is⟩ := (compensationFor_of_entryAt? found).1 allowed
    rw [inverted] at is
    cases is
    exact ⟨stands, latest, checked⟩
  · rintro ⟨stands, latest, checked⟩
    exact ⟨inverse, (compensationFor_of_entryAt? found).2 ⟨stands, latest, inverted⟩, checked⟩

/-- What is appended then is the inverse. -/
theorem compensate_entry (sound : controller.store.Sound)
    (found : controller.entryAt? sequence = some entry) {inverse : Operation}
    (inverted : entry.inverse? = some inverse)
    (accepted : ∃ applied, (controller.compensate now sequence author).result = .ok applied) :
    controller.check now.order inverse = .ok () ∧
      (controller.compensate now sequence author).controller =
        controller.grow now inverse author (some sequence) := by
  obtain ⟨stands, latest, checked⟩ := (compensate_entry_iff sound found inverted).1 accepted
  have allowed := (compensationFor_of_entryAt? found).2 ⟨stands, latest, inverted⟩
  exact ⟨checked, compensate_of_checked sound allowed checked⟩

/-! ## Elements -/

section Elements

variable {place : Element × Option ElementId}

/-- The introduction of an element can be undone exactly when nothing undoes it, no later entry
introduces the element again, and the element is there without anything that depends on it. -/
theorem Grown.compensate_element_iff (grown : Grown config controller)
    (found : controller.entryAt? sequence = some entry)
    (declared : entry.operation.place? = some place) :
    (∃ applied, (controller.compensate now sequence author).result = .ok applied) ↔
      controller.Stands sequence ∧
        (∀ later ∈ controller.history.drop sequence,
          later.operation.introduced? ≠ some place.1.id) ∧
        controller.store.contains place.1.id = true ∧
        controller.store.NoDependents place.1.id := by
  have introduced := Operation.introduced?_of_place? declared
  have inverted : entry.inverse? = some (.removeElement place.1.id false) :=
    Operation.inverse?_of_place? declared entry.edgeStamps
  have checks : controller.check now.order (.removeElement place.1.id false) = .ok () ↔
      controller.store.contains place.1.id = true ∧
        controller.store.NoDependents place.1.id := by
    have unorphaned : controller.config.rejectOrphans = true →
        (Operation.removeElement place.1.id false).orphan? = none := fun _ => rfl
    rw [check_eq_ok_iff, and_iff_left unorphaned]
    exact grown.sound.checkRemove_alone_iff
  rw [compensate_entry_iff grown.sound found inverted, checks]
  apply and_congr_right
  intro _
  apply and_congr_left
  intro _
  constructor
  · exact fun latest => latest place.1.id introduced
  · intro latest id is
    rw [introduced] at is
    cases is
    exact latest

/-- Undoing the introduction of an element takes out the element that it declared, alone. -/
theorem Grown.plucked_of_compensate (grown : Grown config controller)
    (found : controller.entryAt? sequence = some entry)
    (declared : entry.operation.place? = some place)
    (accepted : ∃ applied, (controller.compensate now sequence author).result = .ok applied) :
    place ∈ controller.store.places ∧
      Store.Plucked place.1.id controller.store
        (controller.compensate now sequence author).controller.store := by
  obtain ⟨-, latest, there, -⟩ := (grown.compensate_element_iff found declared).1 accepted
  obtain ⟨checked, next⟩ := compensate_entry grown.sound found
    (Operation.inverse?_of_place? declared entry.edgeStamps) accepted
  constructor
  · obtain ⟨before, after, split, rfl⟩ := entryAt?_eq_some_iff.1 found
    have whole : controller.records = before.map HistoryEntry.toEntryRecord ++
        entry.toEntryRecord :: after.map HistoryEntry.toEntryRecord := by
      rw [records, split, List.map_append, List.map_cons]
    rw [split, List.drop_length_add_append] at latest
    exact grown.place_of_latest whole declared (List.forall_mem_map.2 latest) there
  · have checks := (check_eq_ok_iff.1 checked).1
    rw [next]
    show Store.Plucked place.1.id controller.store
      ((Operation.removeElement place.1.id false).commit controller.store).2
    rw [Operation.commit_removeElement checks]
    exact grown.sound.plucked_of_checkRemove checks

end Elements

/-! ## Edges -/

section Edges

variable {source : ElementId} {edges : EdgeMap}

/-- An edge that an entry added is where the entry put it when its stamp is in the graph at all. -/
theorem Grown.linked_iff_stamps (grown : Grown config controller) {record : EntryRecord}
    (member : record ∈ controller.records) (addition : record.operation = .newEdge source edges) :
    (∀ edge ∈ edges.pairs.zip record.edgeStamps,
        (edge.1.2, edge.2) ∈ controller.store.links source edge.1.1) ↔
      ∀ stamp ∈ record.edgeStamps,
        ∃ id edgeType, stamp ∈ controller.store.edgeStamps id edgeType := by
  have linked := grown.sound.toLinked
  constructor
  · intro all_there stamp listed
    rw [← grown.map_snd_zip member addition] at listed
    obtain ⟨edge, inZip, rfl⟩ := List.mem_map.1 listed
    refine ⟨source, edge.1.1, ?_⟩
    rw [← linked.map_snd_links]
    exact List.mem_map_of_mem (all_there edge inZip)
  · rintro all_there ⟨edge, stamp⟩ inZip
    have listed : stamp ∈ record.edgeStamps := (List.of_mem_zip inZip).2
    obtain ⟨id, edgeType, inStamps⟩ := all_there stamp listed
    rw [← linked.map_snd_links] at inStamps
    obtain ⟨link, there, rfl⟩ := List.mem_map.1 inStamps
    -- The entry that added the link lists its stamp, so it is this entry, at the same position.
    obtain ⟨other, member', added⟩ := grown.record_of_link there
    obtain ⟨index, declared, given⟩ := EntryRecord.mem_addedLinks.1 added
    have same : other = record := grown.eq_of_sequence member' member
      (grown.stamps_apart other member' record member link.2 (List.mem_of_getElem? given) listed)
    subst same
    obtain ⟨index', here⟩ := List.mem_iff_getElem?.1 inZip
    obtain ⟨pair, given'⟩ := List.getElem?_zip_eq_some.1 here
    have bound : index < other.edgeStamps.length := (List.getElem?_eq_some_iff.1 given).1
    have same_index : index = index' :=
      (List.getElem?_inj bound (grown.stamps_nodup member)).1 (given.trans given'.symm)
    have edge_here : other.operation.addedEdges[index]? = some (source, edge) := by
      rw [addition, same_index]
      show (edges.pairs.map fun edge => (source, edge))[index']? = some (source, edge)
      rw [List.getElem?_map, pair]
      rfl
    rw [edge_here] at declared
    cases declared
    exact there

/-- An addition of edges can be undone exactly when nothing undoes it, the source is there, and so are
all edges that it added. -/
theorem Grown.compensate_edges_iff (grown : Grown config controller)
    (found : controller.entryAt? sequence = some entry)
    (addition : entry.operation = .newEdge source edges) :
    (∃ applied, (controller.compensate now sequence author).result = .ok applied) ↔
      controller.Stands sequence ∧ controller.store.contains source = true ∧
        ∀ stamp ∈ entry.edgeStamps,
          ∃ id edgeType, stamp ∈ controller.store.edgeStamps id edgeType := by
  obtain ⟨member, -⟩ := grown.record_of_entryAt? found
  have inverted := HistoryEntry.inverse?_newEdge addition
  have checks : controller.check now.order (.removeEdge source edges entry.edgeStamps) = .ok () ↔
      controller.store.contains source = true ∧ ∀ stamp ∈ entry.edgeStamps,
        ∃ id edgeType, stamp ∈ controller.store.edgeStamps id edgeType :=
    (grown.check_removeEdge member addition).trans
      (and_congr_right fun _ => grown.linked_iff_stamps member addition)
  have introduces_nothing : ∀ id, entry.operation.introduced? ≠ some id := by
    intro id introduced
    rw [addition] at introduced
    cases introduced
  rw [compensate_entry_iff grown.sound found inverted, checks]
  constructor
  · exact fun ⟨stands, _, there⟩ => ⟨stands, there⟩
  · exact fun ⟨stands, there⟩ =>
      ⟨stands, fun id introduced => absurd introduced (introduces_nothing id), there⟩

/-- Undoing an addition of edges takes out the edges that it added. -/
theorem Grown.stripped_of_compensate (grown : Grown config controller)
    (found : controller.entryAt? sequence = some entry)
    (addition : entry.operation = .newEdge source edges)
    (accepted : ∃ applied, (controller.compensate now sequence author).result = .ok applied) :
    Store.Stripped entry.edgeStamps controller.store
      (controller.compensate now sequence author).controller.store := by
  obtain ⟨member, -⟩ := grown.record_of_entryAt? found
  obtain ⟨checked, next⟩ :=
    compensate_entry grown.sound found (HistoryEntry.inverse?_newEdge addition) accepted
  rw [next]
  exact grown.stripped_removeEdge member addition checked

end Edges

/-! ## Every entry -/

theorem compensate_removal_refused (found : controller.entryAt? sequence = some entry)
    (removal : entry.operation.isAddition = false) :
    ∃ refusal, (controller.compensate now sequence author).result = .error refusal := by
  cases allowed : controller.compensationFor sequence with
  | error refusal =>
      refine ⟨refusal, ?_⟩
      rw [compensate, allowed]
  | ok inverse =>
      obtain ⟨-, -, inverted⟩ := (compensationFor_of_entryAt? found).1 allowed
      have no_inverse : entry.inverse? = none := Operation.inverse?_eq_none_iff.2 removal
      rw [no_inverse] at inverted
      cases inverted

/-- Undoing an entry takes out nothing of any other entry, edges that leave its element apart. -/
theorem Grown.nothing_else_compensated (grown : Grown config controller)
    (found : controller.entryAt? sequence = some entry)
    (accepted : ∃ applied, (controller.compensate now sequence author).result = .ok applied) :
    (∀ element ∈ controller.store.elements,
        element ∉ (controller.compensate now sequence author).controller.store.elements →
          ∃ container, entry.operation.place? = some (element, container)) ∧
      ∀ id edgeType, ∀ stamp ∈ controller.store.edgeStamps id edgeType,
        stamp ∉ (controller.compensate now sequence author).controller.store.edgeStamps id edgeType →
          stamp ∈ entry.edgeStamps ∨ entry.operation.introduced? = some id := by
  have grown' : Grown config (controller.compensate now sequence author).controller :=
    grown.call (.compensate now sequence author)
  cases addition : entry.operation.isAddition with
  | false =>
      obtain ⟨refusal, refused⟩ := compensate_removal_refused found addition
      obtain ⟨applied, answer⟩ := accepted
      exact nomatch refused.symm.trans answer
  | true =>
      rcases entry.operation.place?_or_newEdge addition with
        ⟨place, declared⟩ | ⟨source, edges, is⟩
      · obtain ⟨stored, plucked⟩ := grown.plucked_of_compensate found declared accepted
        obtain ⟨own_element, own_edges⟩ :=
          plucked.takes_only grown.sound.toLinked grown'.sound.toLinked
        constructor
        · intro element there gone
          rw [grown.sound.toPlaced.eq_of_mem_elements stored there (own_element element there gone)]
          exact ⟨place.2, declared⟩
        · intro id edgeType stamp there gone
          rw [own_edges id edgeType stamp there gone]
          exact .inr (Operation.introduced?_of_place? declared)
      · obtain ⟨same_elements, own_edges⟩ := (grown.stripped_of_compensate found is accepted).takes_only
          grown.sound.toLinked grown'.sound.toLinked
        rw [same_elements]
        exact ⟨fun element there gone => absurd there gone,
          fun id edgeType stamp there gone => .inl (own_edges id edgeType stamp there gone)⟩

/-- **An undoing undoes its own entry, whenever that is possible. It is accepted when nothing undoes the
entry yet and what the entry brought in is still there, for an element also when no later entry brings
it in and nothing depends on it; it takes out that element with the edges that leave it, or just those
edges, and nothing that another entry brought in.** -/
theorem compensate_own (config : Config) (calls : List Call) (now : Occasion) (sequence : Nat)
    (author : String) {entry : HistoryEntry}
    (found : ((Controller.new config).run calls).entryAt? sequence = some entry) :
    let controller := (Controller.new config).run calls
    let outcome := controller.compensate now sequence author
    let accepted := ∃ applied, outcome.result = .ok applied
    let left := outcome.controller.store
    (∀ element container, entry.operation.place? = some (element, container) →
        (accepted ↔
          controller.Stands sequence ∧
            (∀ later ∈ controller.history.drop sequence,
              later.operation.introduced? ≠ some element.id) ∧
            controller.store.contains element.id = true ∧
            controller.store.NoDependents element.id) ∧
        (accepted →
          controller.store.get? element.id = some element ∧
            controller.store.containerOf? element.id = container ∧
            Store.Plucked element.id controller.store left)) ∧
      (∀ source edges, entry.operation = .newEdge source edges →
        (accepted ↔
          controller.Stands sequence ∧ controller.store.contains source = true ∧
            ∀ stamp ∈ entry.edgeStamps,
              ∃ id edgeType, stamp ∈ controller.store.edgeStamps id edgeType) ∧
        (accepted → Store.EdgesTaken entry.edgeStamps controller.store left)) ∧
      (entry.operation.isAddition = false → ∃ refusal, outcome.result = .error refusal) ∧
      (accepted →
        (∀ element ∈ controller.store.elements, element ∉ left.elements →
          ∃ container, entry.operation.place? = some (element, container)) ∧
        ∀ id edgeType, ∀ stamp ∈ controller.store.edgeStamps id edgeType,
          stamp ∉ left.edgeStamps id edgeType →
            stamp ∈ entry.edgeStamps ∨ entry.operation.introduced? = some id) := by
  intro controller outcome accepted left
  have grown : Grown config controller := grown_run config calls
  have grown' : Grown config outcome.controller := grown.call (.compensate now sequence author)
  refine ⟨?_, ?_, compensate_removal_refused found, grown.nothing_else_compensated found⟩
  · intro element container declared
    refine ⟨grown.compensate_element_iff found declared, fun taken => ?_⟩
    obtain ⟨stored, plucked⟩ := grown.plucked_of_compensate found declared taken
    have placed := grown.sound.toPlaced
    have got : controller.store.get? element.id = some element :=
      (Store.get?_eq_some_iff placed).2 ⟨(element, container), stored, rfl, rfl⟩
    exact ⟨got, placed.containerOf?_of_mem stored, plucked⟩
  · intro source edges addition
    refine ⟨grown.compensate_edges_iff found addition, fun taken => ?_⟩
    exact (grown.stripped_of_compensate found addition taken).edgesTaken grown'.sound.toLinked

/-- A root, a method with two equal edges to it, one more such edge, and the removal of one of them. -/
def twinEdges : List Call :=
  [.apply .epoch (.root ⟨.ofNat 1, "demo", "demo", ""⟩),
   .apply .epoch (.newElement (.method ⟨.ofNat 2, "run"⟩) none
     (.ofDestinations .typeOf [.ofNat 1, .ofNat 1])),
   .apply .epoch (.newEdge (.ofNat 2) (.ofDestinations .typeOf [.ofNat 1])),
   .submit .epoch (.removeEdge (.ofNat 2) (.ofDestinations .typeOf [.ofNat 1]) [⟨0⟩]) "someone"]

/-- The edge of the third entry is there and can be undone, and its twin of the second entry stays; the
second entry can be undone too, and takes all edges of its element along; the removal cannot. -/
theorem compensate_own_twin :
    (∃ applied, (((Controller.new .default).run twinEdges).compensate .epoch 3 "someone").result =
        .ok applied) ∧
      Store.EdgesTaken [⟨2⟩] ((Controller.new .default).run twinEdges).store
        (((Controller.new .default).run twinEdges).compensate .epoch 3 "someone").controller.store ∧
      ((Controller.new .default).run twinEdges).store.containerOf? (.ofNat 2) = none ∧
      ∃ refusal, (((Controller.new .default).run twinEdges).compensate .epoch 4 "someone").result =
        .error refusal := by
  have third := (compensate_own .default twinEdges .epoch 3 "someone" rfl).2.1 _ _ rfl
  have second := (compensate_own .default twinEdges .epoch 2 "someone" rfl).1 _ _ rfl
  have fourth := (compensate_own .default twinEdges .epoch 4 "someone" rfl).2.2.1 rfl
  have undone : ∃ applied,
      (((Controller.new .default).run twinEdges).compensate .epoch 3 "someone").result =
        .ok applied := ⟨_, rfl⟩
  have plucked : ∃ applied,
      (((Controller.new .default).run twinEdges).compensate .epoch 2 "someone").result =
        .ok applied := ⟨_, rfl⟩
  exact ⟨undone, third.2 undone, (second.2 plucked).2.1, fourth⟩

end Controller

end LanguageGraph
