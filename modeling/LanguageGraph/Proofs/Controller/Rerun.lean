/-
# Proofs.Controller.Rerun — undoing additions of edges equals never having made them

Leave some additions of edges out of a history and run the rest again (`rerun`). Numbers and stamps
close up behind what is left out, so the two runs differ in both; all else they have in common
(`Rest`): the thin store is the full one without the edges that were never added, and the records are
the others, renumbered.

This holds after every entry (`Grown.rerun`), on one condition: the edges that are left out must be
there to the end (`Omissible.keeps`). Then no removal took any of them, and each removal takes the same
edge in both runs. Additions that can be undone meet the condition, and undoing them at the end leaves
what the rerun leads to (`rerun_without`).
-/
import LanguageGraph.Proofs.Controller.Undo
import LanguageGraph.Proofs.Operation.Thinning

namespace LanguageGraph

set_option autoImplicit false

namespace Controller

/-- The number of an entry when the entries with some numbers are left out: how many numbers, from one
up to its own, are not left out. -/
def renumbered (left : List Nat) (sequence : Nat) : Nat :=
  Nat.count (fun earlier => earlier + 1 ∉ left) sequence

/-- Make the call again that an entry stems from: an undoing is aimed at the number that its target now
has. -/
def redo (controller : Controller) (left : List Nat) (now : Occasion) (entry : HistoryEntry) :
    Outcome :=
  match entry.compensates with
  | none => controller.submit now entry.operation entry.author
  | some target => controller.compensate now (renumbered left target) entry.author

/-- Make the calls again that entries stem from, some of the entries left out, up to the first refusal.
The clock tells on which occasion the entry with a number is recorded. -/
def rerun (clock : Nat → Occasion) (left : List Nat) (controller : Controller) :
    List HistoryEntry → Except Refusal Controller
  | [] => .ok controller
  | entry :: entries =>
      if entry.sequence ∈ left then rerun clock left controller entries
      else
        let outcome := controller.redo left (clock (controller.history.length + 1)) entry
        match outcome.result with
        | .error refusal => .error refusal
        | .ok _ => rerun clock left outcome.controller entries

variable {config : Config} {clock : Nat → Occasion} {left : List Nat}

theorem rerun_append (controller : Controller) (first second : List HistoryEntry) :
    rerun clock left controller (first ++ second) =
      (rerun clock left controller first).bind fun reached =>
        rerun clock left reached second := by
  induction first generalizing controller with
  | nil => rfl
  | cons entry first ih =>
      rw [List.cons_append, rerun, rerun]
      split
      · exact ih controller
      · dsimp only
        cases (controller.redo left (clock (controller.history.length + 1)) entry).result with
        | error refusal => rfl
        | ok applied => exact ih _

theorem rerun_singleton_of_left {controller : Controller} {entry : HistoryEntry}
    (left_out : entry.sequence ∈ left) : rerun clock left controller [entry] = .ok controller := by
  rw [rerun, if_pos left_out, rerun]

theorem rerun_singleton_of_redo {controller : Controller} {entry : HistoryEntry}
    (stays : entry.sequence ∉ left) {applied : Applied} {next : Controller} {events : List Event}
    (redone : controller.redo left (clock (controller.history.length + 1)) entry =
      ⟨.ok applied, next, events⟩) : rerun clock left controller [entry] = .ok next := by
  rw [rerun, if_neg stays, redone]
  rfl

/-! ## Numbers -/

theorem renumbered_succ {number : Nat} (kept : number + 1 ∉ left) :
    renumbered left (number + 1) = renumbered left number + 1 :=
  Nat.count_succ_eq_succ_count kept

/-- Entries that are not left out keep different numbers. -/
theorem renumbered_inj {first second : Nat} (kept : first + 1 ∉ left) (kept' : second + 1 ∉ left)
    (same : renumbered left (first + 1) = renumbered left (second + 1)) : first = second := by
  rw [renumbered_succ kept, renumbered_succ kept'] at same
  exact Nat.count_injective (p := fun earlier => earlier + 1 ∉ left) kept kept'
    (Nat.succ.inj same)

/-- Of records numbered from one, so many are not left out. -/
theorem length_kept {records : List EntryRecord}
    (numbers : records.map EntryRecord.sequence = List.range' 1 records.length) :
    (records.filter fun record => record.sequence ∉ left).length =
      renumbered left records.length := by
  have counted : ∀ length, (List.range' 1 length).countP (fun number => number ∉ left) =
      renumbered left length := by
    intro length
    induction length with
    | zero => rfl
    | succ length ih =>
        rw [List.range'_concat, List.countP_append, ih, renumbered, renumbered, Nat.count_succ,
          Nat.one_mul, Nat.add_comm 1]
        simp [List.countP_cons]
  rw [← counted, ← numbers, List.countP_map, List.countP_eq_length_filter]
  rfl

end Controller

/-- The record in place of this one, where some entries are left out and their stamps dropped. -/
def EntryRecord.among (left : List Nat) (dropped : List EdgeStamp) (record : EntryRecord) :
    EntryRecord :=
  { sequence := Controller.renumbered left record.sequence
    operation := record.operation.among dropped
    author := record.author
    warnings := record.warnings
    compensates := record.compensates.map (Controller.renumbered left)
    edgeStamps := record.edgeStamps.map (EdgeStamp.among dropped) }

namespace Controller

/-! ## The full run and the thin one -/

/-- Entries that may be left out, with the stamps they gave out: additions of edges that nothing undoes
and whose edges are all still there. Other entries must not name their stamps. -/
structure Omissible (left : List Nat) (dropped : List EdgeStamp) (controller : Controller) : Prop where
  additions : ∀ record ∈ controller.records, record.sequence ∈ left →
    ∃ source edges, record.operation = .newEdge source edges
  drops : ∀ record ∈ controller.records, record.sequence ∈ left →
    ∀ stamp ∈ record.edgeStamps, stamp ∈ dropped
  kept : ∀ record ∈ controller.records, record.sequence ∉ left →
    ∀ stamp ∈ record.edgeStamps, stamp ∉ dropped
  free : ∀ record ∈ controller.records, ∀ target, record.compensates = some target →
    target ∉ left
  plain : ∀ record ∈ controller.records, record.compensates = none →
    record.operation.stamps = []
  keeps : controller.store.Keeps dropped

/-- One controller is another with some entries left out. -/
structure Rest (left : List Nat) (dropped : List EdgeStamp) (full thin : Controller) : Prop where
  store : Store.Thinned dropped full.store thin.store
  records : thin.records =
    (full.records.filter fun record => record.sequence ∉ left).map
      (EntryRecord.among left dropped)

variable {config : Config} {clock : Nat → Occasion} {order : EdgeOrder} {left : List Nat}
  {dropped : List EdgeStamp} {full thin : Controller}

/-- What may be left out at the end may be left out before. -/
theorem Omissible.of_grow {operation : Operation} {now : Occasion} {author : String}
    {compensates : Option Nat} (grown : Grown config full)
    (omissible : Omissible left dropped (full.grow now operation author compensates)) :
    Omissible left dropped full := by
  have old : ∀ record ∈ full.records,
      record ∈ (full.grow now operation author compensates).records :=
    fun record member => mem_records_grow.2 (.inl member)
  exact {
    additions := fun record member => omissible.additions record (old record member)
    drops := fun record member => omissible.drops record (old record member)
    kept := fun record member => omissible.kept record (old record member)
    free := fun record member => omissible.free record (old record member)
    plain := fun record member => omissible.plain record (old record member)
    keeps := (grown.sound.later_perform operation.steps).keeps omissible.keeps }

/-- The numbers in the thin run count what is not left out of the full one. -/
theorem Rest.length_history (rest : Rest left dropped full thin) (grown : Grown config full) :
    thin.history.length = renumbered left full.history.length := by
  rw [← length_records, rest.records, List.length_map, length_kept grown.sequences, length_records]

/-- What undoes an entry of the full run has its like in the thin one, at the entry's new number. -/
theorem Rest.compensationFor (rest : Rest left dropped full thin) (grown : Grown config full)
    (omissible : Omissible left dropped full) {target : Nat} (kept : target ∉ left)
    {inverse : Operation} (allowed : full.compensationFor target = .ok inverse) :
    thin.compensationFor (renumbered left target) = .ok (inverse.among dropped) := by
  obtain ⟨before, record, after, split, rfl, free, unrepeated, inverted⟩ :=
    compensationFor_eq_ok_iff.1 allowed
  obtain ⟨early, number⟩ := grown.numbered split
  have stays : decide (record.sequence ∉ left) = true := by
    rw [number]
    exact decide_eq_true kept
  refine compensationFor_eq_ok_iff.2
    ⟨(before.filter fun other => other.sequence ∉ left).map (EntryRecord.among left dropped),
      record.among left dropped,
      (after.filter fun other => other.sequence ∉ left).map (EntryRecord.among left dropped),
      ?_, ?_, ?_, ?_, ?_⟩
  · rw [rest.records, split, List.filter_append, List.filter_cons, if_pos stays, List.map_append,
      List.map_cons]
  · rw [List.length_map, length_kept early, renumbered_succ kept]
  · intro other member undoes
    rw [rest.records] at member
    obtain ⟨older, inKept, rfl⟩ := List.mem_map.1 member
    have inFull := (List.mem_filter.1 inKept).1
    obtain ⟨entry, inHistory, rfl⟩ := List.mem_map.1 inFull
    obtain ⟨target', undoes', same⟩ := Option.map_eq_some_iff.1 undoes
    obtain ⟨index, rfl⟩ := Nat.exists_eq_succ_of_ne_zero
      (Nat.ne_of_gt (grown.target_lt entry inHistory target' undoes').1)
    have kept' := omissible.free entry.toEntryRecord inFull _ undoes'
    rw [renumbered_inj kept' kept same] at undoes'
    exact free entry.toEntryRecord inFull undoes'
  · intro id introduced later member
    obtain ⟨older, inKept, rfl⟩ := List.mem_map.1 member
    rw [EntryRecord.among, Operation.introduced?_among] at introduced ⊢
    exact unrepeated id introduced older (List.mem_filter.1 inKept).1
  · rw [EntryRecord.among, Operation.inverse?_among, inverted, Option.map_some]

/-! ## One entry -/

/-- What an operation may do at the end of a run of which some entries are left out, when it is not left
out itself: it gives out no dropped stamp and names none. -/
structure Harmless (dropped : List EdgeStamp) (full : Controller) (operation : Operation) : Prop where
  keeps : (operation.commit full.store).2.Keeps dropped
  fresh : ∀ stamp ∈ dropped, full.store.nextStamp ≤ stamp.number →
    (operation.commit full.store).2.nextStamp ≤ stamp.number
  unnamed : ∀ stamp ∈ operation.stamps, stamp ∉ dropped

/-- The last entry of a run, when it is not left out, is harmless. -/
theorem Omissible.harmless {operation : Operation} {now : Occasion} {author : String}
    {compensates : Option Nat} (grown : Grown config full)
    (undoing : ∀ target, compensates = some target →
      full.compensationFor target = .ok operation)
    (omissible : Omissible left dropped (full.grow now operation author compensates))
    (kept : full.history.length + 1 ∉ left) : Harmless dropped full operation := by
  have last : (full.entryFor now operation author compensates).toEntryRecord ∈
      (full.grow now operation author compensates).records := mem_records_grow.2 (.inr rfl)
  refine ⟨omissible.keeps, ?_, ?_⟩
  · intro stamp drop later
    by_contra early
    have given_out : stamp ∈ (full.entryFor now operation author compensates).edgeStamps :=
      EdgeStamp.mem_between.2 ⟨later, Nat.lt_of_not_le early⟩
    exact omissible.kept _ last kept stamp given_out drop
  -- A call names no stamps by assumption; an undoing names those of an entry that is kept as well.
  · cases compensates with
    | none =>
        have unstamped : operation.stamps = [] := omissible.plain _ last rfl
        rw [unstamped]
        exact fun stamp named => absurd named List.not_mem_nil
    | some target =>
        obtain ⟨before, record, after, split, rfl, -, -, inverted⟩ :=
          compensationFor_eq_ok_iff.1 (undoing target rfl)
        have target_kept : record.sequence ∉ left := by
          rw [(grown.numbered split).2]
          exact omissible.free _ last _ rfl
        have inFull : record ∈ full.records := by
          rw [split]
          exact List.mem_append_cons_self
        intro stamp named
        exact (omissible.of_grow grown).kept record inFull target_kept stamp
          (Operation.stamps_of_inverse? inverted named)

/-- The thin run accepts a harmless operation that the full run accepted. -/
theorem Rest.check (rest : Rest left dropped full thin) (grown : Grown config full)
    (grown' : Grown config thin) {operation : Operation}
    (checked : full.check order operation = .ok ()) (harmless : Harmless dropped full operation) :
    thin.check order (operation.among dropped) = .ok () := by
  obtain ⟨valid, unorphaned⟩ := check_eq_ok_iff.1 checked
  refine check_eq_ok_iff.2 ⟨?_, ?_⟩
  · exact (rest.store.commit grown.sound grown'.sound valid harmless.keeps harmless.fresh
      harmless.unnamed).1
  · rw [Operation.orphan?_among, grown'.config_eq, ← grown.config_eq]
    exact unorphaned

/-- A harmless operation leaves like entries in both runs. -/
theorem Rest.grow (rest : Rest left dropped full thin) (grown : Grown config full)
    (grown' : Grown config thin) {operation : Operation}
    (checked : full.check order operation = .ok ()) (harmless : Harmless dropped full operation)
    (kept : full.history.length + 1 ∉ left) (now now' : Occasion) (author : String)
    (compensates : Option Nat)
    (unstamped : ∀ stamp ∈ (full.entryFor now operation author compensates).edgeStamps,
      stamp ∉ dropped) :
    Rest left dropped (full.grow now operation author compensates)
      (thin.grow now' (operation.among dropped) author
        (compensates.map (renumbered left))) := by
  have related := (rest.store.commit grown.sound grown'.sound (check_eq_ok_iff.1 checked).1
    harmless.keeps harmless.fresh harmless.unnamed).2
  refine ⟨related, ?_⟩
  have stays : decide ((full.entryFor now operation author compensates).toEntryRecord.sequence ∉
      left) = true := decide_eq_true kept
  have warnings : warningsOf (operation.among dropped) = warningsOf operation := by
    rw [warningsOf, warningsOf, Operation.orphan?_among]
  have later : full.store.Later (operation.commit full.store).2 :=
    grown.sound.later_perform operation.steps
  have stamps : EdgeStamp.between thin.store.nextStamp
        ((operation.among dropped).commit thin.store).2.nextStamp =
      (EdgeStamp.between full.store.nextStamp
        (operation.commit full.store).2.nextStamp).map (EdgeStamp.among dropped) := by
    rw [EdgeStamp.map_among_between later.nextStamp unstamped, rest.store.nextStamp,
      related.nextStamp]
  rw [records_grow, records_grow, List.filter_append, List.filter_cons, if_pos stays,
    List.map_append, rest.records]
  congr 1
  simp only [entryFor, EntryRecord.among, rest.length_history grown, renumbered_succ kept, warnings,
    stamps, List.filter_nil, List.map_cons, List.map_nil]

/-- An addition of edges that is left out leaves the thin run as it is. -/
theorem Rest.leave_out (rest : Rest left dropped full thin) (grown : Grown config full)
    {source : ElementId} {edges : EdgeMap} (checked : full.check order (.newEdge source edges) = .ok ())
    (left_out : full.history.length + 1 ∈ left) (now : Occasion) (author : String)
    (compensates : Option Nat)
    (drops : ∀ stamp ∈ (full.entryFor now (.newEdge source edges) author compensates).edgeStamps,
      stamp ∈ dropped) :
    Rest left dropped (full.grow now (.newEdge source edges) author compensates) thin := by
  obtain ⟨final, done⟩ := Operation.commit_of_validate grown.sound (check_eq_ok_iff.1 checked).1
  constructor
  · rw [entryFor, done] at drops
    rw [Controller.grow, done]
    exact rest.store.perform_dropped grown.sound done drops
  · have goes : ¬ decide ((full.entryFor now (.newEdge source edges) author
        compensates).toEntryRecord.sequence ∉ left) = true :=
      fun stays => of_decide_eq_true stays left_out
    rw [records_grow, List.filter_append, List.filter_cons, if_neg goes, List.filter_nil,
      List.append_nil, rest.records]

/-- Redoing an entry records its operation, aimed at the numbers and stamps of the thin run. -/
theorem Rest.redo (rest : Rest left dropped full thin) (grown : Grown config full)
    (omissible : Omissible left dropped full) {entry : HistoryEntry}
    (undoing : ∀ target, entry.compensates = some target → target ∉ left ∧
      full.compensationFor target = .ok entry.operation)
    (plain : entry.compensates = none → entry.operation.stamps = []) (now : Occasion) :
    (∀ target, entry.compensates.map (renumbered left) = some target →
        thin.compensationFor target = .ok (entry.operation.among dropped)) ∧
      thin.redo left now entry =
        thin.record now (entry.operation.among dropped) entry.author
          (entry.compensates.map (renumbered left)) := by
  unfold Controller.redo
  cases undoes : entry.compensates with
  | none =>
      rw [Operation.among_of_unstamped (plain undoes)]
      refine ⟨?_, rfl⟩
      intro target is
      cases is
  | some target =>
      obtain ⟨kept, allowed⟩ := undoing target undoes
      have allowed' := rest.compensationFor grown omissible kept allowed
      refine ⟨?_, compensate_of_allowed allowed' now entry.author⟩
      intro target' is
      cases is
      exact allowed'

/-! ## The whole run -/

/-- **Of a history the entries that may be left out can be left out: every other call is accepted
again.** -/
theorem Grown.rerun (grown : Grown config full) (clock : Nat → Occasion)
    (omissible : Omissible left dropped full) :
    ∃ thin, Controller.rerun clock left (Controller.new config) full.history = .ok thin ∧
      Grown config thin ∧ Rest left dropped full thin := by
  induction grown with
  | new => exact ⟨Controller.new config, rfl, .new, ⟨.empty dropped, rfl⟩⟩
  | @grow full now operation author compensates grown undoing checked ih =>
      have before := omissible.of_grow grown
      obtain ⟨thin, reached, grown', rest⟩ := ih before
      have last : (full.entryFor now operation author compensates).toEntryRecord ∈
          (full.grow now operation author compensates).records := mem_records_grow.2 (.inr rfl)
      have appended : Controller.rerun clock left (Controller.new config)
          (full.history ++ [full.entryFor now operation author compensates]) =
          Controller.rerun clock left thin
            [full.entryFor now operation author compensates] := by
        rw [rerun_append, reached]
        rfl
      -- The last entry is left out, and the thin run stays; or both runs take the same step.
      by_cases left_out : full.history.length + 1 ∈ left
      · obtain ⟨source, edges, addition⟩ := omissible.additions _ last left_out
        obtain rfl : operation = .newEdge source edges := addition
        refine ⟨thin, appended.trans (rerun_singleton_of_left left_out), grown', ?_⟩
        exact rest.leave_out grown checked left_out now author compensates
          (omissible.drops _ last left_out)
      · have harmless := omissible.harmless grown undoing left_out
        have checked' := rest.check grown grown' checked harmless
        have checked_then := check_of_order checked' (clock (thin.history.length + 1)).order
        obtain ⟨undoing', redone⟩ := rest.redo grown before
          (fun target is => ⟨omissible.free _ last target is, undoing target is⟩)
          (omissible.plain _ last) (clock (thin.history.length + 1))
        refine ⟨_, appended.trans (rerun_singleton_of_redo left_out (redone.trans
          (record_of_check grown'.sound checked' _ author (compensates.map (renumbered left))))),
          .grow _ author grown' undoing' checked_then,
          rest.grow grown grown' checked harmless left_out now _ author compensates
            (omissible.kept _ last left_out)⟩

/-- Additions of edges that can all be undone may be left out. -/
theorem Grown.omissible (grown : Grown config full)
    (unstamped : ∀ record ∈ full.records, record.compensates = none → record.operation.stamps = [])
    {undos : List Undo}
    (removable : ∀ undo ∈ undos, ∃ record source edges, record.sequence = undo.sequence ∧
      Removable full record source edges) :
    Omissible (undos.map Undo.sequence) (full.stampsOf (undos.map Undo.sequence)) full := by
  have of_listed : ∀ record ∈ full.records, record.sequence ∈ undos.map Undo.sequence →
      ∃ source edges, Removable full record source edges := by
    intro record member listed
    obtain ⟨undo, inUndos, same⟩ := List.mem_map.1 listed
    obtain ⟨other, source, edges, number, there⟩ := removable undo inUndos
    obtain rfl := grown.eq_of_sequence there.member member (number.trans same)
    exact ⟨source, edges, there⟩
  constructor
  · intro record member listed
    obtain ⟨source, edges, there⟩ := of_listed record member listed
    exact ⟨source, edges, there.addition⟩
  · intro record member listed stamp given_out
    exact mem_stampsOf.2 ⟨record, member, listed, given_out⟩
  · intro record member unlisted stamp given_out drop
    obtain ⟨other, member', listed, given_out'⟩ := mem_stampsOf.1 drop
    rw [grown.stamps_apart record member other member' stamp given_out given_out'] at unlisted
    exact unlisted listed
  · intro record member target undoes listed
    obtain ⟨undo, inUndos, rfl⟩ := List.mem_map.1 listed
    obtain ⟨other, source, edges, number, there⟩ := removable undo inUndos
    exact there.free record member (undoes.trans (congrArg some number.symm))
  · exact unstamped
  · intro stamp drop _
    obtain ⟨record, member, listed, given_out⟩ := mem_stampsOf.1 drop
    obtain ⟨source, edges, there⟩ := of_listed record member listed
    rw [← grown.map_snd_zip member there.addition] at given_out
    obtain ⟨edge, inZip, rfl⟩ := List.mem_map.1 given_out
    exact ⟨source, edge.1.1, edge.1.2, there.linked edge inZip⟩

/-- **Undoing additions of edges equals never having made them. When a controller undoes some of its
additions of edges, in whatever order, it comes to the graph that the rest of its history leads to from
the start, each call of which is accepted again.** -/
theorem rerun_without (config : Config) (calls : List Call) (clock : Nat → Occasion)
    (unstamped : ∀ entry ∈ ((Controller.new config).run calls).history, entry.compensates = none →
      ∀ source edges stamps, entry.operation = .removeEdge source edges stamps → stamps = [])
    (undos : List Undo)
    (additions : ∀ undo ∈ undos, ∃ entry source edges,
      ((Controller.new config).run calls).entryAt? undo.sequence = some entry ∧
        entry.operation = .newEdge source edges)
    {undone : Controller}
    (done : ((Controller.new config).run calls).compensateAll undos = .ok undone) :
    ∃ rest, (Controller.new config).rerun clock (undos.map Undo.sequence)
        ((Controller.new config).run calls).history = .ok rest ∧
      rest.store.same undone.store = true ∧
      ∀ order, (order.map Undo.sequence).Perm (undos.map Undo.sequence) →
        ∃ undone', ((Controller.new config).run calls).compensateAll order = .ok undone' ∧
          rest.store.same undone'.store = true ∧
          ∀ id edgeType, rest.store.edges id edgeType = undone'.store.edges id edgeType := by
  have grown := grown_run config calls
  have numbered : ∀ undo ∈ undos, ∃ record ∈ ((Controller.new config).run calls).records,
      record.sequence = undo.sequence ∧ ∃ source edges, record.operation = .newEdge source edges := by
    intro undo member
    obtain ⟨entry, source, edges, found, addition⟩ := additions undo member
    obtain ⟨listed, number⟩ := grown.record_of_entryAt? found
    exact ⟨entry.toEntryRecord, listed, number, source, edges, addition⟩
  obtain ⟨nodup, removable⟩ := grown.removable_of_compensateAll numbered done
  have plain : ∀ record ∈ ((Controller.new config).run calls).records,
      record.compensates = none → record.operation.stamps = [] := by
    refine List.forall_mem_map.2 fun entry member submitted => ?_
    cases is : entry.operation with
    | removeEdge source edges stamps => exact unstamped entry member submitted source edges stamps is
    | _ => rfl
  obtain ⟨rest, reached, grown', thinned⟩ := grown.rerun clock (grown.omissible plain removable)
  have in_any_order : ∀ order : List Undo,
      (order.map Undo.sequence).Perm (undos.map Undo.sequence) →
        ∃ undone', ((Controller.new config).run calls).compensateAll order = .ok undone' ∧
          rest.store.same undone'.store = true ∧
          ∀ id edgeType, rest.store.edges id edgeType = undone'.store.edges id edgeType := by
    intro order perm
    obtain ⟨undone', done', grown_undone, stripped⟩ :=
      grown.compensateAll_of_removable (perm.nodup_iff.2 nodup) fun undo member => by
        have listed := perm.mem_iff.1 (List.mem_map_of_mem member)
        obtain ⟨undo', inUndos, same⟩ := List.mem_map.1 listed
        obtain ⟨record, source, edges, number, there⟩ := removable undo' inUndos
        exact ⟨record, source, edges, number.trans same, there⟩
    have taken : Store.Stripped
        (((Controller.new config).run calls).stampsOf (undos.map Undo.sequence))
        ((Controller.new config).run calls).store undone'.store := by
      refine stripped.congr fun stamp => ?_
      simp only [mem_stampsOf, perm.mem_iff]
    exact ⟨undone', done', taken.same thinned.store grown'.sound grown_undone.sound⟩
  refine ⟨rest, reached, ?_, in_any_order⟩
  obtain ⟨undone', done', same, -⟩ := in_any_order undos (.refl _)
  rw [done] at done'
  cases done'
  exact same

/-- A method gets the same edge in three entries and loses the latest, and one more edge comes and is
undone. -/
def equalEdges : List Call :=
  [.apply .epoch (.root ⟨.ofNat 1, "demo", "demo", ""⟩),
   .apply .epoch (.newElement (.method ⟨.ofNat 2, "run"⟩) none
     (.ofDestinations .typeOf [.ofNat 1])),
   .apply .epoch (.newEdge (.ofNat 2) (.ofDestinations .typeOf [.ofNat 1, .ofNat 1])),
   .apply .epoch (.newEdge (.ofNat 2) (.ofDestinations .typeOf [.ofNat 1])),
   .submit .epoch (.removeEdge (.ofNat 2) (.ofDestinations .typeOf [.ofNat 1]) []) "someone",
   .apply .epoch (.newEdge (.ofNat 1) (.ofDestinations .typeOf [.ofNat 2])),
   .compensate .epoch 6 "someone"]

/-- The second of the three entries can be left out: the undoing is aimed one number lower, and all
else comes out the same. -/
theorem rerun_without_second :
    ∃ rest undone,
      (Controller.new .default).rerun (fun _ => .epoch) [3]
        ((Controller.new .default).run equalEdges).history = .ok rest ∧
      ((Controller.new .default).run equalEdges).compensateAll [⟨.epoch, 3, "someone"⟩] =
        .ok undone ∧
      rest.store.same undone.store = true := by
  have plain : ∀ entry ∈ ((Controller.new .default).run equalEdges).history,
      entry.compensates = none → entry.operation.stamps = [] := by
    decide +kernel
  obtain ⟨rest, reached, same, -⟩ := rerun_without .default equalEdges (fun _ => .epoch)
    (fun entry member submitted source edges stamps is => by
      have unstamped := plain entry member submitted
      rwa [is] at unstamped)
    [⟨.epoch, 3, "someone"⟩] (List.forall_mem_singleton.2 ⟨_, _, _, rfl, rfl⟩) rfl
  exact ⟨rest, _, reached, rfl, same⟩

end Controller

end LanguageGraph
