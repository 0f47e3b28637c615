/-
# Proofs.Controller.Log — the history is a log

A call that is accepted puts one entry at the end of the history and answers with it; a call that is
refused puts none; nothing that stands in the history is ever changed (`logged_run`).

What an undoing was checked for is said of the history at the time of the call, and the history goes on.
It holds ever after (`WellLogged`): an entry that undoes another one is that entry's inverse and the only
one to undo it, since a second undoing finds the first one and is refused; and what lies between the two
does not change any more, so no element can be introduced again there.
-/
import LanguageGraph.Proofs.Controller.Compensation

namespace LanguageGraph

set_option autoImplicit false

namespace Controller

/-- What a call leaves of the history: one more entry, of which the answer tells, or the same entries. -/
def Logs (controller : Controller) (outcome : Outcome) : Prop :=
  match outcome.result with
  | .ok applied => ∃ entry, outcome.controller.history = controller.history ++ [entry] ∧
      applied = ⟨entry.sequence, entry.warnings⟩
  | .error _ => outcome.controller.history = controller.history

/-- The entries of the history are numbered, and those that undo others are in order. -/
structure WellLogged (controller : Controller) : Prop where
  /-- Entries are numbered from one, in the order in which they stand. -/
  numbered : ∀ (index : Nat) (entry : HistoryEntry), controller.history[index]? = some entry →
    entry.sequence = index + 1
  /-- What is undone was added by an earlier entry, and is undone by that entry's inverse. -/
  undoing : ∀ entry ∈ controller.history, ∀ target, entry.compensates = some target →
    1 ≤ target ∧ target < entry.sequence ∧
      ∃ undone, controller.entryAt? target = some undone ∧
        undone.operation.isAddition = true ∧
        undone.inverse? = some entry.operation ∧
        ∀ id, undone.operation.introduced? = some id →
          ∀ between ∈ controller.history,
            target < between.sequence → between.sequence < entry.sequence →
              between.operation.introduced? ≠ some id
  /-- No two entries undo the same one. -/
  undone_once : ∀ first ∈ controller.history, ∀ second ∈ controller.history, ∀ target,
    first.compensates = some target → second.compensates = some target → first = second

variable {controller : Controller} {config : Config} {operation : Operation} {now : Occasion}
  {author : String} {compensates : Option Nat} {sequence : Nat} {entry : HistoryEntry}

/-! ## One call -/

theorem logs_record (controller : Controller) (now : Occasion) (operation : Operation)
    (author : String) (compensates : Option Nat) :
    controller.Logs (controller.record now operation author compensates) := by
  rw [record]
  cases controller.check now.order operation with
  | error refusal => exact rfl
  | ok _ =>
      dsimp only
      split
      · exact rfl
      · exact ⟨_, rfl, rfl⟩

/-- Every call appends the entry that it answers with, or leaves the history alone. -/
theorem logs_call (controller : Controller) (call : Call) :
    controller.Logs (controller.call call) := by
  cases call with
  | apply now operation =>
      exact controller.logs_record now operation controller.config.defaultAuthor none
  | submit now operation author => exact controller.logs_record now operation author none
  | compensate now sequence author =>
      rw [Controller.call, compensate]
      cases controller.compensationFor sequence with
      | error refusal => exact rfl
      | ok inverse => exact controller.logs_record now inverse author (some sequence)

theorem history_prefix_call (controller : Controller) (call : Call) :
    controller.history <+: (controller.call call).controller.history := by
  have logs := controller.logs_call call
  rw [Logs] at logs
  split at logs
  · obtain ⟨entry, longer, -⟩ := logs
    rw [longer]
    exact List.prefix_append _ _
  · rw [logs]

/-- No call touches what stands in the history. -/
theorem history_prefix_run (controller : Controller) (calls : List Call) :
    controller.history <+: (controller.run calls).history := by
  induction calls generalizing controller with
  | nil => exact List.prefix_refl _
  | cons call calls ih => exact (controller.history_prefix_call call).trans (ih _)

/-! ## Numbers -/

theorem Grown.sequence_of_getElem? (grown : Grown config controller) {index : Nat}
    (found : controller.history[index]? = some entry) : entry.sequence = index + 1 := by
  obtain ⟨before, after, split, rfl⟩ := split_of_getElem? found
  have standing : controller.entryAt? (before.length + 1) = some entry :=
    entryAt?_eq_some_iff.2 ⟨before, after, split, rfl⟩
  exact (grown.record_of_entryAt? standing).2

/-- An entry with a higher number stands behind. -/
theorem Grown.mem_drop_of_lt (grown : Grown config controller) (member : entry ∈ controller.history)
    (later : sequence < entry.sequence) : entry ∈ controller.history.drop sequence := by
  obtain ⟨index, found⟩ := List.mem_iff_getElem?.1 member
  rw [grown.sequence_of_getElem? found] at later
  obtain ⟨further, rfl⟩ := Nat.exists_eq_add_of_le (Nat.le_of_lt_succ later)
  rw [← List.getElem?_drop] at found
  exact List.mem_of_getElem? found

theorem Grown.sequence_le_length (grown : Grown config controller)
    (member : entry ∈ controller.history) : entry.sequence ≤ controller.history.length :=
  grown.sequence_le (List.mem_map_of_mem member)

/-- What stands at a number still stands there when the history is longer. -/
theorem entryAt?_grow (found : controller.entryAt? sequence = some entry) :
    (controller.grow now operation author compensates).entryAt? sequence = some entry := by
  obtain ⟨before, after, split, rfl⟩ := entryAt?_eq_some_iff.1 found
  refine entryAt?_eq_some_iff.2
    ⟨before, after ++ [controller.entryFor now operation author compensates], ?_, rfl⟩
  show controller.history ++ [controller.entryFor now operation author compensates] = _
  rw [split, List.append_assoc, List.cons_append]

/-! ## Undoing -/

theorem WellLogged.new (config : Config) : (Controller.new config).WellLogged where
  numbered _ _ found := by cases found
  undoing _ member := by cases member
  undone_once _ member := by cases member

/-- An undoing that is allowed is in order at the time of the call. -/
theorem Grown.undoing_of_allowed (grown : Grown config controller) {inverse : Operation}
    (allowed : controller.compensationFor sequence = .ok inverse) :
    1 ≤ sequence ∧ sequence ≤ controller.history.length ∧
      ∃ undone, controller.entryAt? sequence = some undone ∧
        undone.operation.isAddition = true ∧
        undone.inverse? = some inverse ∧
        ∀ id, undone.operation.introduced? = some id →
          ∀ later ∈ controller.history, sequence < later.sequence →
            later.operation.introduced? ≠ some id := by
  cases found : controller.entryAt? sequence with
  | none => simp [compensationFor, found] at allowed
  | some undone =>
      obtain ⟨-, latest, inverted⟩ := (compensationFor_of_entryAt? found).1 allowed
      obtain ⟨before, after, split, rfl⟩ := entryAt?_eq_some_iff.1 found
      have short : before.length + 1 ≤ controller.history.length := by
        rw [split, List.length_append, List.length_cons]
        omega
      have addition : undone.operation.isAddition = true := by
        by_contra removal
        have no_inverse : undone.inverse? = none :=
          Operation.inverse?_eq_none_iff.2 (Bool.eq_false_iff.2 removal)
        rw [inverted] at no_inverse
        cases no_inverse
      refine ⟨Nat.succ_pos _, short, undone, rfl, addition, inverted, ?_⟩
      intro id introduced later member behind
      exact latest id introduced later (grown.mem_drop_of_lt member behind)

/-- One more entry leaves the history in order. -/
theorem WellLogged.grow (logged : controller.WellLogged) (grown : Grown config controller)
    (undoing : ∀ target, compensates = some target →
      controller.compensationFor target = .ok operation)
    (now : Occasion) (checked : controller.check now.order operation = .ok ()) (author : String) :
    (controller.grow now operation author compensates).WellLogged where
  numbered index entry found :=
    (Grown.grow now author grown undoing checked).sequence_of_getElem? found
  undoing := by
    intro entry member target undoes
    rcases List.mem_append.1 member with old | new
    · obtain ⟨some_number, early, undone, found, addition, inverted, unrepeated⟩ :=
        logged.undoing entry old target undoes
      refine ⟨some_number, early, undone, entryAt?_grow found, addition, inverted, ?_⟩
      intro id introduced between inHistory behind before
      rcases List.mem_append.1 inHistory with old' | new'
      · exact unrepeated id introduced between old' behind before
      · -- The new entry has the highest number, so it lies between no two others.
        have low := grown.sequence_le_length old
        rw [List.mem_singleton.1 new'] at before
        exact absurd (Nat.lt_of_lt_of_le before low) Nat.not_succ_lt_self
    · rw [List.mem_singleton.1 new] at undoes ⊢
      obtain ⟨some_number, early, undone, found, addition, inverted, unrepeated⟩ :=
        grown.undoing_of_allowed (undoing target undoes)
      refine ⟨some_number, Nat.lt_succ_of_le early, undone, entryAt?_grow found, addition,
        inverted, ?_⟩
      intro id introduced between inHistory behind before
      rcases List.mem_append.1 inHistory with old | new'
      · exact unrepeated id introduced between old behind
      · rw [List.mem_singleton.1 new'] at before
        exact absurd before (Nat.lt_irrefl _)
  undone_once := by
    -- Whoever undoes an entry again finds that it was undone.
    have unique : ∀ old ∈ controller.history, ∀ target, old.compensates = some target →
        compensates ≠ some target := by
      intro old member target undoes again
      obtain ⟨_, _, undone, found, -⟩ := grown.undoing_of_allowed (undoing target again)
      obtain ⟨stands, -⟩ := (compensationFor_of_entryAt? found).1 (undoing target again)
      exact stands old member undoes
    intro first member second member' target undoes undoes'
    rcases List.mem_append.1 member with old | new <;>
      rcases List.mem_append.1 member' with old' | new'
    · exact logged.undone_once first old second old' target undoes undoes'
    · rw [List.mem_singleton.1 new'] at undoes'
      exact absurd undoes' (unique first old target undoes)
    · rw [List.mem_singleton.1 new] at undoes
      exact absurd undoes (unique second old' target undoes')
    · exact (List.mem_singleton.1 new).trans (List.mem_singleton.1 new').symm

theorem Grown.wellLogged (grown : Grown config controller) : controller.WellLogged := by
  induction grown with
  | new => exact .new config
  | @grow controller now operation author compensates grown undoing checked ih =>
      exact ih.grow grown undoing now checked author

/-- **A call appends the one entry that it answers with, or none when it is refused, and whatever calls
follow, the entries stay as they are. In every history that calls made, entries are numbered in order;
an entry that undoes another one is the inverse of an earlier addition, undoes it alone, and no entry
between the two introduces the element of that addition again.** -/
theorem logged_run :
    (∀ (controller : Controller) (call : Call), controller.Logs (controller.call call)) ∧
      (∀ (controller : Controller) (calls : List Call),
        controller.history <+: (controller.run calls).history) ∧
      ∀ (config : Config) (calls : List Call), ((Controller.new config).run calls).WellLogged :=
  ⟨logs_call, history_prefix_run, fun config calls => (grown_run config calls).wellLogged⟩

end Controller

end LanguageGraph
