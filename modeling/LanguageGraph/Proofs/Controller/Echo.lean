/-
# Proofs.Controller.Echo — controllers that agree in all but times

Two controllers with one store, one history but for its times, and the same settings (`Echoes`) do the
same on any two occasions. They undo the same entries by the same operations, and accept the same
operations, after which they agree again. They refuse for the same reasons as well; only a removal
without stamps may name another one of the edges that it misses, as that is up to the occasion
(`Echoed`).
-/
import LanguageGraph.Proofs.Controller.Replay

namespace LanguageGraph

set_option autoImplicit false

/-- What an entry says was done: the operation, by whom, and which entry it undoes. -/
def HistoryEntry.deed (entry : HistoryEntry) : Operation × String × Option Nat :=
  (entry.operation, entry.author, entry.compensates)

namespace Controller

/-- All of a controller but the times in its history. -/
def untimed (controller : Controller) : Store × List EntryRecord × Config :=
  (controller.store, controller.records, controller.config)

/-- Two controllers that agree in all but the times of their histories. -/
structure Echoes (first second : Controller) : Prop extends Mirrors first second where
  config : second.config = first.config

/-- Two outcomes of one operation at a store, with controllers that agree in all but times. The answers
are the same, except perhaps in which missing edge they name. -/
inductive Echoed (operation : Operation) (store : Store) : Outcome → Outcome → Prop where
  | same {first second : Controller} (result : Except Refusal Applied) (events : List Event)
      (echoes : Echoes first second) :
      Echoed operation store ⟨result, first, events⟩ ⟨result, second, events⟩
  | refused {first second : Controller} {refusal refusal' : Refusal}
      (verdict : operation.SameVerdict store (.error refusal) (.error refusal'))
      (echoes : Echoes first second) :
      Echoed operation store ⟨.error refusal, first, [.rejected operation refusal]⟩
        ⟨.error refusal', second, [.rejected operation refusal']⟩

variable {first second : Controller}

/-! ## Times and what is undone -/

/-- The same controller with one time in place of all times in its history. -/
def dated (controller : Controller) (time : Timestamp) : Controller :=
  { controller with history := controller.records.map fun record => ⟨record, time⟩ }

theorem entryAt?_dated (controller : Controller) (time : Timestamp) (sequence : Nat) :
    (controller.dated time).entryAt? sequence =
      (controller.entryAt? sequence).map fun entry => ⟨entry.toEntryRecord, time⟩ := by
  rw [entryAt?, entryAt?, dated, records, List.map_map, List.getElem?_map]
  split
  · rfl
  · rfl

/-- Times do not matter to what is undone, nor to why something is not. -/
theorem compensationFor_dated (controller : Controller) (time : Timestamp) (sequence : Nat) :
    (controller.dated time).compensationFor sequence = controller.compensationFor sequence := by
  rw [Controller.compensationFor, Controller.compensationFor, entryAt?_dated]
  cases controller.entryAt? sequence with
  | none => rfl
  | some entry =>
      rw [dated, records, List.map_map, List.any_map, ← List.map_drop]
      simp only [Option.map_some, List.find?_map]
      split
      · rename_i undone
        exact (if_pos undone).symm
      · rename_i free
        apply Eq.trans _ (if_neg free).symm
        cases entry.operation.introduced? with
        | none => rfl
        | some id =>
            -- Looking through the dated entries finds the same one, but for its time.
            have dated_search : (controller.history.drop sequence).find?
                ((fun other => decide (other.operation.introduced? = some id)) ∘
                  (fun record => (⟨record, time⟩ : HistoryEntry)) ∘ HistoryEntry.toEntryRecord) =
                (controller.history.drop sequence).find? fun other =>
                  other.operation.introduced? = some id := rfl
            simp only [Option.bind_some, dated_search]
            cases (controller.history.drop sequence).find? fun other =>
                other.operation.introduced? = some id with
            | none => rfl
            | some later => rfl

theorem Mirrors.compensationFor_eq (mirrors : Mirrors first second) (sequence : Nat) :
    second.compensationFor sequence = first.compensationFor sequence := by
  have history : (second.dated .epoch).history = (first.dated .epoch).history :=
    congrArg (List.map _) mirrors.records
  have same : (second.dated .epoch).compensationFor sequence =
      (first.dated .epoch).compensationFor sequence := by
    rw [Controller.compensationFor, Controller.compensationFor, entryAt?, entryAt?, history]
  rwa [compensationFor_dated, compensationFor_dated] at same

/-! ## One operation on two occasions -/

/-- An order of edges matters to a check only in which missing edge is named. -/
theorem sameVerdict_check (controller : Controller) (order order' : EdgeOrder)
    (operation : Operation) :
    operation.SameVerdict controller.store (controller.check order operation)
      (controller.check order' operation) := by
  have same := Operation.sameVerdict_validate order order' operation controller.store
  rw [check, check]
  generalize operation.validate order controller.store = verdict at same
  generalize operation.validate order' controller.store = verdict' at same
  cases same with
  | same => exact .same _
  | missing removal missing missing' => exact .missing removal missing missing'

namespace Echoes

theorem refl (controller : Controller) : Echoes controller controller :=
  ⟨⟨rfl, rfl⟩, rfl⟩

theorem untimed_eq (echoes : Echoes first second) : second.untimed = first.untimed := by
  rw [untimed, echoes.store, echoes.records, echoes.config]
  rfl

theorem check_eq (echoes : Echoes first second) (order : EdgeOrder) (operation : Operation) :
    second.check order operation = first.check order operation := by
  rw [check, check, echoes.store, echoes.config]

theorem grow (echoes : Echoes first second) (now now' : Occasion) (operation : Operation)
    (author : String) (compensates : Option Nat) :
    Echoes (first.grow now operation author compensates)
      (second.grow now' operation author compensates) :=
  ⟨echoes.toMirrors.grow now now' operation author compensates, echoes.config⟩

theorem record (echoes : Echoes first second) (sound : first.store.Sound) (now now' : Occasion)
    (operation : Operation) (author : String) (compensates : Option Nat) :
    Echoed operation first.store (first.record now operation author compensates)
      (second.record now' operation author compensates) := by
  have checks := echoes.check_eq now'.order operation
  cases checked : first.check now.order operation with
  | ok _ =>
      have checked' := checks.trans (check_of_order checked now'.order)
      rw [record_of_check sound checked, record_of_check (echoes.store ▸ sound) checked',
        echoes.length_history]
      exact .same _ _ (echoes.grow now now' operation author compensates)
  | error refusal =>
      cases checked' : first.check now'.order operation with
      | ok _ => exact nomatch (check_of_order checked' now.order).symm.trans checked
      | error refusal' =>
          have verdict := first.sameVerdict_check now.order now'.order operation
          rw [checked, checked'] at verdict
          rw [record_of_refused checked, record_of_refused (checks.trans checked')]
          exact .refused verdict echoes

/-- Entries that show the same deed are replayed in the same way. -/
theorem replayEntry (echoes : Echoes first second) (sound : first.store.Sound)
    (now now' : Occasion) {entry entry' : HistoryEntry} (deed : entry'.deed = entry.deed) :
    Echoed entry.operation first.store (first.replayEntry now entry)
      (second.replayEntry now' entry') := by
  obtain ⟨operation, author, compensates⟩ : entry'.operation = entry.operation ∧
      entry'.author = entry.author ∧ entry'.compensates = entry.compensates := by
    simpa [HistoryEntry.deed] using deed
  rw [Controller.replayEntry, Controller.replayEntry, operation, author, compensates]
  cases entry.compensates with
  | none => exact echoes.record sound now now' entry.operation entry.author none
  | some target =>
      dsimp only
      rw [echoes.compensationFor_eq target]
      cases first.compensationFor target with
      | error refusal => exact .same _ _ echoes
      | ok inverse =>
          dsimp only
          split
          · exact echoes.record sound now now' entry.operation entry.author (some target)
          · exact .same _ _ echoes

end Echoes

end Controller

end LanguageGraph
