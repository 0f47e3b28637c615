/-
# Proofs.Controller.Replay — a history leads back to its graph

Replaying re-derives numbers, stamps, warnings and inverses instead of reading them. It comes to the
same ones because every check and every commit looks at the store and the records only: two controllers
that agree in these (`Mirrors`) agree again after the same operation, whatever the occasion.

The settings matter in one respect. A controller that rejects orphans stops at the first entry that
carries a warning; any other replays the history to its end (`replay_run`).
-/
import LanguageGraph.Controller.Replay
import LanguageGraph.Proofs.Controller.History

namespace LanguageGraph

set_option autoImplicit false

namespace Controller

variable {config : Config} {clock : Nat → Occasion}

/-- Two controllers with one store and, but for times and settings, one history. -/
structure Mirrors (first second : Controller) : Prop where
  store : second.store = first.store
  records : second.records = first.records

namespace Mirrors

variable {first second : Controller}

theorem length_history (mirrors : Mirrors first second) :
    second.history.length = first.history.length := by
  rw [← length_records, ← length_records, mirrors.records]

/-- What is undone by which operation is the same in both. -/
theorem compensationFor (mirrors : Mirrors first second) {sequence : Nat} {inverse : Operation}
    (allowed : first.compensationFor sequence = .ok inverse) :
    second.compensationFor sequence = .ok inverse := by
  rw [compensationFor_eq_ok_iff] at allowed ⊢
  rwa [mirrors.records]

/-- Committing the same operation leaves the same records, numbers and stamps included. -/
theorem grow (mirrors : Mirrors first second) (now now' : Occasion) (operation : Operation)
    (author : String) (compensates : Option Nat) :
    Mirrors (first.grow now operation author compensates)
      (second.grow now' operation author compensates) where
  store := congrArg (fun store => (operation.commit store).2) mirrors.store
  records := by
    rw [records_grow, records_grow, mirrors.records, entryFor, entryFor, mirrors.length_history,
      mirrors.store]

end Mirrors

theorem replayFrom_append (controller : Controller) (first second : List HistoryEntry) :
    (replayFrom clock controller (first ++ second)).1 =
      (replayFrom clock controller first).1.bind fun reached =>
        (replayFrom clock reached second).1 := by
  induction first generalizing controller with
  | nil => rfl
  | cons entry first ih =>
      rw [List.cons_append, replayFrom, replayFrom]
      cases answer : (controller.replayEntry (clock (controller.history.length + 1)) entry).result with
      | error refusal => rfl
      | ok applied => exact ih _

theorem replayFrom_singleton (controller : Controller) (entry : HistoryEntry) :
    (replayFrom clock controller [entry]).1 =
      ((controller.replayEntry (clock (controller.history.length + 1)) entry).result.map fun _ =>
        (controller.replayEntry (clock (controller.history.length + 1)) entry).controller) := by
  rw [replayFrom]
  cases (controller.replayEntry (clock (controller.history.length + 1)) entry).result <;> rfl

/-- Replaying an entry records its operation, where it undoes what it claims to undo. -/
theorem replayEntry_eq_record {controller : Controller} {entry : HistoryEntry} (now : Occasion)
    (undoing : ∀ target, entry.compensates = some target →
      controller.compensationFor target = .ok entry.operation) :
    controller.replayEntry now entry =
      controller.record now entry.operation entry.author entry.compensates := by
  unfold replayEntry
  cases is : entry.compensates with
  | none => rfl
  | some target =>
      dsimp only
      rw [undoing target is]
      simp

/-- Replaying the entry that one controller would write next is recording its operation in another. -/
theorem Mirrors.replayFrom_entryFor {first second : Controller} (mirrors : Mirrors first second)
    {operation : Operation} {compensates : Option Nat}
    (undoing : ∀ target, compensates = some target → first.compensationFor target = .ok operation)
    (now : Occasion) (author : String) :
    (replayFrom clock second [first.entryFor now operation author compensates]).1 =
      (second.record (clock (second.history.length + 1)) operation author compensates).result.map
        fun _ => (second.record (clock (second.history.length + 1)) operation author
          compensates).controller := by
  rw [replayFrom_singleton, replayEntry_eq_record _ fun target is =>
    mirrors.compensationFor (undoing target is)]
  rfl

/-- What replaying a history under some settings comes to. -/
inductive Replayed (clock : Nat → Occasion) (config : Config) (controller : Controller) : Prop where
  | whole (replayed : Controller)
      (reached : (replay clock controller.history config).1 = .ok replayed)
      (mirrors : Mirrors controller replayed) (settings : replayed.config = config)
      (sound : replayed.store.Sound)
      (quiet : config.rejectOrphans = true → ∀ entry ∈ controller.history, entry.warnings = [])
  | stopped (before : List HistoryEntry) (entry : HistoryEntry) (after : List HistoryEntry)
      (id : ElementId) (strict : config.rejectOrphans = true)
      (split : controller.history = before ++ entry :: after)
      (quiet : ∀ earlier ∈ before, earlier.warnings = [])
      (warned : entry.warnings = [.orphanedElement id])
      (introduced : entry.operation.introduced? = some id)
      (refused : (replay clock controller.history config).1 = .error (.orphanedElement id))

theorem Grown.replayed {controller : Controller} (grown : Grown config controller)
    (clock : Nat → Occasion) (config' : Config) : Replayed clock config' controller := by
  induction grown with
  | new =>
      refine .whole (Controller.new config') rfl ⟨rfl, rfl⟩ rfl Store.sound_empty ?_
      intro _ entry member
      cases member
  | @grow controller now operation author compensates grown undoing checked ih =>
      have appended : (replay clock
          (controller.history ++ [controller.entryFor now operation author compensates]) config').1 =
          (replay clock controller.history config').1.bind fun reached =>
            (replayFrom clock reached
              [controller.entryFor now operation author compensates]).1 :=
        replayFrom_append _ _ _
      cases ih with
      | stopped before entry after id strict split quiet warned introduced refused =>
          refine .stopped before entry
            (after ++ [controller.entryFor now operation author compensates]) id strict ?_ quiet
            warned introduced ?_
          · show controller.history ++ _ = _
            rw [split, List.append_assoc, List.cons_append]
          · refine appended.trans ?_
            rw [refused]
            rfl
      | whole replayed reached mirrors settings sound quiet =>
          have valid : operation.validate (clock (replayed.history.length + 1)).order replayed.store =
              .ok () :=
            Operation.validate_of_order (mirrors.store ▸ (check_eq_ok_iff.1 checked).1) _
          have again := appended.trans ((congrArg (Except.bind · _) reached).trans
            (mirrors.replayFrom_entryFor undoing now author))
          -- The store and the records are the same, so only the settings can refuse this entry.
          by_cases orphaned : config'.rejectOrphans = true ∧ operation.orphan? ≠ none
          · obtain ⟨id, is⟩ := Option.ne_none_iff_exists'.1 orphaned.2
            refine .stopped controller.history
              (controller.entryFor now operation author compensates) [] id orphaned.1 rfl
              (quiet orphaned.1) ?_ (Operation.introduced?_of_orphan? is) ?_
            · show warningsOf operation = _
              rw [warningsOf, is]
            · have refused := check_of_orphan valid is (settings ▸ orphaned.1)
              exact again.trans (by rw [record_of_refused refused]; rfl)
          · have unorphaned : config'.rejectOrphans = true → operation.orphan? = none := by
              intro strict
              by_contra some_orphan
              exact orphaned ⟨strict, some_orphan⟩
            have passes : replayed.check (clock (replayed.history.length + 1)).order operation = .ok () :=
              check_eq_ok_iff.2 ⟨valid, settings ▸ unorphaned⟩
            refine .whole _ (again.trans (by rw [record_of_check sound passes]; rfl))
              (mirrors.grow now _ operation author compensates) settings
              (sound.perform operation.steps) ?_
            intro strict entry member
            rcases List.mem_append.1 member with old | new
            · exact quiet strict entry old
            · rw [List.mem_singleton.1 new]
              show warningsOf operation = []
              rw [warningsOf, unorphaned strict]

/-- **Replaying the history of a controller, under any settings, leads to the store of that controller
and to its history but for the times; unless the settings reject orphans, and then it stops at the
first entry that carries a warning, with the element of that entry.** -/
theorem replay_run (config config' : Config) (calls : List Call) (clock : Nat → Occasion) :
    let controller := (Controller.new config).run calls
    ((config'.rejectOrphans = false ∨ ∀ entry ∈ controller.history, entry.warnings = []) →
        ∃ replayed, (replay clock controller.history config').1 = .ok replayed ∧
          replayed.store = controller.store ∧
          replayed.store.same controller.store = true ∧
          replayed.history.map HistoryEntry.toEntryRecord =
            controller.history.map HistoryEntry.toEntryRecord ∧
          replayed.config = config') ∧
      (¬ (config'.rejectOrphans = false ∨ ∀ entry ∈ controller.history, entry.warnings = []) →
        ∃ before entry after id, controller.history = before ++ entry :: after ∧
          (∀ earlier ∈ before, earlier.warnings = []) ∧
          entry.warnings = [.orphanedElement id] ∧
          entry.operation.introduced? = some id ∧
          (replay clock controller.history config').1 = .error (.orphanedElement id)) := by
  intro controller
  cases (grown_run config calls).replayed clock config' with
  | whole replayed reached mirrors settings sound quiet =>
      constructor
      · intro _
        refine ⟨replayed, reached, mirrors.store, ?_, mirrors.records, settings⟩
        rw [← mirrors.store]
        exact Store.same_of_edges sound sound (.refl _) rfl fun _ _ => rfl
      · intro stops
        exfalso
        apply stops
        cases strict : config'.rejectOrphans with
        | false => exact .inl rfl
        | true => exact .inr (quiet strict)
  | stopped before entry after id strict split quiet warned introduced refused =>
      constructor
      · rintro (lenient | unwarned)
        · rw [strict] at lenient
          cases lenient
        · have none_here := unwarned entry (by rw [split]; exact List.mem_append_cons_self)
          rw [warned] at none_here
          cases none_here
      · intro _
        exact ⟨before, entry, after, id, split, quiet, warned, introduced, refused⟩

/-- A root, a method without a container that refers to it twice, and the undoing of the method. -/
def undoneOrphan : List Call :=
  [.apply .epoch (.root ⟨.ofNat 1, "demo", "demo", ""⟩),
   .submit .epoch (.newElement (.method ⟨.ofNat 2, "run"⟩) none
     (.ofDestinations .typeOf [.ofNat 1, .ofNat 1])) "someone",
   .compensate .epoch 2 "someone"]

/-- The settings decide whether a history with an orphan in it leads anywhere. -/
theorem replay_run_undoneOrphan :
    (∃ replayed, (replay (fun _ => .epoch)
        ((Controller.new .default).run undoneOrphan).history .default).1 = .ok replayed ∧
      replayed.store = ((Controller.new .default).run undoneOrphan).store) ∧
    ∃ id, (replay (fun _ => .epoch) ((Controller.new .default).run undoneOrphan).history
      { rejectOrphans := true }).1 = .error (.orphanedElement id) := by
  constructor
  · obtain ⟨replayed, reached, store, -⟩ :=
      (replay_run .default .default undoneOrphan fun _ => .epoch).1 (.inl rfl)
    exact ⟨replayed, reached, store⟩
  · obtain ⟨-, -, -, id, -, -, -, -, refused⟩ :=
      (replay_run .default { rejectOrphans := true } undoneOrphan fun _ => .epoch).2 (by
        rintro (lenient | quiet)
        · cases lenient
        · cases quiet _ (List.mem_cons_of_mem _ List.mem_cons_self))
    exact ⟨id, refused⟩

end Controller

end LanguageGraph
