/-
# Proofs.Controller.Run — calls take effect whole or not at all

A call that passes its checks commits its operation and appends one entry (`record_of_check`); a call
that does not leaves the controller as it was (`record_of_refused`). There is no third outcome: the
commit that fails after the checks passed would leave a half-changed store behind, and cannot happen at
a sound store (`Operation.commit_of_validate`).

So every controller that calls lead to is `Grown`: made from the new one by adding entries, each checked
at the controller it was added to, and each compensation the one that controller would perform. The
store of such a controller is sound, and a refused call on it changes nothing (`atomic`).
-/
import LanguageGraph.Controller.Basic
import LanguageGraph.Proofs.Operation.Commit

namespace LanguageGraph

set_option autoImplicit false

/-- A call that may change a controller, with the occasion on which it is made. -/
inductive Call where
  | apply (now : Occasion) (operation : Operation)
  | submit (now : Occasion) (operation : Operation) (author : String)
  | compensate (now : Occasion) (sequence : Nat) (author : String)

namespace Controller

def call (controller : Controller) : Call → Outcome
  | .apply now operation => controller.apply now operation
  | .submit now operation author => controller.submit now operation author
  | .compensate now sequence author => controller.compensate now sequence author

/-- The controller after some calls, refused ones among them. -/
def run (controller : Controller) (calls : List Call) : Controller :=
  calls.foldl (fun controller call => (controller.call call).controller) controller

/-- The entry of an operation that is committed next. -/
def entryFor (controller : Controller) (now : Occasion) (operation : Operation) (author : String)
    (compensates : Option Nat) : HistoryEntry :=
  { sequence := controller.history.length + 1
    operation := operation
    author := author
    warnings := warningsOf operation
    compensates := compensates
    edgeStamps := EdgeStamp.between controller.store.nextStamp
      (operation.commit controller.store).2.nextStamp
    appliedAt := now.time }

/-- The controller after committing an operation that passed its checks. -/
def grow (controller : Controller) (now : Occasion) (operation : Operation) (author : String)
    (compensates : Option Nat) : Controller :=
  { controller with
    store := (operation.commit controller.store).2
    history := controller.history ++ [controller.entryFor now operation author compensates] }

/-- What calls can make of a new controller. -/
inductive Grown (config : Config) : Controller → Prop where
  | new : Grown config (Controller.new config)
  | grow {controller : Controller} (now : Occasion) {operation : Operation} (author : String)
      {compensates : Option Nat} (grown : Grown config controller)
      (undoing : ∀ target, compensates = some target →
        controller.compensationFor target = .ok operation)
      (checked : controller.check now.order operation = .ok ()) :
      Grown config (controller.grow now operation author compensates)

variable {controller : Controller} {order : EdgeOrder} {operation : Operation} {config : Config}

/-! ## One call -/

theorem check_eq_ok_iff :
    controller.check order operation = .ok () ↔
      operation.validate order controller.store = .ok () ∧
        (controller.config.rejectOrphans = true → operation.orphan? = none) := by
  unfold check
  cases operation.validate order controller.store with
  | error refusal => simp
  | ok _ =>
      cases operation.orphan? with
      | none => simp
      | some id => cases controller.config.rejectOrphans <;> simp

theorem check_of_orphan (valid : operation.validate order controller.store = .ok ()) {id : ElementId}
    (orphaned : operation.orphan? = some id) (strict : controller.config.rejectOrphans = true) :
    controller.check order operation = .error (.orphanedElement id) := by
  rw [check, valid, orphaned]
  exact if_pos strict

theorem check_of_order (checked : controller.check order operation = .ok ()) (order' : EdgeOrder) :
    controller.check order' operation = .ok () :=
  have ⟨valid, contained⟩ := check_eq_ok_iff.1 checked
  check_eq_ok_iff.2 ⟨Operation.validate_of_order valid order', contained⟩

theorem record_of_refused {now : Occasion} {refusal : Refusal}
    (refused : controller.check now.order operation = .error refusal) (author : String)
    (compensates : Option Nat) :
    controller.record now operation author compensates =
      ⟨.error refusal, controller, [.rejected operation refusal]⟩ := by
  rw [record, refused]

/-- A checked operation is committed whole on any occasion, and its entry appended. -/
theorem record_of_check (sound : controller.store.Sound)
    (checked : controller.check order operation = .ok ()) (now : Occasion) (author : String)
    (compensates : Option Nat) :
    controller.record now operation author compensates =
      ⟨.ok ⟨controller.history.length + 1, warningsOf operation⟩,
        controller.grow now operation author compensates,
        eventsOf (controller.history.length + 1) operation author⟩ := by
  obtain ⟨final, done⟩ := Operation.commit_of_validate sound (check_eq_ok_iff.1 checked).1
  rw [record, check_of_order checked now.order, grow, entryFor, done]

/-- Recording either passes the check and grows the controller, or leaves it alone. -/
theorem record_cases (sound : controller.store.Sound) (now : Occasion) (operation : Operation)
    (author : String) (compensates : Option Nat) :
    (controller.check now.order operation = .ok () ∧
        (controller.record now operation author compensates).controller =
          controller.grow now operation author compensates ∧
        (controller.record now operation author compensates).result =
          .ok ⟨controller.history.length + 1, warningsOf operation⟩) ∨
      ((controller.record now operation author compensates).controller = controller ∧
        ∃ refusal, controller.check now.order operation = .error refusal ∧
          (controller.record now operation author compensates).result = .error refusal) := by
  cases checked : controller.check now.order operation with
  | ok _ =>
      left
      rw [record_of_check sound checked now author compensates]
      exact ⟨rfl, rfl, rfl⟩
  | error refusal =>
      right
      rw [record_of_refused checked author compensates]
      exact ⟨rfl, refusal, rfl, rfl⟩

/-- Submitting an operation that passes the check grows the controller. -/
theorem submit_of_check (sound : controller.store.Sound)
    (checked : controller.check order operation = .ok ()) (now : Occasion) (author : String) :
    (controller.submit now operation author).controller =
      controller.grow now operation author none := by
  rw [submit, record_of_check sound checked]

theorem submit_accepted_iff (sound : controller.store.Sound) (order : EdgeOrder) {now : Occasion}
    {author : String} :
    (∃ applied, (controller.submit now operation author).result = .ok applied) ↔
      controller.check order operation = .ok () := by
  rw [submit]
  rcases record_cases sound now operation author none with
    ⟨checked, -, answer⟩ | ⟨-, refusal, refused, answer⟩
  · exact ⟨fun _ => check_of_order checked order, fun _ => ⟨_, answer⟩⟩
  · constructor
    · rintro ⟨applied, accepted⟩
      exact nomatch answer.symm.trans accepted
    · intro checked
      exact nomatch refused.symm.trans (check_of_order checked now.order)

/-- A call is answered with an entry of its own, or changes nothing. -/
theorem call_cases (sound : controller.store.Sound) (call : Call) :
    (∃ now operation author compensates,
        (∀ target, compensates = some target →
          controller.compensationFor target = .ok operation) ∧
        controller.check now.order operation = .ok () ∧
        (controller.call call).controller =
          controller.grow now operation author compensates ∧
        (controller.call call).result =
          .ok ⟨controller.history.length + 1, warningsOf operation⟩) ∨
      ((controller.call call).controller = controller ∧
        ∃ refusal, (controller.call call).result = .error refusal) := by
  cases call with
  | apply now operation =>
      rcases record_cases sound now operation controller.config.defaultAuthor none with
        ⟨checked, grown, answer⟩ | ⟨same, refusal, -, answer⟩
      · exact .inl ⟨now, operation, controller.config.defaultAuthor, none, by simp, checked, grown,
          answer⟩
      · exact .inr ⟨same, refusal, answer⟩
  | submit now operation author =>
      rcases record_cases sound now operation author none with
        ⟨checked, grown, answer⟩ | ⟨same, refusal, -, answer⟩
      · exact .inl ⟨now, operation, author, none, by simp, checked, grown, answer⟩
      · exact .inr ⟨same, refusal, answer⟩
  | compensate now sequence author =>
      rw [call, compensate]
      cases undoing : controller.compensationFor sequence with
      | error refusal => exact .inr ⟨rfl, refusal, rfl⟩
      | ok inverse =>
          rcases record_cases sound now inverse author (some sequence) with
            ⟨checked, grown, answer⟩ | ⟨same, refusal, -, answer⟩
          · refine .inl ⟨now, inverse, author, some sequence, ?_, checked, grown, answer⟩
            intro target is
            cases is
            exact undoing
          · exact .inr ⟨same, refusal, answer⟩

/-! ## Every call -/

theorem Grown.sound (grown : Grown config controller) : controller.store.Sound := by
  induction grown with
  | new => exact Store.sound_empty
  | @grow controller now operation author compensates grown undoing checked ih =>
      exact ih.perform operation.steps

theorem Grown.call (grown : Grown config controller) (call : Call) :
    Grown config (controller.call call).controller := by
  rcases call_cases grown.sound call with
    ⟨now, operation, author, compensates, undoing, checked, is, -⟩ | ⟨same, -⟩
  · rw [is]
    exact .grow now author grown undoing checked
  · rwa [same]

theorem Grown.run (grown : Grown config controller) (calls : List Call) :
    Grown config (controller.run calls) := by
  induction calls generalizing controller with
  | nil => exact grown
  | cons call calls ih => exact ih (grown.call call)

theorem grown_run (config : Config) (calls : List Call) :
    Grown config ((Controller.new config).run calls) :=
  Grown.new.run calls

theorem Grown.config_eq (grown : Grown config controller) : controller.config = config := by
  induction grown with
  | new => rfl
  | grow now author grown undoing checked ih => exact ih

/-- **An operation that a graph accepts is committed to its last step, whatever changes made that
graph; and a call that is refused leaves the controller as it was.** -/
theorem atomic :
    (∀ (changes : List Change) (order : EdgeOrder) (operation : Operation),
        operation.validate order (Store.empty.run changes) = .ok () →
          (operation.commit (Store.empty.run changes)).1 = .ok ()) ∧
      ∀ (config : Config) (calls : List Call) (call : Call) (refusal : Refusal),
        (((Controller.new config).run calls).call call).result = .error refusal →
          (((Controller.new config).run calls).call call).controller =
            (Controller.new config).run calls := by
  constructor
  · intro changes order operation valid
    obtain ⟨final, done⟩ := Operation.commit_of_validate (Store.sound_run changes) valid
    rw [done]
  · intro config calls call refusal refused
    rcases call_cases (grown_run config calls).sound call with
      ⟨now, operation, author, compensates, -, -, -, answer⟩ | ⟨same, -⟩
    · rw [answer] at refused
      cases refused
    · exact same

/-- A root, and a method with the same edge to it three times over. -/
def tripledEdge : List Change :=
  [.commit (.root ⟨.ofNat 1, "demo", "demo", ""⟩),
   .commit (.newElement (.method ⟨.ofNat 2, "run"⟩) none
     (.ofDestinations .typeOf [.ofNat 1, .ofNat 1, .ofNat 1]))]

/-- Two of three equal edges go by their stamps, whichever stands first; and of two edges, the second
to nowhere, neither is added. -/
theorem atomic_tripledEdge :
    ((Operation.removeEdge (.ofNat 2) (.ofDestinations .typeOf [.ofNat 1, .ofNat 1])
        [⟨2⟩, ⟨0⟩]).commit (Store.empty.run tripledEdge)).1 = .ok () ∧
      (((Controller.new .default).run
        [.apply .epoch (.root ⟨.ofNat 1, "demo", "demo", ""⟩)]).call
          (.submit .epoch (.newEdge (.ofNat 1) (.ofDestinations .typeOf [.ofNat 1, .ofNat 9]))
            "someone")).controller =
        (Controller.new .default).run [.apply .epoch (.root ⟨.ofNat 1, "demo", "demo", ""⟩)] := by
  constructor
  · exact atomic.1 tripledEdge .listed _ rfl
  · exact atomic.2 .default _ _ (.unknownEdgeDestination (.ofNat 9)) rfl

end Controller

end LanguageGraph
