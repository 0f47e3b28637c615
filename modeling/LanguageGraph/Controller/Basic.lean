/-
# Controller.Basic — the gate through which a graph changes

A controller owns a store and the history of the operations that made it. A call checks an operation,
commits it and appends it to the history (`Controller.record`); a refused call leaves no trace. Undoing
is one more operation at the end of the history, never a change of what stands there: only additions
can be undone, each at most once, and the addition of an element no longer once a later entry has
introduced the same element again (`Controller.compensationFor`).

What a call finds out for itself comes with its `Occasion`: the time, and the order in which the edges
that it counts come up. Room for the history is taken to be there, so how much of it the settings ask
for beforehand (`Config.historyCapacity`) makes no difference here.
-/
import LanguageGraph.Config.Basic
import LanguageGraph.Controller.Event
import LanguageGraph.Controller.History
import LanguageGraph.Operation.Commit
import LanguageGraph.Operation.Validation

namespace LanguageGraph

set_option autoImplicit false

/-- When a call is made, and how it comes across the edges that it counts. -/
structure Occasion where
  time : Timestamp
  order : EdgeOrder

/-- The beginning of 1970, with edges coming up as they are listed. -/
def Occasion.epoch : Occasion :=
  ⟨.epoch, .listed⟩

/-- A graph, its history and the settings that govern both. -/
structure Controller where
  store : Store
  history : List HistoryEntry
  config : Config

/-- What a call answers, the controller it leaves, and the events it reports, in order. -/
structure Outcome where
  result : Except Refusal Applied
  controller : Controller
  events : List Event

namespace Controller

def new (config : Config) : Controller :=
  ⟨.empty, [], config⟩

/-- The number of the latest entry, zero when there is none. -/
def lastSequence (controller : Controller) : Nat :=
  controller.history.length

/-- All that an operation must meet before it is committed. -/
def check (controller : Controller) (order : EdgeOrder) (operation : Operation) :
    Except Refusal Unit :=
  match operation.validate order controller.store with
  | .error refusal => .error refusal
  | .ok () =>
      match operation.orphan? with
      | some id => if controller.config.rejectOrphans then .error (.orphanedElement id) else .ok ()
      | none => .ok ()

def warningsOf (operation : Operation) : List Warning :=
  match operation.orphan? with
  | some id => [.orphanedElement id]
  | none => []

def eventsOf (sequence : Nat) (operation : Operation) (author : String) : List Event :=
  (match operation.orphan? with
    | some id => [.orphanCreated sequence id]
    | none => []) ++
  (match operation with
    | .root project => [.rootIntroduced project]
    | _ => []) ++
  [.applied sequence operation author]

/-- Check an operation, commit it and append its entry. -/
def record (controller : Controller) (now : Occasion) (operation : Operation) (author : String)
    (compensates : Option Nat) : Outcome :=
  match controller.check now.order operation with
  | .error refusal => ⟨.error refusal, controller, [.rejected operation refusal]⟩
  | .ok () =>
      match operation.commit controller.store with
      | (.error refusal, store) => ⟨.error refusal, { controller with store := store }, []⟩
      | (.ok (), store) =>
          let sequence := controller.history.length + 1
          let entry : HistoryEntry :=
            { sequence := sequence
              operation := operation
              author := author
              warnings := warningsOf operation
              compensates := compensates
              edgeStamps := EdgeStamp.between controller.store.nextStamp store.nextStamp
              appliedAt := now.time }
          ⟨.ok ⟨sequence, entry.warnings⟩,
            { controller with store := store, history := controller.history ++ [entry] },
            eventsOf sequence operation author⟩

/-- Apply an operation in the name of the default author. -/
def apply (controller : Controller) (now : Occasion) (operation : Operation) : Outcome :=
  controller.record now operation controller.config.defaultAuthor none

def submit (controller : Controller) (now : Occasion) (operation : Operation) (author : String) :
    Outcome :=
  controller.record now operation author none

def entryAt? (controller : Controller) (sequence : Nat) : Option HistoryEntry :=
  if sequence = 0 then none else controller.history[sequence - 1]?

/-- The operation that undoes an entry, when it may still be undone. -/
def compensationFor (controller : Controller) (sequence : Nat) : Except Refusal Operation :=
  match controller.entryAt? sequence with
  | none => .error (.unknownSequence sequence)
  | some entry =>
      if controller.history.any fun other => other.compensates = some sequence then
        .error (.alreadyCompensated sequence)
      else
        let later? := entry.operation.introduced?.bind fun id =>
          (controller.history.drop sequence).find? fun other =>
            other.operation.introduced? = some id
        match later? with
        | some later => .error (.superseded sequence later.sequence)
        | none =>
            match entry.inverse? with
            | some inverse => .ok inverse
            | none => .error (.notCompensable sequence)

def compensate (controller : Controller) (now : Occasion) (sequence : Nat) (author : String) :
    Outcome :=
  match controller.compensationFor sequence with
  | .error refusal => ⟨.error refusal, controller, []⟩
  | .ok inverse => controller.record now inverse author (some sequence)

end Controller

end LanguageGraph
