/-
# Controller.Replay — a controller from a recorded history

Replaying applies the operations of a history again, from the empty graph. Of an entry it takes the
operation, the author and the number of the entry it undoes; numbers, stamps, warnings and times come
about anew. An entry that claims to undo another one must be exactly the undoing that the controller
itself would perform at that point.
-/
import LanguageGraph.Controller.Basic

namespace LanguageGraph

set_option autoImplicit false

namespace Controller

def replayEntry (controller : Controller) (now : Occasion) (entry : HistoryEntry) : Outcome :=
  match entry.compensates with
  | none => controller.record now entry.operation entry.author none
  | some target =>
      match controller.compensationFor target with
      | .error refusal => ⟨.error refusal, controller, []⟩
      | .ok inverse =>
          if inverse = entry.operation then
            controller.record now entry.operation entry.author (some target)
          else ⟨.error (.compensationMismatch target), controller, []⟩

/-- Apply recorded entries again, up to the first that is refused. The clock tells on which occasion the
entry with a number is recorded. -/
def replayFrom (clock : Nat → Occasion) (controller : Controller) :
    List HistoryEntry → Except Refusal Controller × List Event
  | [] => (.ok controller, [.replayed controller.history.length])
  | entry :: entries =>
      let outcome := controller.replayEntry (clock (controller.history.length + 1)) entry
      match outcome.result with
      | .error refusal => (.error refusal, outcome.events)
      | .ok _ =>
          let (result, events) := replayFrom clock outcome.controller entries
          (result, outcome.events ++ events)

/-- The controller that recorded entries lead to. -/
def replay (clock : Nat → Occasion) (entries : List HistoryEntry) (config : Config) :
    Except Refusal Controller × List Event :=
  replayFrom clock (new config) entries

end Controller

end LanguageGraph
