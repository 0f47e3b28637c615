/-
# Controller.Request — what clients ask of a shared controller

Several clients may share one controller. Each request is served whole, one after the other, so what a
client reads is always a state between two operations; and what it is given is a copy, which later
requests do not touch.
-/
import LanguageGraph.Controller.Basic

namespace LanguageGraph

set_option autoImplicit false

/-- What a client asks. -/
inductive Request where
  | apply (operation : Operation)
  | submit (operation : Operation) (author : String)
  | compensate (sequence : Nat) (author : String)
  | element (id : ElementId)
  | edges (id : ElementId) (edgeType : EdgeType)
  | history
  | snapshot

/-- What a client is answered. -/
inductive Response where
  | outcome (result : Except Refusal Applied)
  | element (element : Option Element)
  | edges (destinations : List ElementId)
  | history (entries : List HistoryEntry)
  | snapshot (store : Store)

namespace Controller

/-- The answer to a change that a client asked for, with what follows from it. -/
def answered (outcome : Outcome) : Response × Controller × List Event :=
  (.outcome outcome.result, outcome.controller, outcome.events)

def serve (controller : Controller) (now : Occasion) :
    Request → Response × Controller × List Event
  | .apply operation => answered (controller.apply now operation)
  | .submit operation author => answered (controller.submit now operation author)
  | .compensate sequence author => answered (controller.compensate now sequence author)
  | .element id => (.element (controller.store.get? id), controller, [])
  | .edges id edgeType => (.edges (controller.store.edges id edgeType), controller, [])
  | .history => (.history controller.history, controller, [])
  | .snapshot => (.snapshot controller.store, controller, [])

end Controller

end LanguageGraph
