/-
# Controller.Event — what a controller reports as it works

Calls report events beside their answer. `Event.line` gives the level and the wording of each.
-/
import LanguageGraph.Operation.Basic
import LanguageGraph.Refusal

namespace LanguageGraph

set_option autoImplicit false

/-- Something worth reporting. -/
inductive Event where
  /-- An operation did not pass its checks. -/
  | rejected (operation : Operation) (refusal : Refusal)
  /-- An element was created without a container. -/
  | orphanCreated (sequence : Nat) (id : ElementId)
  /-- A graph got its root. -/
  | rootIntroduced (project : Project)
  /-- An operation was applied. -/
  | applied (sequence : Nat) (operation : Operation) (author : String)
  /-- A history was replayed to its end. -/
  | replayed (operations : Nat)

/-- How much an event matters. -/
inductive Level where
  | debug
  | info
  | warn

def Level.name : Level → String
  | debug => "DEBUG"
  | info => "INFO"
  | warn => "WARN"

namespace Event

def level : Event → Level
  | rejected _ _ => .warn
  | orphanCreated _ _ => .warn
  | rootIntroduced _ => .info
  | applied _ _ _ => .debug
  | replayed _ => .info

def message : Event → String
  | rejected operation refusal => s!"Rejected {operation.display}: {refusal.message}"
  | orphanCreated sequence id =>
      s!"Operation {Text.decimal sequence} created orphaned element {id.text}"
  | rootIntroduced project =>
      s!"Introduced root project {Text.quoted project.name} ({project.id.text})"
  | applied sequence operation author =>
      s!"Applied operation {Text.decimal sequence}: {operation.display} by {author}"
  | replayed operations => s!"Replayed {Text.decimal operations} operations"

/-- Level and wording. -/
def line (event : Event) : String :=
  s!"{event.level.name} {event.message}"

end Event

end LanguageGraph
