/-
# Controller.History — what the history records

Every applied operation becomes an entry with its number, its author, the time, the warnings it raised
and the stamps of the edges it added. An entry that undoes another one names it.
-/
import LanguageGraph.Operation.Basic

namespace LanguageGraph

set_option autoImplicit false

/-- A condition that does not stop an operation but should be known. -/
inductive Warning where
  /-- An element other than the root was created without a container. -/
  | orphanedElement (id : ElementId)
deriving DecidableEq

def Warning.message : Warning → String
  | orphanedElement id => s!"element {id.text} has no container"

/-- One applied operation, all but the time at which it was applied. -/
structure EntryRecord where
  /-- The position in the history, counted from one. -/
  sequence : Nat
  operation : Operation
  author : String
  warnings : List Warning
  /-- The number of the entry that this one undoes. -/
  compensates : Option Nat
  /-- The stamps of the edges that the operation added, in the order in which it lists them. -/
  edgeStamps : List EdgeStamp
deriving DecidableEq

/-- One applied operation. -/
structure HistoryEntry extends EntryRecord where
  appliedAt : Timestamp
deriving DecidableEq

/-- The operation that undoes an entry. -/
def HistoryEntry.inverse? (entry : HistoryEntry) : Option Operation :=
  entry.operation.inverse? entry.edgeStamps

/-- What a caller learns of an applied operation. -/
structure Applied where
  sequence : Nat
  warnings : List Warning
deriving DecidableEq

/-- Whether an operation was applied without a warning. -/
def Applied.isClean (applied : Applied) : Bool :=
  applied.warnings.isEmpty

end LanguageGraph
