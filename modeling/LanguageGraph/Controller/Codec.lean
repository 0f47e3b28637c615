/-
# Controller.Codec — histories as JSON

An entry is a record; the stamps of added edges are written only where there are some. A history is an
array of entries. A value is decoded as it is (`ofJson?`, `listOfJson?`); a text has a limit to how deep
an operation in it may nest (`ofText?`, `listOfText?`).
-/
import LanguageGraph.Controller.History
import LanguageGraph.Operation.Codec

namespace LanguageGraph

set_option autoImplicit false

namespace Warning

/-- A warning is an object that has its name as the one field. -/
def toJson : Warning → Json
  | orphanedElement id => .object [("OrphanedElement", id.toJson)]

def ofJson? : Json → Option Warning
  | .object [("OrphanedElement", value)] => (ElementId.ofJson? value).map orphanedElement
  | _ => none

end Warning

namespace HistoryEntry

def toJson (entry : HistoryEntry) : Json :=
  .object <|
    [("sequence", .nat entry.sequence), ("operation", entry.operation.toJson),
     ("author", .string entry.author), ("applied_at", entry.appliedAt.toJson),
     ("warnings", .list Warning.toJson entry.warnings),
     ("compensates", .nullable Json.nat entry.compensates)] ++
    Operation.listField "edge_stamps" EdgeStamp.toJson entry.edgeStamps

def fieldNames : List String :=
  ["sequence", "operation", "author", "applied_at", "warnings", "compensates", "edge_stamps"]

def ofJson? (value : Json) : Option HistoryEntry := do
  let record ← value.record? fieldNames false
  return {
    sequence := ← record.required? "sequence" Json.nat?
    operation := ← record.required? "operation" Operation.ofJson?
    author := ← record.required? "author" Json.string?
    appliedAt := ← record.required? "applied_at" Timestamp.ofJson?
    warnings := ← record.required? "warnings" (Json.list? Warning.ofJson?)
    compensates := ← record.nullable? "compensates" Json.nat?
    edgeStamps := ← record.defaulted? "edge_stamps" (Json.list? EdgeStamp.ofJson?) [] }

/-- Decode an entry that stands `level` deep in a text. The text of its operation is kept until the tag
is known, so all of that must be readable, and its arrays and objects must not nest too deep in the
text; what stands in other fields is passed over at any depth. -/
def ofJsonAt? (level : Nat) (value : Json) : Option HistoryEntry := do
  let record ← value.record? fieldNames false
  let operation ← record.fields.lookup "operation"
  if operation.fits (Json.nestingLimit - 1 - level) then ofJson? value else none

def ofText? (text : String) : Option HistoryEntry :=
  (Json.ofText? text).bind (ofJsonAt? 0)

def listOfJson? (value : Json) : Option (List HistoryEntry) :=
  value.list? ofJson?

/-- Decode a history from a text, in which every entry stands inside the array. -/
def listOfText? (text : String) : Option (List HistoryEntry) :=
  (Json.ofText? text).bind (Json.list? (ofJsonAt? 1))

def listToJson (entries : List HistoryEntry) : Json :=
  .list toJson entries

end HistoryEntry

end LanguageGraph
