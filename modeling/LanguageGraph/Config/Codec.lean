/-
# Config.Codec — settings as JSON

Settings are a closed record in which every field has a default.
-/
import LanguageGraph.Config.Basic
import LanguageGraph.Json.Reader
import LanguageGraph.Json.Record

namespace LanguageGraph

set_option autoImplicit false

namespace Config

def toJson (config : Config) : Json :=
  .object [("default_author", .string config.defaultAuthor),
    ("reject_orphans", .bool config.rejectOrphans),
    ("history_capacity", .nat config.historyCapacity)]

def ofJson? (value : Json) : Option Config := do
  let record ← value.record? ["default_author", "reject_orphans", "history_capacity"] true
  return {
    defaultAuthor := ← record.defaulted? "default_author" Json.string? default.defaultAuthor
    rejectOrphans := ← record.defaulted? "reject_orphans" Json.bool? default.rejectOrphans
    historyCapacity := ← record.defaulted? "history_capacity" Json.nat? default.historyCapacity }

def ofJsonText? (text : String) : Option Config :=
  (Json.ofText? text).bind ofJson?

end Config

end LanguageGraph
