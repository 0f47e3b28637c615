/-
# Report — what the program prints

The program loads its settings, builds the standard library and prints what became of it: the
announcements, the size of the graph with the classes of each library, and the history as JSON. A
failure ends the report where it happens (`Report.failure`).
-/
import LanguageGraph.Config.Document
import LanguageGraph.Controller.Codec
import LanguageGraph.Json.Writer
import LanguageGraph.StandardLibrary

namespace LanguageGraph

set_option autoImplicit false

def version : String := "0.1.0"

/-- Why a report ends early. -/
inductive Failure where
  | settings (error : Config.LoadError)
  | refused (refusal : Refusal)

def Failure.message : Failure → String
  | settings .notFound => "loading settings: no such file"
  | settings .isADirectory => "loading settings: is a directory"
  | settings .invalidText => "loading settings: not valid UTF-8"
  | settings .malformed => "loading settings: not a document of settings"
  | refused refusal => refusal.message

/-- The lines that the program prints, and what stopped it, if anything did. -/
structure Report where
  lines : List String
  failure : Option Failure

namespace Report

/-- The title, underlined. -/
def title : List String :=
  ["Noop Graph v" ++ version, "==========================================", ""]

/-- One line for each library, with its classes. -/
def libraryLines (store : Store) : List String :=
  match store.rootElement? with
  | none => []
  | some root =>
      (store.childrenOfKind root.id .library).map fun library =>
        let names := (store.childrenOfKind library.id .clazz).map Element.name
        s!"  {library.name}: " ++ ", ".intercalate names

/-- The size of a graph and the classes of its libraries. -/
def statistics (store : Store) : List String :=
  ["", "Graph Statistics:", "  Total elements: " ++ Text.decimal store.size,
    "  Total edges: " ++ Text.decimal store.edgeCount] ++ libraryLines store

def historyLines (entries : List HistoryEntry) : List String :=
  ["", s!"History ({Text.decimal entries.length} operations):"] ++
    (HistoryEntry.listToJson entries).layout.splitOn "\n"

/-- The report on a library built with these settings. -/
def make (settings : Except Config.LoadError Config) (producer : StandardLibrary.Producer) :
    Report :=
  match settings with
  | .error error => ⟨title, some (.settings error)⟩
  | .ok config =>
      let (announcements, result) := StandardLibrary.build producer (Controller.new config)
      let opening := title ++ ["=== Standard Library ==="] ++ announcements
      match result with
      | .error refusal => ⟨opening, some (.refused refusal)⟩
      | .ok controller =>
          ⟨opening ++ statistics controller.store ++ historyLines controller.history, none⟩

end Report

end LanguageGraph
