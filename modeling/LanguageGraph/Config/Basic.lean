/-
# Config.Basic — settings of a controller

Three settings, each with a default.
-/

namespace LanguageGraph

set_option autoImplicit false

/-- Settings of a controller. -/
structure Config where
  /-- Who is recorded for operations that name no author. -/
  defaultAuthor : String := "noop"
  /-- Refuse an element without a container, instead of warning. -/
  rejectOrphans : Bool := false
  /-- For how many entries the history should be laid out at first. -/
  historyCapacity : Nat := 256
deriving DecidableEq

namespace Config

/-- The settings that hold where nothing else is said. -/
def default : Config := {}

end Config

end LanguageGraph
