/-
# Edge.Type — kinds of relations

The set of relations between elements is closed. The one relation so far says that the source has the
destination as its type: a method's return type, a parameter's declared type.
-/

namespace LanguageGraph

set_option autoImplicit false

/-- The kind of a directed relation between two elements. -/
inductive EdgeType where
  | typeOf
deriving DecidableEq

namespace EdgeType

def all : List EdgeType :=
  [typeOf]

theorem mem_all (edgeType : EdgeType) : edgeType ∈ all := by
  cases edgeType; simp [all]

def name : EdgeType → String
  | typeOf => "TYPEOF"

/-- The edge type with exactly this name. -/
def ofName? (text : String) : Option EdgeType :=
  all.find? fun edgeType => edgeType.name == text

theorem ofName?_name (edgeType : EdgeType) : ofName? edgeType.name = some edgeType := by
  cases edgeType; rfl

end EdgeType

end LanguageGraph
