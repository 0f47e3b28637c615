/-
# Element.Kind — the kinds of elements and what may hold what

The containment order is Project, Library, Clazz, Method, Parameter, each kind holding the next one
only, and every kind may hold comments (`ElementKind.canContain_iff`).
-/

namespace LanguageGraph

set_option autoImplicit false

/-- The kind of a language element. -/
inductive ElementKind where
  | project
  | library
  | clazz
  | method
  | parameter
  | comment
deriving DecidableEq

namespace ElementKind

/-- Every kind, in the order of containment, comments last. -/
def all : List ElementKind :=
  [project, library, clazz, method, parameter, comment]

theorem mem_all (kind : ElementKind) : kind ∈ all := by
  cases kind <;> simp [all]

def name : ElementKind → String
  | project => "Project"
  | library => "Library"
  | clazz => "Clazz"
  | method => "Method"
  | parameter => "Parameter"
  | comment => "Comment"

def ofName? (text : String) : Option ElementKind :=
  all.find? fun kind => kind.name == text

theorem ofName?_name (kind : ElementKind) : ofName? kind.name = some kind := by
  cases kind <;> rfl

/-- Whether an element of the first kind may be the container of an element of the second. -/
def canContain : ElementKind → ElementKind → Bool
  | _, comment => true
  | project, library => true
  | library, clazz => true
  | clazz, method => true
  | method, parameter => true
  | _, _ => false

theorem canContain_iff (container child : ElementKind) :
    container.canContain child = true ↔
      child = comment ∨ (container, child) ∈
        [(project, library), (library, clazz), (clazz, method), (method, parameter)] := by
  cases container <;> cases child <;> simp [canContain]

end ElementKind

end LanguageGraph
