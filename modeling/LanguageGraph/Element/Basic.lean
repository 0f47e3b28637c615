/-
# Element.Basic — language elements

The vertices of the graph. Each kind carries its own attributes only; what an element holds or refers
to is a matter of the store. A comment goes by its text, every other element by its name
(`Element.name`).
-/
import LanguageGraph.Element.Id
import LanguageGraph.Element.Kind
import LanguageGraph.Text.Quoted
import LanguageGraph.Time.Timestamp

namespace LanguageGraph

set_option autoImplicit false

/-- The root of a program. -/
structure Project where
  id : ElementId
  name : String
  namespaceName : String
  copyright : String
deriving DecidableEq

/-- A named declaration: a library, a class, a method or a parameter. Names may be symbolic. -/
structure Declaration where
  id : ElementId
  name : String
deriving DecidableEq

/-- A free-form note on another element. -/
structure Comment where
  id : ElementId
  text : String
  author : String
  createdAt : Timestamp
deriving DecidableEq

/-- A vertex of the graph. -/
inductive Element where
  | project (project : Project)
  | library (declaration : Declaration)
  | clazz (declaration : Declaration)
  | method (declaration : Declaration)
  | parameter (declaration : Declaration)
  | comment (comment : Comment)
deriving DecidableEq

namespace Element

def id : Element → ElementId
  | project p => p.id
  | library d => d.id
  | clazz d => d.id
  | method d => d.id
  | parameter d => d.id
  | comment c => c.id

def kind : Element → ElementKind
  | project _ => .project
  | library _ => .library
  | clazz _ => .clazz
  | method _ => .method
  | parameter _ => .parameter
  | comment _ => .comment

def name : Element → String
  | project p => p.name
  | library d => d.name
  | clazz d => d.name
  | method d => d.name
  | parameter d => d.name
  | comment c => c.text

/-- Whether an element is of the kind that stands at the root. -/
def isRoot (element : Element) : Bool :=
  element.kind == .project

/-- Kind, quoted name and identity. -/
def display (element : Element) : String :=
  s!"{element.kind.name} {Text.quoted element.name} ({element.id.text})"

end Element

end LanguageGraph
