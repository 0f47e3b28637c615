/-
# StandardLibrary — a first program in the graph

The standard library is built like every other program, by operations that a controller accepts one
after the other: a project with the libraries `lang` and `io`, their classes, and the methods of
`Console` and `Integer`. It comes in three chapters, each announced by a line when it is done.
-/
import LanguageGraph.Controller.Basic

namespace LanguageGraph.StandardLibrary

set_option autoImplicit false

/-- What the producer of the library brings along. -/
structure Producer where
  /-- In whose name the operations are submitted. -/
  author : String
  /-- Fresh identities, by number. -/
  freshId : Nat → ElementId
  /-- The occasion on which the entry with a number is recorded. -/
  clock : Nat → Occasion

/-- Operations that belong together, and the line that announces them done. -/
structure Chapter where
  operations : List Operation
  announcement : String

def clazzIn (library id : ElementId) (name : String) : Operation :=
  .newElement (.clazz ⟨id, name⟩) (some library) .empty

def typedIn (container : ElementId) (element : Element) (type : ElementId) : Operation :=
  .newElement element (some container) (EdgeMap.ofDestinations .typeOf [type])

/-- The project, its libraries and their classes. -/
def declarations (producer : Producer) : Chapter :=
  let id := producer.freshId
  { operations := [
      .root ⟨id 0, "Noop", "com.google.noop", "Apache 2"⟩,
      .newElement (.library ⟨id 1, "lang"⟩) (some (id 0)) .empty,
      .newElement (.library ⟨id 2, "io"⟩) (some (id 0)) .empty,
      clazzIn (id 1) (id 3) "String",
      clazzIn (id 1) (id 4) "Void",
      clazzIn (id 1) (id 5) "Boolean",
      clazzIn (id 1) (id 6) "Integer",
      clazzIn (id 2) (id 7) "Console"]
    announcement := "✓ Libraries lang, io with 5 classes" }

def consoleMethods (producer : Producer) : Chapter :=
  let id := producer.freshId
  { operations := [
      typedIn (id 7) (.method ⟨id 8, "print"⟩) (id 4),
      typedIn (id 8) (.parameter ⟨id 9, "s"⟩) (id 3)]
    announcement := "✓ Console.print(s: String): Void" }

/-- The methods of integers. The first gets its type only after it was added. -/
def integerMethods (producer : Producer) : Chapter :=
  let id := producer.freshId
  { operations := [
      .newElement (.method ⟨id 10, "+"⟩) (some (id 6)) .empty,
      .newEdge (id 10) (EdgeMap.ofDestinations .typeOf [id 6]),
      typedIn (id 10) (.parameter ⟨id 11, "i"⟩) (id 6),
      .newElement
        (.comment ⟨id 12,
          "Elements may have symbols in their names. Tools may choose to render this as infix",
          producer.author, (producer.clock 14).time⟩)
        (some (id 6)) .empty,
      typedIn (id 6) (.method ⟨id 13, "=="⟩) (id 5)]
    announcement := "✓ Integer.+(i: Integer): Integer, Integer.==: Boolean" }

/-- The whole library, in the order in which it is built. -/
def chapters (producer : Producer) : List Chapter :=
  [declarations producer, consoleMethods producer, integerMethods producer]

def submitAll (producer : Producer) (controller : Controller) :
    List Operation → Except Refusal Controller
  | [] => .ok controller
  | operation :: operations =>
      let now := producer.clock (controller.lastSequence + 1)
      let outcome := controller.submit now operation producer.author
      match outcome.result with
      | .error refusal => .error refusal
      | .ok _ => submitAll producer outcome.controller operations

/-- Build chapters, and tell the announcements of those that were done. -/
def buildChapters (producer : Producer) (controller : Controller) :
    List Chapter → List String × Except Refusal Controller
  | [] => ([], .ok controller)
  | chapter :: later =>
      match submitAll producer controller chapter.operations with
      | .error refusal => ([], .error refusal)
      | .ok next =>
          let (announcements, result) := buildChapters producer next later
          (chapter.announcement :: announcements, result)

def build (producer : Producer) (controller : Controller) :
    List String × Except Refusal Controller :=
  buildChapters producer controller (chapters producer)

end LanguageGraph.StandardLibrary
