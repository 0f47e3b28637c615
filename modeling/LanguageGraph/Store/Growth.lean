/-
# Store.Growth — adding elements and edges

Each change has a check that names the first violated precondition and changes nothing; the change
itself runs its check first. The first project that enters without a container becomes the root.
-/
import LanguageGraph.Refusal
import LanguageGraph.Store.Basic

namespace LanguageGraph

set_option autoImplicit false

namespace Store

/-- An element may enter when its identity is new and its container, if it names one, is present and
may hold its kind. -/
def checkAdd (store : Store) (element : Element) (container : Option ElementId) :
    Except Refusal Unit :=
  if store.contains element.id then .error (.duplicateElement element.id)
  else
    match container with
    | none => .ok ()
    | some containerId =>
        match store.get? containerId with
        | none => .error (.unknownContainer containerId)
        | some parent =>
            if parent.kind.canContain element.kind then .ok ()
            else .error (.invalidContainment element.kind parent.kind)

def insert (store : Store) (element : Element) (container : Option ElementId) : Store :=
  { store with
    slots := store.slots ++ [Slot.new element container]
    children :=
      match container with
      | some containerId => store.children.push containerId element.id
      | none => store.children
    root :=
      if element.isRoot && container.isNone && store.root.isNone then some element.id
      else store.root }

def add (store : Store) (element : Element) (container : Option ElementId) : Except Refusal Store :=
  match store.checkAdd element container with
  | .error refusal => .error refusal
  | .ok () => .ok (store.insert element container)

/-- An edge needs both its ends. -/
def checkEdge (store : Store) (source destination : ElementId) : Except Refusal Unit :=
  if ¬ store.contains source then .error (.unknownElement source)
  else if ¬ store.contains destination then .error (.unknownElement destination)
  else .ok ()

/-- Append an edge with the next stamp. -/
def link (store : Store) (source : ElementId) (edgeType : EdgeType) (destination : ElementId) :
    Store :=
  { store.modify source fun slot => slot.pushEdge edgeType destination ⟨store.nextStamp⟩ with
    incoming := store.incoming.push destination (source, edgeType)
    nextStamp := store.nextStamp + 1 }

/-- Add an edge between present elements, and tell its stamp. -/
def addEdge (store : Store) (source : ElementId) (edgeType : EdgeType) (destination : ElementId) :
    Except Refusal (EdgeStamp × Store) :=
  match store.checkEdge source destination with
  | .error refusal => .error refusal
  | .ok () => .ok (⟨store.nextStamp⟩, store.link source edgeType destination)

end Store

end LanguageGraph
