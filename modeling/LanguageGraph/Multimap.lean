/-
# Multimap — an ordered multimap

A `Multimap` holds one list of values for each of some keys. Keys stand in the order of their first
use, no key twice; values under one key keep their order, repetitions included. A key may hold the
empty list, but an update that leaves nothing under a key drops the key.

Everything that changes a multimap is `update`, and `get_update` says what it does: the list under the
key is replaced by its image, and every other list stays.
-/

namespace LanguageGraph

set_option autoImplicit false

/-- Lists of values under distinct keys. -/
structure Multimap (κ α : Type) where
  groups : List (κ × List α)
  nodup : (groups.map Prod.fst).Nodup
deriving DecidableEq

namespace Multimap

variable {κ α : Type}

def empty : Multimap κ α :=
  ⟨[], List.nodup_nil⟩

/-- Whether there is no key, not even one with an empty list. -/
def isEmpty (map : Multimap κ α) : Bool :=
  map.groups.isEmpty

/-- All keys with their values, grouped by key in the order of first use. -/
def pairs (map : Multimap κ α) : List (κ × α) :=
  map.groups.flatMap fun group => group.2.map fun value => (group.1, value)

/-- How many values there are under all keys. -/
def size (map : Multimap κ α) : Nat :=
  map.pairs.length

variable [DecidableEq κ]

def getIn (key : κ) : List (κ × List α) → List α
  | [] => []
  | (other, values) :: groups => if other = key then values else getIn key groups

/-- Replace the values under a key of a list of groups by their image, and drop the key when that is
empty. -/
def updateIn (key : κ) (change : List α → List α) : List (κ × List α) → List (κ × List α)
  | [] => match change [] with
      | [] => []
      | values => [(key, values)]
  | (other, values) :: groups =>
      if other = key then
        match change values with
        | [] => groups
        | values => (other, values) :: groups
      else (other, values) :: updateIn key change groups

theorem mem_updateIn_keys {key other : κ} {change : List α → List α} {groups : List (κ × List α)}
    (member : other ∈ (updateIn key change groups).map Prod.fst) :
    other = key ∨ other ∈ groups.map Prod.fst := by
  induction groups with
  | nil =>
      simp only [updateIn] at member
      split at member <;> simp_all
  | cons group groups ih =>
      obtain ⟨first, values⟩ := group
      simp only [updateIn] at member
      split at member
      · split at member <;> simp_all
      · simp only [List.map_cons, List.mem_cons] at member ⊢
        rcases member with same | member
        · exact .inr (.inl same)
        · exact (ih member).imp id .inr

theorem nodup_updateIn (key : κ) (change : List α → List α) {groups : List (κ × List α)}
    (nodup : (groups.map Prod.fst).Nodup) :
    ((updateIn key change groups).map Prod.fst).Nodup := by
  induction groups with
  | nil =>
      simp only [updateIn]
      split <;> simp
  | cons group groups ih =>
      obtain ⟨first, values⟩ := group
      simp only [List.map_cons, List.nodup_cons] at nodup
      simp only [updateIn]
      split
      · split
        · exact nodup.2
        · simpa using nodup
      · rename_i other
        simp only [List.map_cons, List.nodup_cons]
        refine ⟨fun member => ?_, ih nodup.2⟩
        rcases mem_updateIn_keys member with same | member
        · exact other same
        · exact nodup.1 member

/-- Put values under a key of a list of groups, in its place or at the end. -/
def setIn (key : κ) (values : List α) : List (κ × List α) → List (κ × List α)
  | [] => [(key, values)]
  | (other, old) :: groups =>
      if other = key then (other, values) :: groups else (other, old) :: setIn key values groups

theorem mem_setIn_keys {key other : κ} {values : List α} {groups : List (κ × List α)}
    (member : other ∈ (setIn key values groups).map Prod.fst) :
    other = key ∨ other ∈ groups.map Prod.fst := by
  induction groups with
  | nil => simp_all [setIn]
  | cons group groups ih =>
      obtain ⟨first, old⟩ := group
      simp only [setIn] at member
      split at member
      · simp_all
      · simp only [List.map_cons, List.mem_cons] at member ⊢
        rcases member with same | member
        · exact .inr (.inl same)
        · exact (ih member).imp id .inr

theorem nodup_setIn (key : κ) (values : List α) {groups : List (κ × List α)}
    (nodup : (groups.map Prod.fst).Nodup) : ((setIn key values groups).map Prod.fst).Nodup := by
  induction groups with
  | nil => simp [setIn]
  | cons group groups ih =>
      obtain ⟨first, old⟩ := group
      simp only [List.map_cons, List.nodup_cons] at nodup
      simp only [setIn]
      split
      · simpa using nodup
      · rename_i other
        simp only [List.map_cons, List.nodup_cons]
        refine ⟨fun member => ?_, ih nodup.2⟩
        rcases mem_setIn_keys member with same | member
        · exact other same
        · exact nodup.1 member

/-- The values under a key, none for a key that is not there. -/
def get (map : Multimap κ α) (key : κ) : List α :=
  getIn key map.groups

/-- Replace the values under a key by their image. A key that is not there holds the empty list, and
a key that is left with it is dropped. -/
def update (map : Multimap κ α) (key : κ) (change : List α → List α) : Multimap κ α :=
  ⟨updateIn key change map.groups, nodup_updateIn key change map.nodup⟩

/-- Put values under a key, which stays even with the empty list. -/
def set (map : Multimap κ α) (key : κ) (values : List α) : Multimap κ α :=
  ⟨setIn key values map.groups, nodup_setIn key values map.nodup⟩

def push (map : Multimap κ α) (key : κ) (value : α) : Multimap κ α :=
  map.update key fun values => values ++ [value]

def erase (map : Multimap κ α) (key : κ) : Multimap κ α :=
  map.update key fun _ => []

/-- Remove the value at a position under a key; a position past the end changes nothing. -/
def removeAt (map : Multimap κ α) (key : κ) (index : Nat) : Multimap κ α :=
  if index < (map.get key).length then map.update key fun values => values.eraseIdx index else map

def ofPairs (pairs : List (κ × α)) : Multimap κ α :=
  pairs.foldl (fun map pair => map.push pair.1 pair.2) empty

def contains [DecidableEq α] (map : Multimap κ α) (key : κ) (value : α) : Bool :=
  decide (value ∈ map.get key)

@[simp] theorem get_empty (key : κ) : (empty : Multimap κ α).get key = [] := rfl

theorem getIn_of_not_mem {key : κ} {groups : List (κ × List α)}
    (absent : key ∉ groups.map Prod.fst) : getIn key groups = [] := by
  induction groups with
  | nil => rfl
  | cons group groups ih =>
      simp only [List.map_cons, List.mem_cons, not_or] at absent
      simp only [getIn]
      rw [if_neg (Ne.symm absent.1), ih absent.2]

theorem getIn_updateIn (key other : κ) (change : List α → List α) {groups : List (κ × List α)}
    (nodup : (groups.map Prod.fst).Nodup) :
    getIn other (updateIn key change groups) =
      if other = key then change (getIn key groups) else getIn other groups := by
  induction groups with
  | nil =>
      by_cases same : other = key
      · subst same
        simp only [updateIn, getIn, if_true]
        split
        · rename_i none_left; simp [getIn, none_left]
        · simp [getIn]
      · simp only [updateIn, getIn, same, if_false]
        split
        · rfl
        · simp [getIn, Ne.symm same]
  | cons group groups ih =>
      obtain ⟨first, values⟩ := group
      simp only [List.map_cons, List.nodup_cons] at nodup
      by_cases here : first = key
      · subst here
        simp only [updateIn, getIn, if_true]
        split
        · rename_i none_left
          by_cases same : other = first
          · subst same; simp [none_left, getIn_of_not_mem nodup.1]
          · simp [same, Ne.symm same]
        · by_cases same : other = first
          · subst same; simp [getIn]
          · simp [getIn, same, Ne.symm same]
      · simp only [updateIn, getIn, here, if_false]
        rw [ih nodup.2]
        by_cases there : first = other
        · subst there; simp [here]
        · simp [there]

/-- An update replaces one list by its image and leaves the others. -/
theorem get_update (map : Multimap κ α) (key other : κ) (change : List α → List α) :
    (map.update key change).get other =
      if other = key then change (map.get key) else map.get other :=
  getIn_updateIn key other change map.nodup

@[simp] theorem get_push (map : Multimap κ α) (key other : κ) (value : α) :
    (map.push key value).get other =
      if other = key then map.get key ++ [value] else map.get other :=
  get_update map key other _

@[simp] theorem get_erase (map : Multimap κ α) (key other : κ) :
    (map.erase key).get other = if other = key then [] else map.get other :=
  get_update map key other _

@[simp] theorem get_removeAt (map : Multimap κ α) (key other : κ) (index : Nat) :
    (map.removeAt key index).get other =
      if other = key then (map.get key).eraseIdx index else map.get other := by
  unfold removeAt
  split
  · exact get_update map key other _
  · rename_i past
    by_cases same : other = key
    · subst same; simp [List.eraseIdx_of_length_le (Nat.le_of_not_lt past)]
    · simp [same]

end Multimap

end LanguageGraph
