/-
# Proofs.Multimap — multimaps by what they hold

A multimap is known by `get`: how often a pair stands in it is how often the value stands under the key
(`count_pairs`), and where there is one key at most, two multimaps that hold no empty list are equal as
soon as they hold the same (`eq_of_get`).

No update leaves an empty list behind (`Tight.update`), so a multimap that starts without one stays
without. That is why taking every added value out again gives the same multimap back.

Updates that put nothing under a key that is not there only shrink a multimap or leave its keys in place,
and then it does not matter in which order they are made (`update_comm`).
-/
import LanguageGraph.Multimap

namespace LanguageGraph.Multimap

set_option autoImplicit false

variable {κ α : Type}

/-- No key holds the empty list. -/
def Tight (map : Multimap κ α) : Prop :=
  ∀ group ∈ map.groups, group.2 ≠ []

theorem tight_empty : (empty : Multimap κ α).Tight := by
  intro group member
  simp [empty] at member

theorem eq_of_groups {first second : Multimap κ α} (same : first.groups = second.groups) :
    first = second := by
  cases first
  cases second
  simp_all

section Keys

variable [DecidableEq κ]

theorem tight_updateIn (key : κ) (change : List α → List α) {groups : List (κ × List α)}
    (tight : ∀ group ∈ groups, group.2 ≠ []) :
    ∀ group ∈ updateIn key change groups, group.2 ≠ [] := by
  induction groups with
  | nil =>
      simp only [updateIn]
      split
      · simp
      · rename_i values some_left
        simpa using some_left
  | cons group groups ih =>
      obtain ⟨first, values⟩ := group
      simp only [List.forall_mem_cons] at tight
      simp only [updateIn]
      split
      · split
        · exact tight.2
        · rename_i some_left
          simp only [List.forall_mem_cons]
          exact ⟨some_left, tight.2⟩
      · simp only [List.forall_mem_cons]
        exact ⟨tight.1, ih tight.2⟩

theorem Tight.update {map : Multimap κ α} (tight : map.Tight) (key : κ)
    (change : List α → List α) : (map.update key change).Tight :=
  tight_updateIn key change tight

theorem Tight.removeAt {map : Multimap κ α} (tight : map.Tight) (key : κ) (index : Nat) :
    (map.removeAt key index).Tight := by
  unfold Multimap.removeAt
  split
  · exact tight.update key _
  · exact tight

/-- A key that was not there is put at the end. -/
theorem setIn_of_not_mem {key : κ} {values : List α} {groups : List (κ × List α)}
    (absent : key ∉ groups.map Prod.fst) : setIn key values groups = groups ++ [(key, values)] := by
  induction groups with
  | nil => rfl
  | cons group groups ih =>
      simp only [List.map_cons, List.mem_cons, not_or] at absent
      rw [setIn, if_neg (Ne.symm absent.1), ih absent.2, List.cons_append]

theorem count_pair_map [DecidableEq α] (key other : κ) (value : α) (values : List α) :
    (values.map fun value => (other, value)).count (key, value) =
      if other = key then values.count value else 0 := by
  induction values with
  | nil => simp
  | cons head values ih =>
      simp only [List.map_cons, List.count_cons, ih, beq_iff_eq, Prod.mk.injEq]
      by_cases same : other = key <;> simp [same]

/-- A pair stands in a multimap as often as its value stands under its key. -/
theorem count_pairs [DecidableEq α] (map : Multimap κ α) (key : κ) (value : α) :
    map.pairs.count (key, value) = (map.get key).count value := by
  obtain ⟨groups, nodup⟩ := map
  induction groups with
  | nil => rfl
  | cons group groups ih =>
      simp only [List.map_cons, List.nodup_cons] at nodup
      have later := ih nodup.2
      simp only [pairs, get] at later ⊢
      rw [List.flatMap_cons, List.count_append, count_pair_map, later, getIn]
      by_cases same : group.1 = key
      · subst same
        simp [getIn_of_not_mem nodup.1]
      · simp [same]

/-- Where there is but one key, there is one group, or none when the key holds nothing. -/
theorem groups_of_only_key {map : Multimap κ α} (tight : map.Tight) {key : κ}
    (only : ∀ other : κ, other = key) :
    map.groups = if map.get key = [] then [] else [(key, map.get key)] := by
  obtain ⟨groups, nodup⟩ := map
  match groups, nodup with
  | [], _ => rfl
  | [(other, values)], _ =>
      obtain rfl := only other
      have some_there : values ≠ [] := tight _ (List.mem_singleton_self _)
      simp [get, getIn, some_there]
  | first :: second :: _, nodup =>
      simp only [List.map_cons, List.nodup_cons, List.mem_cons, not_or] at nodup
      exact absurd ((only first.1).trans (only second.1).symm) nodup.1.1

/-- Where there is but one key, what a multimap holds determines it. -/
theorem eq_of_get {first second : Multimap κ α} (tight : first.Tight) (tight' : second.Tight)
    {key : κ} (only : ∀ other : κ, other = key) (same : first.get key = second.get key) :
    first = second := by
  apply eq_of_groups
  rw [groups_of_only_key tight only, groups_of_only_key tight' only, same]

/-! ## Updates in any order -/

section Updates

variable {key key' : κ} {first second : List α → List α}

/-- Where a key is not there, an update that keeps the empty list changes nothing. -/
theorem updateIn_of_not_mem {groups : List (κ × List α)} (empty : first [] = [])
    (absent : key ∉ groups.map Prod.fst) : updateIn key first groups = groups := by
  induction groups with
  | nil => simp [updateIn, empty]
  | cons group groups ih =>
      simp only [List.map_cons, List.mem_cons, not_or] at absent
      rw [updateIn, if_neg (Ne.symm absent.1), ih absent.2]

/-- One update after another under one key is one update. -/
theorem updateIn_updateIn {groups : List (κ × List α)} (empty : first [] = [])
    (empty' : second [] = []) (nodup : (groups.map Prod.fst).Nodup) :
    updateIn key second (updateIn key first groups) =
      updateIn key (fun values => second (first values)) groups := by
  induction groups with
  | nil => simp [updateIn, empty, empty']
  | cons group groups ih =>
      obtain ⟨other, values⟩ := group
      simp only [List.map_cons, List.nodup_cons] at nodup
      by_cases here : other = key
      · subst here
        cases left : first values with
        | nil => simp [updateIn, left, empty', updateIn_of_not_mem empty' nodup.1]
        | cons value rest => simp [updateIn, left]
      · simp [updateIn, here, ih nodup.2]

theorem updateIn_comm_of_ne (apart : key ≠ key') (empty : first [] = []) (empty' : second [] = [])
    (groups : List (κ × List α)) :
    updateIn key' second (updateIn key first groups) =
      updateIn key first (updateIn key' second groups) := by
  induction groups with
  | nil => simp [updateIn, empty, empty']
  | cons group groups ih =>
      obtain ⟨other, values⟩ := group
      by_cases here : other = key
      · subst here
        cases left : first values <;> simp [updateIn, left, apart]
      · by_cases there : other = key'
        · subst there
          cases left : second values <;> simp [updateIn, left, here]
        · simp [updateIn, here, there, ih]

/-- Two updates that keep the empty list can be made in either order, when they can be under one key. -/
theorem update_comm (map : Multimap κ α) (empty : first [] = []) (empty' : second [] = [])
    (either : key = key' → ∀ values, second (first values) = first (second values)) :
    (map.update key first).update key' second = (map.update key' second).update key first := by
  apply eq_of_groups
  show updateIn key' second (updateIn key first map.groups) =
    updateIn key first (updateIn key' second map.groups)
  by_cases same : key = key'
  · subst same
    rw [updateIn_updateIn empty empty' map.nodup, updateIn_updateIn empty' empty map.nodup,
      funext (either rfl)]
  · exact updateIn_comm_of_ne same empty empty' map.groups

end Updates

end Keys

end LanguageGraph.Multimap
