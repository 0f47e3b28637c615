/-
# Proofs.Stamp — stamps in a row, and what is left of the row when some are dropped

The stamps that one commit gives out follow each other (`between`). Where some stamps are never given
out, the others move up: each takes the number of stamps before it that are still there (`among`). They
stay apart (`among_inj`), and a row without a dropped stamp stays a row (`map_among_between`).
-/
import LanguageGraph.Edge.Stamp
import Mathlib.Data.List.Nodup
import Mathlib.Data.List.Range
import Mathlib.Data.Nat.Count

namespace LanguageGraph

set_option autoImplicit false

namespace EdgeStamp

/-! ## Stamps in a row -/

theorem mem_between {first next : Nat} {stamp : EdgeStamp} :
    stamp ∈ between first next ↔ first ≤ stamp.number ∧ stamp.number < next := by
  rw [between, List.mem_map]
  constructor
  · rintro ⟨number, member, rfl⟩
    rw [List.mem_range'_1] at member
    show first ≤ number ∧ number < next
    omega
  · rintro ⟨le, below⟩
    exact ⟨stamp.number, List.mem_range'_1.2 ⟨le, by omega⟩, rfl⟩

theorem between_succ {first next : Nat} (le : first ≤ next) :
    between first (next + 1) = between first next ++ [⟨next⟩] := by
  have last : first + 1 * (next - first) = next := by omega
  rw [between, between, Nat.succ_sub le, List.range'_concat, last, List.map_append]
  rfl

theorem between_of_lt {first next : Nat} (less : first < next) :
    between first next = ⟨first⟩ :: between (first + 1) next := by
  have length : next - first = next - (first + 1) + 1 := by omega
  rw [between, between, length, List.range'_succ, List.map_cons]

theorem between_append {first middle next : Nat} (le : first ≤ middle) (le' : middle ≤ next) :
    between first middle ++ between middle next = between first next := by
  have second : middle = first + 1 * (middle - first) := by omega
  have length : next - first = (middle - first) + (next - middle) := by omega
  rw [between, between, between, ← List.map_append, length, ← List.range'_append, ← second]

theorem length_between (first next : Nat) : (between first next).length = next - first := by
  rw [between, List.length_map, List.length_range']

theorem nodup_between (first next : Nat) : (between first next).Nodup := by
  rw [between]
  refine List.Nodup.map ?_ List.nodup_range'
  intro earlier later same
  exact congrArg EdgeStamp.number same

/-! ## Dropping some -/

/-- How many numbers below this one are not dropped. -/
def numberAmong (dropped : List EdgeStamp) (number : Nat) : Nat :=
  Nat.count (fun earlier => (⟨earlier⟩ : EdgeStamp) ∉ dropped) number

/-- The stamp in place of this one, where dropped stamps are not given out. -/
def among (dropped : List EdgeStamp) (stamp : EdgeStamp) : EdgeStamp :=
  ⟨numberAmong dropped stamp.number⟩

variable {dropped : List EdgeStamp}

theorem numberAmong_succ_of_kept {number : Nat} (kept : (⟨number⟩ : EdgeStamp) ∉ dropped) :
    numberAmong dropped (number + 1) = numberAmong dropped number + 1 :=
  Nat.count_succ_eq_succ_count kept

theorem numberAmong_succ_of_dropped {number : Nat} (drop : (⟨number⟩ : EdgeStamp) ∈ dropped) :
    numberAmong dropped (number + 1) = numberAmong dropped number :=
  Nat.count_succ_eq_count fun kept => kept drop

/-- Stamps that are not dropped stay apart. -/
theorem among_inj {first second : EdgeStamp} (kept : first ∉ dropped) (kept' : second ∉ dropped)
    (same : first.among dropped = second.among dropped) : first = second := by
  have numbers : first.number = second.number :=
    Nat.count_injective kept kept' (congrArg EdgeStamp.number same)
  exact congrArg EdgeStamp.mk numbers

/-- Stamps given out in a row stay in a row, when none of them is dropped. -/
theorem map_among_between {first next : Nat} (le : first ≤ next)
    (kept : ∀ stamp ∈ between first next, stamp ∉ dropped) :
    (between first next).map (among dropped) =
      between (numberAmong dropped first) (numberAmong dropped next) := by
  induction next, le using Nat.le_induction with
  | base => simp [between]
  | succ next le ih =>
      rw [between_succ le, List.forall_mem_append] at kept
      have kept_last := kept.2 ⟨next⟩ (List.mem_singleton_self _)
      have more : numberAmong dropped first ≤ numberAmong dropped next :=
        Nat.count_monotone (fun earlier => (⟨earlier⟩ : EdgeStamp) ∉ dropped) le
      rw [between_succ le, List.map_append, ih kept.1, numberAmong_succ_of_kept kept_last,
        between_succ more]
      rfl

end EdgeStamp

end LanguageGraph
