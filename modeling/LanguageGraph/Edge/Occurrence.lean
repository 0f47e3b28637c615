/-
# Edge.Occurrence — the latest occurrence of a value in a list

Edges may be repeated, and where only source, type and destination are given the one meant is the one
added last: `lastIndexOf?` finds its position and `eraseLast` removes it.
-/

namespace LanguageGraph

set_option autoImplicit false

variable {α : Type} [DecidableEq α]

/-- The position of the last occurrence of a value. -/
def lastIndexOf? (value : α) : List α → Option Nat
  | [] => none
  | head :: tail =>
      match lastIndexOf? value tail with
      | some index => some (index + 1)
      | none => if head = value then some 0 else none

/-- A list without the last occurrence of a value; all of it when the value does not occur. -/
def eraseLast (value : α) (values : List α) : List α :=
  match lastIndexOf? value values with
  | some index => values.eraseIdx index
  | none => values

theorem lastIndexOf?_eq_none_iff {value : α} {values : List α} :
    lastIndexOf? value values = none ↔ value ∉ values := by
  induction values with
  | nil => simp [lastIndexOf?]
  | cons head tail ih =>
      simp only [lastIndexOf?, List.mem_cons, not_or]
      cases found : lastIndexOf? value tail with
      | some index =>
          have : ¬ lastIndexOf? value tail = none := by simp [found]
          simp only [ih, Classical.not_not] at this
          simp [this]
      | none =>
          have absent := ih.1 found
          by_cases same : head = value
          · simp [same]
          · simp [same, absent, Ne.symm same]

theorem getElem?_lastIndexOf? {value : α} {values : List α} {index : Nat}
    (found : lastIndexOf? value values = some index) : values[index]? = some value := by
  induction values generalizing index with
  | nil => simp [lastIndexOf?] at found
  | cons head tail ih =>
      simp only [lastIndexOf?] at found
      cases inTail : lastIndexOf? value tail with
      | some position =>
          simp only [inTail, Option.some.injEq] at found
          subst found
          simpa using ih inTail
      | none =>
          simp only [inTail] at found
          split at found
          · rename_i same
            simp only [Option.some.injEq] at found
            subst found
            simp [same]
          · simp at found

theorem lastIndexOf?_lt {value : α} {values : List α} {index : Nat}
    (found : lastIndexOf? value values = some index) : index < values.length := by
  obtain ⟨bound, -⟩ := List.getElem?_eq_some_iff.1 (getElem?_lastIndexOf? found)
  exact bound

end LanguageGraph
