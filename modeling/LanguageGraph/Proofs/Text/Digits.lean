/-
# Proofs.Text.Digits — digits and their value

Whatever digits a number is written with, they have its value: all of them (`valueOfDigits?_digits`), or
the last few when no more are written (`valueOfDigits?_paddedDigits`). A text has a value only when each
of its characters is a digit (`digitOf?_of_value`).
-/
import LanguageGraph.Text.Digits
import Mathlib.Algebra.Group.Nat.Defs
import Mathlib.Data.List.Induction

namespace LanguageGraph.Text

set_option autoImplicit false

variable {base value : Nat} {c : Char} {text : List Char}

/-! ## One digit -/

theorem digitValue?_digitChar (small : value < 36) : digitValue? (digitChar value) = some value := by
  have each : ∀ value < 36, digitValue? (digitChar value) = some value := by decide
  exact each value small

theorem digitOf?_digitChar (few : base ≤ 36) (small : value < base) :
    digitOf? base (digitChar value) = some value := by
  rw [digitOf?, digitValue?_digitChar (Nat.lt_of_lt_of_le small few)]
  exact if_pos small

/-- The decimal digits are ten characters in a row. -/
theorem code_of_decimal_digit (digit : (digitOf? 10 c).isSome) : 48 ≤ c.toNat ∧ c.toNat ≤ 57 := by
  simp only [digitOf?, digitValue?] at digit
  split at digit <;> grind

/-! ## The value of a text -/

theorem valueOfDigits?_concat (base : Nat) (text : List Char) (c : Char) :
    valueOfDigits? base (text ++ [c]) =
      (valueOfDigits? base text).bind fun total =>
        (digitOf? base c).map fun value => total * base + value := by
  rw [valueOfDigits?, List.foldl_append, ← valueOfDigits?]
  cases valueOfDigits? base text with
  | none => rfl
  | some total => cases digit : digitOf? base c <;> simp [digit]

/-- Every character of a text with a value is a digit. -/
theorem digitOf?_of_value (known : valueOfDigits? base text = some value) :
    ∀ c ∈ text, (digitOf? base c).isSome := by
  induction text using List.reverseRecOn generalizing value with
  | nil => simp
  | append_singleton text last ih =>
      rw [valueOfDigits?_concat] at known
      obtain ⟨total, before, digit⟩ := Option.bind_eq_some_iff.1 known
      obtain ⟨lowest, is_digit, -⟩ := Option.map_eq_some_iff.1 digit
      intro c member
      rcases List.mem_append.1 member with early | late
      · exact ih before c early
      · simp [List.mem_singleton.1 late, is_digit]

/-! ## Written numbers -/

@[simp] theorem length_paddedDigits (base count value : Nat) :
    (paddedDigits base count value).length = count := by
  induction count generalizing value with
  | zero => rfl
  | succ count ih => simp [paddedDigits, ih]

/-- A number that is written with so many digits is read modulo that power of the base. -/
theorem valueOfDigits?_paddedDigits (positive : 0 < base) (few : base ≤ 36) (count value : Nat) :
    valueOfDigits? base (paddedDigits base count value) = some (value % base ^ count) := by
  induction count generalizing value with
  | zero => simp [paddedDigits, valueOfDigits?, Nat.mod_one]
  | succ count ih =>
      have lowest := digitOf?_digitChar few (Nat.mod_lt value positive)
      rw [paddedDigits, valueOfDigits?_concat, ih, Nat.pow_succ', Nat.mod_mul]
      simp [lowest, Nat.mul_comm, Nat.add_comm]

theorem digitChar_eq (small : value < 16) : Nat.digitChar value = digitChar value := by
  have each : ∀ value < 16, Nat.digitChar value = digitChar value := by decide
  exact each value small

/-- A number that is written without leading zeros is read as it is. -/
theorem valueOfDigits?_digits (more : 1 < base) (few : base ≤ 16) (value : Nat) :
    valueOfDigits? base (digits base value) = some value := by
  have read : ∀ low < base, digitOf? base (Nat.digitChar low) = some low := by
    intro low small
    rw [digitChar_eq (by omega), digitOf?_digitChar (by omega) small]
  rw [digits]
  induction value using Nat.strongRecOn with
  | ind value ih =>
      rw [Nat.toDigits_eq_if more]
      split
      · rename_i small
        simp [valueOfDigits?, read value small]
      · rename_i large
        have shorter : value / base < value := Nat.div_lt_self (by omega) more
        rw [valueOfDigits?_concat, ih _ shorter]
        simp [read _ (Nat.mod_lt value (Nat.zero_lt_of_lt more)), Nat.div_add_mod']

theorem digits_ne_nil (base value : Nat) : digits base value ≠ [] :=
  Nat.toDigits_ne_nil

end LanguageGraph.Text
