/-
# Proofs.Occurrence — what taking out the latest occurrence leaves

The position that `lastIndexOf?` finds splits a list: the value stands there and nowhere behind
(`lastIndexOf?_split`). Taking out any occurrence of a value counts one less of it and as many of
everything else (`count_eraseIdx`, `count_eraseLast`), so as a multiset the list does not tell which
occurrence went.

The order of a list does tell. What was appended last goes first, so when as many values go as were
appended, the list in front of them is untouched (`eraseEach_append_of_perm`); and values that are not
taken out keep their order among themselves (`filter_eraseEach`).
-/
import LanguageGraph.Edge.Occurrence
import Mathlib.Data.List.Perm.Basic

namespace LanguageGraph

set_option autoImplicit false

variable {α : Type}

theorem eraseIdx_split (before after : List α) (value : α) :
    (before ++ value :: after).eraseIdx before.length = before ++ after := by
  rw [List.eraseIdx_append_of_length_le (Nat.le_refl _), Nat.sub_self]
  rfl

theorem getElem?_split (before after : List α) (value : α) :
    (before ++ value :: after)[before.length]? = some value := by
  rw [List.getElem?_append_right (Nat.le_refl _), Nat.sub_self]
  rfl

/-- A list splits at the position of a value. -/
theorem split_of_getElem? {values : List α} {index : Nat} {value : α}
    (there : values[index]? = some value) :
    ∃ before after, values = before ++ value :: after ∧ before.length = index := by
  obtain ⟨bound, here⟩ := List.getElem?_eq_some_iff.1 there
  refine ⟨values.take index, values.drop (index + 1), ?_, ?_⟩
  · rw [← here, List.getElem_cons_drop, List.take_append_drop]
  · rw [List.length_take]
    omega

/-- Taking out a value that a filter drops does not show behind the filter. -/
theorem filter_eraseIdx {p : α → Bool} {values : List α} {index : Nat}
    (dropped : ∀ value, values[index]? = some value → ¬ p value) :
    (values.eraseIdx index).filter p = values.filter p := by
  cases there : values[index]? with
  | none => rw [List.eraseIdx_of_length_le (List.getElem?_eq_none_iff.1 there)]
  | some value =>
      have goes := dropped value there
      obtain ⟨before, after, rfl, rfl⟩ := split_of_getElem? there
      rw [eraseIdx_split, List.filter_append, List.filter_append, List.filter_cons_of_neg goes]

/-- Where a list with one more value at its end splits, it splits at that value or before it. -/
theorem split_concat {values before after : List α} {last value : α}
    (split : values ++ [last] = before ++ value :: after) :
    (values = before ∧ last = value) ∨
      ∃ between, values = before ++ value :: between ∧ after = between ++ [last] := by
  rcases List.eq_nil_or_concat after with rfl | ⟨between, final, rfl⟩
  · obtain ⟨same, ends⟩ := List.append_inj' split rfl
    exact .inl ⟨same, List.head_eq_of_cons_eq ends⟩
  · rw [List.concat_eq_append, ← List.cons_append, ← List.append_assoc] at split
    obtain ⟨same, ends⟩ := List.append_inj' split rfl
    rw [List.concat_eq_append, List.head_eq_of_cons_eq ends]
    exact .inr ⟨between, same, rfl⟩

/-- The last value of some kind stands at one position. -/
theorem last_unique {p : α → Prop} {before after before' after' : List α} {last last' : α}
    (split : before ++ last :: after = before' ++ last' :: after') (here : p last) (here' : p last')
    (none_later : ∀ value ∈ after, ¬ p value) (none_later' : ∀ value ∈ after', ¬ p value) :
    last = last' := by
  rcases List.append_eq_append_iff.1 split with ⟨between, -, rest⟩ | ⟨between, -, rest⟩
  · cases between with
    | nil => exact List.head_eq_of_cons_eq rest
    | cons head between =>
        have later : last' ∈ after := by
          rw [(List.cons.inj rest).2]
          exact List.mem_append_cons_self
        exact absurd here' (none_later last' later)
  · cases between with
    | nil => exact (List.head_eq_of_cons_eq rest).symm
    | cons head between =>
        have later : last ∈ after' := by
          rw [(List.cons.inj rest).2]
          exact List.mem_append_cons_self
        exact absurd here (none_later' last later)

variable [DecidableEq α]

/-- The last occurrence of a value splits a list, and the value does not stand behind it. -/
theorem lastIndexOf?_split {value : α} {values : List α} {index : Nat}
    (found : lastIndexOf? value values = some index) :
    ∃ before after, values = before ++ value :: after ∧ before.length = index ∧
      value ∉ after := by
  induction values generalizing index with
  | nil => simp [lastIndexOf?] at found
  | cons head tail ih =>
      simp only [lastIndexOf?] at found
      cases inTail : lastIndexOf? value tail with
      | some position =>
          simp only [inTail, Option.some.injEq] at found
          obtain ⟨before, after, rfl, length, absent⟩ := ih inTail
          refine ⟨head :: before, after, rfl, ?_, absent⟩
          rw [List.length_cons, length, found]
      | none =>
          simp only [inTail] at found
          split at found
          · rename_i same
            subst same
            cases found
            exact ⟨[], tail, rfl, rfl, lastIndexOf?_eq_none_iff.1 inTail⟩
          · cases found

theorem lastIndexOf?_of_split {value : α} {before after : List α} (absent : value ∉ after) :
    lastIndexOf? value (before ++ value :: after) = some before.length := by
  induction before with
  | nil => simp [lastIndexOf?, lastIndexOf?_eq_none_iff.2 absent]
  | cons head before ih => simp [lastIndexOf?, ih]

theorem exists_lastIndexOf? {value : α} {values : List α} (member : value ∈ values) :
    ∃ index, lastIndexOf? value values = some index := by
  cases found : lastIndexOf? value values with
  | some index => exact ⟨index, rfl⟩
  | none => exact absurd member (lastIndexOf?_eq_none_iff.1 found)

theorem count_cons_ite [BEq α] [LawfulBEq α] (head : α) (tail : List α) (other : α) :
    (head :: tail).count other = tail.count other + if other = head then 1 else 0 := by
  rw [List.count_cons]
  congr 1
  by_cases same : other = head
  · rw [if_pos (beq_iff_eq.2 same.symm), if_pos same]
  · rw [if_neg fun is => same (eq_of_beq is).symm, if_neg same]

theorem count_eraseIdx [BEq α] [LawfulBEq α] {values : List α} {index : Nat} {value : α}
    (there : values[index]? = some value) (other : α) :
    (values.eraseIdx index).count other =
      values.count other - if other = value then 1 else 0 := by
  obtain ⟨before, after, rfl, rfl⟩ := split_of_getElem? there
  rw [eraseIdx_split, List.count_append, List.count_append, count_cons_ite]
  omega

/-- Taking out the latest occurrence counts one less of the value, where it occurs at all. -/
theorem count_eraseLast [BEq α] [LawfulBEq α] (value : α) (values : List α) (other : α) :
    (eraseLast value values).count other =
      values.count other - if other = value then 1 else 0 := by
  unfold eraseLast
  split
  · rename_i index found
    exact count_eraseIdx (getElem?_lastIndexOf? found) other
  · rename_i missing
    by_cases same : other = value
    · subst same
      simp [List.count_eq_zero_of_not_mem (lastIndexOf?_eq_none_iff.1 missing)]
    · simp [same]

/-! ## What stays where it was -/

/-- A list splits at the last occurrence of a value. -/
theorem split_last {value : α} {values : List α} (member : value ∈ values) :
    ∃ before after, values = before ++ value :: after ∧ value ∉ after := by
  obtain ⟨index, found⟩ := exists_lastIndexOf? member
  obtain ⟨before, after, split, -, absent⟩ := lastIndexOf?_split found
  exact ⟨before, after, split, absent⟩

theorem eraseLast_split {value : α} {before after : List α} (absent : value ∉ after) :
    eraseLast value (before ++ value :: after) = before ++ after := by
  rw [eraseLast, lastIndexOf?_of_split absent]
  exact eraseIdx_split before after value

theorem eraseLast_of_not_mem {value : α} {values : List α} (absent : value ∉ values) :
    eraseLast value values = values := by
  rw [eraseLast, lastIndexOf?_eq_none_iff.2 absent]

/-- A value that stands in the second part is taken out there. -/
theorem eraseLast_append_of_mem (before : List α) {value : α} {after : List α}
    (member : value ∈ after) :
    eraseLast value (before ++ after) = before ++ eraseLast value after := by
  obtain ⟨early, late, rfl, absent⟩ := split_last member
  rw [← List.append_assoc, eraseLast_split absent, eraseLast_split absent, List.append_assoc]

theorem perm_cons_eraseLast {value : α} {values : List α} (member : value ∈ values) :
    values.Perm (value :: eraseLast value values) := by
  obtain ⟨before, after, rfl, absent⟩ := split_last member
  rw [eraseLast_split absent]
  exact List.perm_middle

theorem filter_eraseLast {p : α → Bool} {value : α} (out : p value = false) (values : List α) :
    (eraseLast value values).filter p = values.filter p := by
  by_cases member : value ∈ values
  · obtain ⟨before, after, rfl, absent⟩ := split_last member
    have goes : ¬ p value = true := by simp [out]
    rw [eraseLast_split absent, List.filter_append, List.filter_append, List.filter_cons,
      if_neg goes]
  · rw [eraseLast_of_not_mem member]

/-- Taking out the latest occurrence is taking out the first one, seen from behind. -/
theorem eraseLast_eq_reverse (value : α) (values : List α) :
    eraseLast value values = (values.reverse.erase value).reverse := by
  by_cases member : value ∈ values
  · obtain ⟨before, after, rfl, absent⟩ := split_last member
    have absent' : value ∉ after.reverse := by simpa using absent
    rw [eraseLast_split absent, List.reverse_append, List.reverse_cons, List.append_assoc,
      List.erase_append_right _ absent']
    simp
  · have absent : value ∉ values.reverse := by simpa using member
    rw [eraseLast_of_not_mem member, List.erase_of_not_mem absent, List.reverse_reverse]

theorem eraseLast_comm (first second : α) (values : List α) :
    eraseLast second (eraseLast first values) = eraseLast first (eraseLast second values) := by
  simp only [eraseLast_eq_reverse, List.reverse_reverse]
  rw [List.erase_comm]

/-- A list without the last occurrences of some values, which are taken out one after the other. -/
def eraseEach (gone : List α) (values : List α) : List α :=
  gone.foldl (fun left value => eraseLast value left) values

/-- When as many values go as were appended, in whatever order, the list in front stays. -/
theorem eraseEach_append_of_perm (before : List α) {gone after : List α} (perm : gone.Perm after) :
    eraseEach gone (before ++ after) = before := by
  induction gone generalizing after with
  | nil =>
      have none_after : after = [] := perm.nil_eq.symm
      rw [none_after]
      exact List.append_nil before
  | cons value gone ih =>
      have member : value ∈ after := perm.subset List.mem_cons_self
      have rest : gone.Perm (eraseLast value after) :=
        (perm.trans (perm_cons_eraseLast member)).cons_inv
      show eraseEach gone (eraseLast value (before ++ after)) = before
      rw [eraseLast_append_of_mem before member]
      exact ih rest

/-- Values that are not taken out keep their order. -/
theorem filter_eraseEach {p : α → Bool} {gone : List α} (out : ∀ value ∈ gone, p value = false)
    (values : List α) : (eraseEach gone values).filter p = values.filter p := by
  induction gone generalizing values with
  | nil => rfl
  | cons value gone ih =>
      rw [List.forall_mem_cons] at out
      exact (ih out.2 (eraseLast value values)).trans (filter_eraseLast out.1 values)

end LanguageGraph
