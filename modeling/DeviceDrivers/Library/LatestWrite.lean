import Mathlib.Data.List.Induction

/-! A state looked at through keys, and operations that each touch some of them.
What is seen at a key depends on the latest operation that touched it. -/

namespace DeviceDrivers.LatestWrite

universe u v w x

variable {σ : Type u} {α : Type v} {κ : Type w} {ν : Type x}

/-- An operation changes nothing at the keys it does not touch. -/
def Framed (apply : σ → α → σ) (view : σ → κ → ν) (touches : α → κ → Prop) : Prop :=
  ∀ state op key, ¬ touches op key → view (apply state op) key = view state key

variable {apply : σ → α → σ} {view : σ → κ → ν} {touches : α → κ → Prop} {key : κ} {ops : List α}

theorem view_untouched (framed : Framed apply view touches) (state : σ) (none : ∀ op ∈ ops, ¬ touches op key) :
    view (ops.foldl apply state) key = view state key := by
  induction ops using List.reverseRecOn with
  | nil => rfl
  | append_singleton ops last ih =>
    rw [List.foldl_append, List.foldl_cons, List.foldl_nil, framed _ _ _ (none last (by simp))]
    exact ih fun op member => none op (List.mem_append_left _ member)

theorem view_latest (framed : Framed apply view touches) (state : σ) (earlier : List α) (op : α) {later : List α}
    (none : ∀ other ∈ later, ¬ touches other key) :
    view ((earlier ++ op :: later).foldl apply state) key = view (apply (earlier.foldl apply state) op) key := by
  rw [List.foldl_append, List.foldl_cons]
  exact view_untouched framed _ none

/-- No element satisfies the predicate, or the list splits at the last one that does. -/
theorem latest_cases (p : α → Bool) (ops : List α) :
    ((∀ op ∈ ops, p op = false) ∧ (ops.filter p).getLast? = none) ∨
      ∃ earlier op later, ops = earlier ++ op :: later ∧ p op = true ∧ (∀ other ∈ later, p other = false) ∧
        (ops.filter p).getLast? = some op := by
  induction ops using List.reverseRecOn with
  | nil => exact .inl ⟨by simp, rfl⟩
  | append_singleton ops last ih =>
    rw [List.filter_append]
    by_cases touched : p last = true
    · refine .inr ⟨ops, last, [], rfl, touched, by simp, ?_⟩
      rw [List.filter_cons_of_pos touched, List.filter_nil]
      exact List.getLast?_concat
    · rw [List.filter_cons_of_neg touched, List.filter_nil, List.append_nil]
      rw [Bool.not_eq_true] at touched
      rcases ih with ⟨none, empty⟩ | ⟨earlier, op, later, rfl, found, none, latest⟩
      · refine .inl ⟨?_, empty⟩
        exact List.forall_mem_append.mpr ⟨none, List.forall_mem_singleton.mpr touched⟩
      · refine .inr ⟨earlier, op, later ++ [last], by simp, found, ?_, latest⟩
        exact List.forall_mem_append.mpr ⟨none, List.forall_mem_singleton.mpr touched⟩

end DeviceDrivers.LatestWrite
