import Mathlib.Algebra.Group.Nat.Defs

/-! A counter that starts again from 0 after `n` ticks, and the first of several moments
at which something is found to hold. -/

namespace DeviceDrivers.Cycles

section Counter
variable {n first last : Nat}

/-- The quotients of moments less than a cycle apart differ by one at most. -/
theorem div_cases (order : first ≤ last) (near : last < first + n) :
    last / n = first / n ∧ last % n = first % n + (last - first) ∨
      last / n = first / n + 1 ∧ last % n + n = first % n + (last - first) := by
  have positive : 0 < n := by omega
  have before := Nat.div_add_mod first n
  have after := Nat.div_add_mod last n
  have small := Nat.mod_lt first positive
  have also_small := Nat.mod_lt last positive
  have grows : first / n ≤ last / n := Nat.div_le_div_right order
  have bound : last / n < first / n + 2 := by
    rw [Nat.div_lt_iff_lt_mul positive, Nat.add_mul, Nat.mul_comm (first / n)]
    omega
  by_cases same : last / n = first / n
  · rw [same] at after
    exact .inl ⟨same, by omega⟩
  · have next : last / n = first / n + 1 := by omega
    rw [next, Nat.mul_add, Nat.mul_one] at after
    exact .inr ⟨next, by omega⟩

/-- The counter shows moments less than a cycle apart in their order just within one cycle. -/
theorem mod_le_mod_iff (order : first ≤ last) (near : last < first + n) :
    first % n ≤ last % n ↔ first / n = last / n := by
  rcases div_cases order near with ⟨same, ahead⟩ | ⟨next, behind⟩ <;> omega

theorem mod_lt_mod_iff (order : first < last) (near : last < first + n) :
    first % n < last % n ↔ first / n = last / n := by
  rcases div_cases (Nat.le_of_lt order) near with ⟨same, ahead⟩ | ⟨next, behind⟩ <;> omega

end Counter

section Moments
variable {α : Type} {p q : α → Bool} {moment : α} {moments : List α}

theorem later_agree (none : p moment = false) (also_none : q moment = false) :
    (moment :: moments).findIdx? p = (moment :: moments).findIdx? q ↔ moments.findIdx? p = moments.findIdx? q := by
  rw [List.findIdx?_cons, List.findIdx?_cons, none, also_none]
  exact Option.map_inj_right fun _ _ same => Nat.succ.inj same

theorem first_agree (same : (moment :: moments).findIdx? p = (moment :: moments).findIdx? q) : p moment = q moment := by
  rw [List.findIdx?_cons, List.findIdx?_cons] at same
  have never (found : Option Nat) : found.map (· + 1) ≠ some 0 := by simp
  cases first : p moment <;> cases second : q moment <;> rw [first, second] at same
  · exact absurd same (never _)
  · exact absurd same.symm (never _)

/-- Two tests find the same first moment if they agree until the second has found one. -/
theorem findIdx?_eq_iff : moments.findIdx? p = moments.findIdx? q ↔
    ∀ earlier moment later, moments = earlier ++ moment :: later → (∀ other ∈ earlier, q other = false) →
      p moment = q moment := by
  induction moments with
  | nil => simp
  | cons moment moments ih =>
    constructor
    · intro same earlier other later shape none
      have first := first_agree same
      cases earlier with
      | nil =>
        obtain ⟨rfl, -⟩ := List.cons.inj shape
        exact first
      | cons head earlier =>
        obtain ⟨rfl, rest⟩ := List.cons.inj shape
        rw [List.forall_mem_cons] at none
        exact ih.mp ((later_agree (first.trans none.1) none.1).mp same) earlier other later rest none.2
    · intro agree
      have first := agree [] moment moments rfl (by simp)
      cases found : q moment with
      | true => rw [List.findIdx?_cons, List.findIdx?_cons, first, found, if_pos rfl, if_pos rfl]
      | false =>
        refine (later_agree (first.trans found) found).mpr (ih.mpr ?_)
        intro earlier other later shape none
        apply agree (moment :: earlier) other later (by rw [shape, List.cons_append])
        exact List.forall_mem_cons.mpr ⟨found, none⟩

end Moments

end DeviceDrivers.Cycles
