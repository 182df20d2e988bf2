import DeviceDrivers.BusyWait.Driver
import DeviceDrivers.Library.Cycles
import Mathlib.Data.List.Chain

/-! When the loop ends. It compares the counter with a bound that may lie in the counter's
next cycle, and the counter may get there first or pass it unseen. -/

namespace DeviceDrivers.BusyWait
open Cycles

variable {w : Nat}

private theorem loop_eq (condition : BitVec w → Bool) (samples : List (BitVec w)) :
    loop condition samples = samples.findIdx? fun sample => !condition sample := by
  induction samples with
  | nil => rfl
  | cons sample samples ih =>
    rw [loop, List.findIdx?_cons, ih]
    cases condition sample <;> rfl

/-- The loop ends at the first sample that is late, and not before, if it judges this sample
and all before it right. -/
private theorem loop_iff {condition : BitVec w → Bool} {start : BitVec w} {delay : Nat} {ticks : List Nat} :
    loop condition (ticks.map (jiffies start)) = ticks.findIdx? (fun now => delay ≤ now) ↔
      ∀ earlier now later, ticks = earlier ++ now :: later → (∀ before ∈ earlier, before < delay) →
        (condition (jiffies start now) = true ↔ now < delay) := by
  have judged (now : Nat) : ((fun sample => !condition sample) ∘ jiffies start) now = decide (delay ≤ now) ↔
      (condition (jiffies start now) = true ↔ now < delay) := by
    rw [Function.comp_apply, Bool.eq_iff_iff, decide_eq_true_iff, ← Nat.not_lt, Bool.not_eq_true',
      ← Bool.not_eq_true, not_iff_not]
  rw [loop_eq, List.findIdx?_map, findIdx?_eq_iff]
  simp only [judged, decide_eq_false_iff_not, Nat.not_le]

private theorem toNat_jiffies (start : BitVec w) (ticks : Nat) :
    (jiffies start ticks).toNat = (start.toNat + ticks) % 2 ^ w := by
  simp [jiffies]

private theorem bound_eq (start : BitVec w) (delay : Nat) :
    jiffies start 0 + BitVec.ofNat w delay = jiffies start delay := by
  simp [jiffies]

def Close (gap : Nat) : List Nat → Prop := List.IsChain fun first next => first ≤ next ∧ next < first + gap

def cycle (start : BitVec w) (ticks : Nat) : Nat := (start.toNat + ticks) / 2 ^ w

/-- A sample that the loop judges right: it is taken in the cycle of the bound. One that comes a
whole cycle late may also be in another, but not in front of the bound's place there. -/
def Right (start : BitVec w) (delay ticks : Nat) : Prop :=
  cycle start ticks = cycle start delay ∨ delay + 2 ^ w ≤ ticks ∧ jiffies start delay ≤ jiffies start ticks

instance (start : BitVec w) (delay ticks : Nat) : Decidable (Right start delay ticks) :=
  inferInstanceAs (Decidable (_ ∨ _))

section Comparison
variable {start : BitVec w} {delay ticks : Nat}

private theorem early_lt (early : ticks < delay) (small : delay < 2 ^ w) :
    jiffies start ticks < jiffies start delay ↔ cycle start ticks = cycle start delay := by
  rw [BitVec.lt_def, toNat_jiffies, toNat_jiffies]
  exact mod_lt_mod_iff (by omega) (by omega)

private theorem late_le (late : delay ≤ ticks) (near : ticks < delay + 2 ^ w) :
    jiffies start delay ≤ jiffies start ticks ↔ cycle start ticks = cycle start delay := by
  rw [BitVec.le_def, toNat_jiffies, toNat_jiffies, eq_comm]
  exact mod_le_mod_iff (by omega) (by omega)

private theorem cycle_late (far : delay + 2 ^ w ≤ ticks) : cycle start ticks ≠ cycle start delay := by
  have later : (start.toNat + delay + 2 ^ w) / 2 ^ w ≤ (start.toNat + ticks) / 2 ^ w := Nat.div_le_div_right (by omega)
  rw [Nat.add_div_right _ (Nat.two_pow_pos w)] at later
  rw [cycle, cycle]
  omega

private theorem right_iff (small : delay < 2 ^ w) :
    (jiffies start ticks < jiffies start delay ↔ ticks < delay) ↔ Right start delay ticks := by
  rw [Right]
  rcases Nat.lt_or_ge ticks delay with early | late
  · rw [early_lt early small, iff_true_right early, or_iff_left]
    omega
  · rw [iff_false_right (Nat.not_lt.mpr late), BitVec.not_lt]
    rcases Nat.lt_or_ge ticks (delay + 2 ^ w) with near | far
    · rw [late_le late near, or_iff_left]
      omega
    · rw [or_iff_right (cycle_late far), and_iff_right far]

end Comparison

/-- The loop ends at the first sample that is ten seconds late, and not before, if and only if it
judges this sample and all before it right. -/
theorem waits_iff (hz : Nat) (start : BitVec w) (ticks : List Nat) (small : 10 * hz < 2 ^ (w - 1)) :
    myinit hz start ticks = ticks.findIdx? (fun now => 10 * hz ≤ now) ↔
      ∀ earlier now later, ticks = earlier ++ now :: later → (∀ before ∈ earlier, before < 10 * hz) →
        Right start (10 * hz) now := by
  have fits : 10 * hz < 2 ^ w := Nat.lt_of_lt_of_le small (Nat.pow_le_pow_right (by decide) (Nat.sub_le w 1))
  rw [myinit, bound_eq, loop_iff]
  simp only [decide_eq_true_iff, right_iff fits]

/-- A counter of 32 bits at 100 Hz, ten seconds before it starts again. -/
theorem waits_iff_before_wrap : myinit 100 (4294966295 : BitVec 32) [1, 999, 1000] =
    [1, 999, 1000].findIdx? (fun now => 10 * 100 ≤ now) := by
  apply (waits_iff 100 4294966295 [1, 999, 1000] (by decide)).mpr
  intro earlier now later shape _
  have all : ∀ now ∈ [1, 999, 1000], Right (4294966295 : BitVec 32) (10 * 100) now := by decide +kernel
  exact all now (by simp [shape])

/-- One tick later the bound is in the next cycle and the first sample is not. -/
theorem ended_at_once : ¬ ∀ (w hz : Nat) (start : BitVec w) (ticks : List Nat), 10 * hz < 2 ^ (w - 1) →
    Close (2 ^ (w - 1)) (0 :: ticks) →
    myinit hz start ticks = ticks.findIdx? (fun now => 10 * hz ≤ now) := by
  intro claim
  have ends := claim 32 100 4294966296 [1, 999, 1000] (by decide) (by simp [Close])
  exact absurd ends (by decide +kernel)

theorem Close.near {gap delay now last : Nat} {earlier later : List Nat}
    (close : Close gap (last :: earlier ++ now :: later))
    (start : last ≤ delay) (early : ∀ before ∈ earlier, before < delay) : now < delay + gap := by
  induction earlier generalizing last with
  | nil =>
    have step := (List.isChain_cons_cons.mp close).1
    omega
  | cons head earlier ih =>
    have ⟨first, rest⟩ := List.forall_mem_cons.mp early
    exact ih (List.isChain_cons_cons.mp close).2 (Nat.le_of_lt first) rest

private theorem jiffies_add (start : BitVec w) (ticks more : Nat) :
    jiffies start (ticks + more) = jiffies start ticks + BitVec.ofNat w more := by
  simp [jiffies, BitVec.ofNat_add, BitVec.add_assoc]

private theorem toNat_ahead (start : BitVec w) (ticks : Nat) {more : Nat} (small : more < 2 ^ w) :
    (jiffies start (ticks + more) - jiffies start ticks).toNat = more := by
  rw [jiffies_add, BitVec.add_comm, BitVec.add_sub_cancel, BitVec.toNat_ofNat, Nat.mod_eq_of_lt small]

private theorem toNat_behind (start : BitVec w) (ticks : Nat) {more : Nat} (positive : 0 < more)
    (small : more < 2 ^ w) : (jiffies start ticks - jiffies start (ticks + more)).toNat = 2 ^ w - more := by
  rw [jiffies_add, BitVec.sub_eq_add_neg, BitVec.neg_add, BitVec.sub_eq_add_neg, ← BitVec.add_assoc,
    BitVec.add_right_neg, BitVec.zero_add, BitVec.toNat_neg, BitVec.toNat_ofNat, Nat.mod_eq_of_lt small,
    Nat.mod_eq_of_lt (by omega)]

/-- The difference is negative where it is taken before the bound, in less than half a cycle. -/
private theorem timeBefore_iff {start : BitVec w} {delay now half : Nat} (whole : 2 * half = 2 ^ w)
    (small : delay < half)
    (near : now < delay + half) : timeBefore (jiffies start now) (jiffies start delay) = true ↔ now < delay := by
  rw [timeBefore, decide_eq_true_iff, BitVec.toInt_neg_iff]
  rcases Nat.lt_or_ge now delay with early | late
  · have behind := toNat_behind start now (Nat.sub_pos_of_lt early) (by omega)
    rw [Nat.add_sub_of_le (Nat.le_of_lt early)] at behind
    omega
  · have ahead := @toNat_ahead w start delay (now - delay) (by omega)
    rw [Nat.add_sub_of_le late] at ahead
    omega

/-- The loop of the README ends in time wherever the counter starts. -/
theorem longDelay_waits (n hz : Nat) (start : BitVec (w + 1)) (ticks : List Nat) (small : n * hz < 2 ^ w)
    (close : Close (2 ^ w) (0 :: ticks)) :
    longDelay n hz start ticks = ticks.findIdx? (fun now => n * hz ≤ now) := by
  rw [longDelay, bound_eq, loop_iff]
  rintro earlier now later rfl early
  exact timeBefore_iff (Nat.pow_succ' ..).symm small (close.near (Nat.zero_le _) early)

end DeviceDrivers.BusyWait
