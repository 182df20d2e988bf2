import Mathlib.Algebra.Group.Nat.Defs

/-! Integers written with ASCII digits, and read back. -/

namespace DeviceDrivers.Decimal

def digits (number : Nat) : List UInt8 := (Nat.toDigits 10 number).map fun letter => .ofNat letter.toNat

/-- With a minus sign where the integer is negative. -/
def decimal (value : Int) : List UInt8 :=
  if value < 0 then 45 :: digits value.natAbs else digits value.natAbs

def isDigit (byte : UInt8) : Bool := decide (48 ≤ byte.toNat ∧ byte.toNat ≤ 57)

def number (bytes : List UInt8) : Nat := bytes.foldl (fun value byte => 10 * value + (byte.toNat - 48)) 0

/-- The integer that the bytes start with, and what follows it. -/
def scan : List UInt8 → Int × List UInt8
  | 45 :: bytes => (-number (bytes.takeWhile isDigit), bytes.dropWhile isDigit)
  | bytes => (number (bytes.takeWhile isDigit), bytes.dropWhile isDigit)

theorem digitChar_toNat {digit : Nat} (small : digit < 10) :
    (UInt8.ofNat digit.digitChar.toNat).toNat = 48 + digit := by
  rw [Nat.toNat_digitChar_of_lt_ten small, UInt8.toNat_ofNat']
  omega

theorem digits_eq (n : Nat) : digits n =
    if n < 10 then [.ofNat n.digitChar.toNat] else digits (n / 10) ++ [.ofNat (n % 10).digitChar.toNat] := by
  rw [digits, Nat.toDigits_eq_if (by decide)]
  split <;> simp [digits]

theorem length_digits_le {n bound : Nat} (positive : 0 < bound) : (digits n).length ≤ bound ↔ n < 10 ^ bound := by
  rw [digits, List.length_map, Nat.length_toDigits_le_iff (by decide) positive]

theorem digits_pos (n : Nat) : 0 < (digits n).length := by
  rw [digits, List.length_map]
  exact Nat.length_toDigits_pos

theorem digits_are_digits (n : Nat) : ∀ byte ∈ digits n, isDigit byte = true := by
  induction n using Nat.strongRecOn with
  | ind n ih =>
    rw [digits_eq]
    split
    next small =>
      have last := digitChar_toNat small
      simp only [List.forall_mem_singleton, isDigit, decide_eq_true_eq]
      omega
    next large =>
      have last := digitChar_toNat (Nat.mod_lt n (Nat.succ_pos 9))
      refine List.forall_mem_append.mpr ⟨ih (n / 10) (by omega), ?_⟩
      simp only [List.forall_mem_singleton, isDigit, decide_eq_true_eq]
      omega

theorem number_append (bytes : List UInt8) (byte : UInt8) :
    number (bytes ++ [byte]) = 10 * number bytes + (byte.toNat - 48) := by
  simp [number, List.foldl_append]

@[simp] theorem number_digits (n : Nat) : number (digits n) = n := by
  induction n using Nat.strongRecOn with
  | ind n ih =>
    rw [digits_eq]
    split
    next small =>
      have last := digitChar_toNat small
      simp only [number, List.foldl_cons, List.foldl_nil]
      omega
    next large =>
      have last := digitChar_toNat (Nat.mod_lt n (Nat.succ_pos 9))
      rw [number_append, ih (n / 10) (by omega)]
      omega

section Scan
variable {rest : List UInt8}

theorem takeWhile_digits (n : Nat) (apart : rest.takeWhile isDigit = []) :
    (digits n ++ rest).takeWhile isDigit = digits n := by
  rw [List.takeWhile_append_of_pos (digits_are_digits n), apart, List.append_nil]

theorem dropWhile_digits (n : Nat) (apart : rest.takeWhile isDigit = []) :
    (digits n ++ rest).dropWhile isDigit = rest := by
  have all := List.takeWhile_append_dropWhile (p := isDigit) (l := rest)
  rw [apart, List.nil_append] at all
  rw [List.dropWhile_append_of_pos (digits_are_digits n), all]

/-- An integer is read back if no digit follows it. -/
theorem scan_decimal (value : Int) (apart : rest.takeWhile isDigit = []) :
    scan (decimal value ++ rest) = (value, rest) := by
  rw [decimal]
  split
  next negative =>
    rw [List.cons_append, scan, takeWhile_digits _ apart, dropWhile_digits _ apart, number_digits]
    congr 1
    omega
  next positive =>
    have unsigned : ∀ bytes, digits value.natAbs ++ rest ≠ 45 :: bytes := by
      intro bytes same
      obtain ⟨first, others, shape⟩ := List.exists_cons_of_length_pos (digits_pos value.natAbs)
      have digit := digits_are_digits value.natAbs first (by simp [shape])
      rw [shape, List.cons_append, List.cons.injEq] at same
      simp [same.1, isDigit] at digit
    rw [scan]
    · rw [takeWhile_digits _ apart, dropWhile_digits _ apart, number_digits]
      congr 1
      omega
    · exact unsigned

end Scan

theorem length_decimal_pos (value : Int) : 0 < (decimal value).length := by
  rw [decimal]
  split
  · exact Nat.succ_pos _
  · exact digits_pos _

theorem length_decimal_two (value : Int) :
    (decimal value).length = 2 ↔ 10 ≤ value ∧ value ≤ 99 ∨ -9 ≤ value ∧ value ≤ -1 := by
  have one := @length_digits_le value.natAbs 1 (by decide)
  have two := @length_digits_le value.natAbs 2 (by decide)
  have some := digits_pos value.natAbs
  rw [decimal]
  split
  · rw [List.length_cons]
    omega
  · omega

example : decimal (-250) = [45, 50, 53, 48] := by decide

end DeviceDrivers.Decimal
