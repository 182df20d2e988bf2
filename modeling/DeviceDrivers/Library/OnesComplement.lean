import Mathlib.Algebra.Group.Nat.Even
import Mathlib.Algebra.BigOperators.Group.List.Basic
import Mathlib.Data.Nat.ModEq
import Mathlib.Tactic.Ring

/-! One's complement sums of 16-bit words with end-around carry, as the
Internet checksum uses them. Everything is reduced to the plain sum of the
words: the folded sum keeps its residue modulo 65535 and its being zero. -/

namespace DeviceDrivers.OnesComplement

def addc (a b : Nat) : Nat := if a + b < 65536 then a + b else a + b - 65535

/-- The bytes as big-endian 16-bit words. An odd last byte is padded with a zero. -/
def words : List UInt8 → List Nat
  | [] => []
  | [high] => [high.toNat * 256]
  | high :: low :: rest => (high.toNat * 256 + low.toNat) :: words rest

def sum16 (bytes : List UInt8) : Nat := (words bytes).foldl addc 0

/-- The complement of the sum, the value a checksum field is given. -/
def checksum (bytes : List UInt8) : UInt16 := .ofNat (65535 - sum16 bytes)

/-- A 16-bit value in network byte order. -/
def be16 (value : UInt16) : List UInt8 := [(value >>> 8).toUInt8, value.toUInt8]

def total (bytes : List UInt8) : Nat := (words bytes).sum

@[simp] theorem total_nil : total [] = 0 := rfl

@[simp] theorem total_cons_cons (high low : UInt8) (rest : List UInt8) :
    total (high :: low :: rest) = high.toNat * 256 + low.toNat + total rest := rfl

private theorem words_append (first last : List UInt8) (even : Even first.length) :
    words (first ++ last) = words first ++ words last := by
  match first with
  | [] => rfl
  | [_] => simp at even
  | high :: low :: rest =>
    have shorter : Even rest.length := by
      simp only [List.length_cons, Nat.even_add_one] at even
      simpa using even
    simp [words, words_append rest last shorter]

theorem total_append {first last : List UInt8} (even : Even first.length) :
    total (first ++ last) = total first + total last := by
  simp [total, words_append first last even]

private theorem words_lt {bytes : List UInt8} : ∀ word ∈ words bytes, word < 65536 := by
  match bytes with
  | [] => simp [words]
  | [high] =>
    have := high.toNat_lt
    simp only [words, List.mem_singleton, forall_eq]
    omega
  | high :: low :: rest =>
    have := high.toNat_lt
    have := low.toNat_lt
    intro word member
    rcases List.mem_cons.mp member with rfl | member
    · omega
    · exact words_lt word member

private theorem addc_lt {a b : Nat} (left : a < 65536) (right : b < 65536) : addc a b < 65536 := by
  unfold addc
  split <;> omega

private theorem addc_mod (a b : Nat) : addc a b % 65535 = (a + b) % 65535 := by
  unfold addc
  split <;> omega

private theorem addc_zero {a b : Nat} : addc a b = 0 ↔ a = 0 ∧ b = 0 := by
  unfold addc
  split <;> omega

/-- What folding the carries preserves, with any accumulated sum. -/
private theorem fold_facts (values : List Nat) (bounded : ∀ value ∈ values, value < 65536)
    (start : Nat) (small : start < 65536) :
    values.foldl addc start < 65536 ∧
      values.foldl addc start % 65535 = (start + values.sum) % 65535 ∧
      (values.foldl addc start = 0 ↔ start + values.sum = 0) := by
  induction values generalizing start with
  | nil => simp [small]
  | cons value rest ih =>
    have head := bounded value (by simp)
    obtain ⟨below, residue, zero⟩ :=
      ih (fun other member => bounded other (by simp [member])) (addc start value) (addc_lt small head)
    refine ⟨below, ?_, ?_⟩
    · rw [List.foldl_cons, residue, List.sum_cons, Nat.add_mod, addc_mod, ← Nat.add_mod, Nat.add_assoc]
    · have empty : addc start value = 0 ↔ start = 0 ∧ value = 0 := addc_zero
      rw [List.foldl_cons, zero, List.sum_cons]
      omega

theorem sum16_lt (bytes : List UInt8) : sum16 bytes < 65536 :=
  (fold_facts _ words_lt 0 (by omega)).1

theorem sum16_mod (bytes : List UInt8) : sum16 bytes % 65535 = total bytes % 65535 := by
  simpa [sum16, total] using (fold_facts _ words_lt 0 (by omega)).2.1

theorem sum16_zero (bytes : List UInt8) : sum16 bytes = 0 ↔ total bytes = 0 := by
  simpa [sum16, total] using (fold_facts (words bytes) words_lt 0 (by omega)).2.2

/-- A sum of all ones: the words add up to a positive multiple of 65535. -/
theorem sum16_full {bytes : List UInt8} :
    sum16 bytes = 65535 ↔ total bytes ≠ 0 ∧ total bytes % 65535 = 0 := by
  have below := sum16_lt bytes
  have residue := sum16_mod bytes
  have zero := sum16_zero bytes
  constructor
  · intro full
    refine ⟨fun none => ?_, ?_⟩
    · have := zero.mpr none
      omega
    · rw [← residue, full]
  · rintro ⟨some, divides⟩
    have : sum16 bytes ≠ 0 := fun none => some (zero.mp none)
    omega

theorem total_be16 (value : UInt16) (rest : List UInt8) :
    total (be16 value ++ rest) = value.toNat + total rest := by
  have := value.toNat_lt
  simp only [be16, List.cons_append, List.nil_append, total_cons_cons, UInt16.toNat_toUInt8,
    UInt16.toNat_shiftRight]
  have shift : value.toNat >>> (UInt16.toNat 8 % 16) = value.toNat / 256 := by
    rw [Nat.shiftRight_eq_div_pow]
    rfl
  rw [shift]
  omega

theorem checksum_toNat (bytes : List UInt8) : (checksum bytes).toNat = 65535 - sum16 bytes := by
  simp only [checksum, UInt16.toNat_ofNat']
  have := sum16_lt bytes
  omega

/-- Writing the checksum computed with a zero field into that field makes the
whole sum come out all ones. -/
theorem sum16_verifies {before after : List UInt8} (even : Even before.length) :
    sum16 (before ++ be16 (checksum (before ++ be16 0 ++ after)) ++ after) = 65535 := by
  have old : total (before ++ be16 0 ++ after) = total before + total after := by
    rw [List.append_assoc, total_append even, total_be16]
    simp
  have new (value : UInt16) : total (before ++ be16 value ++ after) =
      total before + (value.toNat + total after) := by
    rw [List.append_assoc, total_append even, total_be16]
  have residue := sum16_mod (before ++ be16 0 ++ after)
  have zero := sum16_zero (before ++ be16 0 ++ after)
  have below := sum16_lt (before ++ be16 0 ++ after)
  rw [sum16_full, new, checksum_toNat]
  rw [old] at residue zero
  omega

end DeviceDrivers.OnesComplement
