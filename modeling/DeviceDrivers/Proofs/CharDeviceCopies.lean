import DeviceDrivers.CharDevices.Drivers
import DeviceDrivers.Calculator.Calls
import Mathlib.Data.List.TakeWhile

/-! How the practice drivers keep to the bytes that their callers hand them. No method
looks at its count before it copies, so each is right for the counts that happen to
suit its buffer, and where a fault stops the copy in time. -/

namespace DeviceDrivers.Kernel
open Touches

/-- A write fills bytes of `Kbuff` only, uses only bytes that the caller supplied, and
reports no more than it was given. -/
structure Written.Contract {ρ γ : Type} (written : Written ρ γ) (count : Nat) : Prop where
  filled : AllInside written.filled
  used : ∀ touch ∈ written.used, touch.first + touch.count ≤ count
  result : ∀ value data, written.outcome = some (value, data) → 0 ≤ value → value ≤ count

/-- A read stores no more bytes than there is room for, and reports no more. -/
structure ReadOut.Contract (out : ReadOut) (count : Nat) : Prop where
  stored : out.stored.length ≤ count
  result : 0 ≤ out.result → out.result ≤ count

section Writes
variable {ρ γ : Type} {kbuff copied : Block ρ} {width count : Nat} {data : γ}
  {handle : Block ρ → Traced ρ (Option γ)} {user : UserBuffer}

private theorem readString_touches (block : Block ρ) : (readString block).touches =
    [⟨block.region, block.size, 0, (block.bytes.takeWhile (· ≠ 0)).length + 1⟩] := rfl

private theorem readString_supplied (complete : (copyFromUser kbuff user count).value = (0, copied)) :
    (copied.bytes.takeWhile (· ≠ 0)).length + 1 ≤ count ↔ ∃ k < count, user.byte k = 0 := by
  have long : (user.bytes 0 count).length = count := by simp [UserBuffer.bytes]
  have short := (List.takeWhile_sublist (p := (· ≠ 0)) (l := user.bytes 0 count)).length_le
  have zero : (∃ k < count, user.byte k = 0) ↔ ¬ (user.bytes 0 count).takeWhile (· ≠ 0) = user.bytes 0 count := by
    rw [List.takeWhile_eq_self_iff]
    simp [UserBuffer.bytes]
  have whole : (user.bytes 0 count).takeWhile (· ≠ 0) = user.bytes 0 count ↔
      ((user.bytes 0 count).takeWhile (· ≠ 0)).length = (user.bytes 0 count).length :=
    ⟨congrArg List.length, (List.takeWhile_prefix _).eq_of_length⟩
  rw [zero, whole, copied_bytes complete, List.takeWhile_append]
  split
  next all =>
    rw [List.length_append]
    omega
  next => omega

/-- A copy that fits the buffer either fails at a fault, or all of it is there to be used. -/
private theorem writeMethod_contract {usable : Prop} (wide : kbuff.size < 2 ^ width)
    (uses : ∀ copied, (copyFromUser kbuff user count).value = (0, copied) →
      ((∀ touch ∈ (handle copied).touches, touch.first + touch.count ≤ count) ↔ usable)) :
    (writeMethod kbuff width data handle user count).Contract count ↔
      count ≤ kbuff.size ∧ ((∃ k < count, user.faults k = true) ∨ usable) := by
  have inside : AllInside (copyFromUser kbuff user count).touches ↔ count ≤ kbuff.size := by
    rw [copyFromUser_touches]
    simp [Touch.Inside]
  by_cases fits : count ≤ kbuff.size
  · rw [and_iff_right fits]
    have few : (copyFromUser kbuff user count).value.1 ≤ count := Nat.sub_le _ _
    have same : (copyFromUser kbuff user count).value.1 % 2 ^ width = (copyFromUser kbuff user count).value.1 :=
      Nat.mod_eq_of_lt (by omega)
    by_cases fault : ∃ k < count, user.faults k = true
    · refine iff_of_true ?_ (.inl fault)
      have missing : (copyFromUser kbuff user count).value.1 ≠ 0 := copyFromUser_missing.mpr fault
      simp only [writeMethod, same, missing, if_false]
      exact ⟨inside.mpr fits, by simp, by simp +contextual⟩
    · have missing : (copyFromUser kbuff user count).value.1 = 0 := by
        by_contra some
        exact fault (copyFromUser_missing.mp some)
      rw [or_iff_right fault, ← uses _ (Prod.ext missing rfl)]
      simp only [writeMethod, missing, Nat.zero_mod, if_true]
      refine ⟨Written.Contract.used, fun supplied => ⟨inside.mpr fits, supplied, ?_⟩⟩
      intro value left outcome _
      obtain ⟨_, _, same⟩ := Option.map_eq_some_iff.mp outcome
      cases same
      exact Int.le_refl _
  · refine iff_of_false (fun contract => ?_) fun both => fits both.1
    have filled := contract.filled
    simp only [writeMethod] at filled
    exact fits (inside.mp (by split at filled <;> exact filled))

private theorem printKbuff_supplied (complete : (copyFromUser kbuff user count).value = (0, copied)) :
    (∀ touch ∈ (printKbuff copied).touches, touch.first + touch.count ≤ count) ↔ ∃ k < count, user.byte k = 0 := by
  rw [← readString_supplied complete]
  simp [printKbuff, readString_touches]

end Writes

section Reads
variable {user : UserBuffer} {bytes : List UInt8} {count : Nat}

/-- A fault that stops a copy of `length` bytes before it runs past the caller's. -/
def Stops (user : UserBuffer) (length count : Nat) : Prop := ∃ k ≤ count, k < length ∧ user.faults k = true

private theorem copyToUser_complete (complete : (copyToUser user bytes).1 = 0) :
    (copyToUser user bytes).2.length ≤ count ↔ bytes.length ≤ count := by
  have all := user.readable_length 0 bytes.length
  simp only [copyToUser, List.length_take] at complete ⊢
  omega

private theorem readOut_contract {out : ReadOut} (bytes : List UInt8) (stored : out.stored = (copyToUser user bytes).2)
    (result : (copyToUser user bytes).2.length ≤ count → 0 ≤ out.result → out.result ≤ count) :
    out.Contract count ↔ bytes.length ≤ count ∨ Stops user bytes.length count := by
  rw [Stops, ← copyToUser_stores, ← stored]
  rw [← stored] at result
  exact ⟨ReadOut.Contract.stored, fun room => ⟨room, result room⟩⟩

end Reads

end DeviceDrivers.Kernel

namespace DeviceDrivers.CharDevices
open Touches Kernel

inductive Driver where
  | dynamicCdd
  | registerChrdev
  | ioctl
  | calculator (op : Calculator.Operation)
  deriving DecidableEq, Repr

namespace Driver

/-- The size of `Kbuff`, and how much of it the write method takes for operands. -/
def size : Driver → Nat
  | dynamicCdd => 120
  | registerChrdev | calculator _ => 80
  | ioctl => 100

def operandBytes : Driver → Nat
  | calculator _ => 8
  | _ => 0

def textBytes : Driver → Nat
  | dynamicCdd => 31
  | registerChrdev | ioctl => 66
  | calculator _ => 4

def WriteMeets (results : Calculator.Globals) (stack : List UInt8) (user : UserBuffer) (count : Nat) : Driver → Prop
  | dynamicCdd => (DynamicCdd.nameWrite stack user count).Contract count
  | registerChrdev => (RegisterChrdev.nameWrite stack user count).Contract count
  | ioctl => (Ioctl.nameWrite stack user count).Contract count
  | calculator op => (Calculator.nameWrite op results stack user count).Contract count

def ReadMeets (results : Calculator.Globals) (user : UserBuffer) (count : Nat) (offp : Int) : Driver → Prop
  | dynamicCdd => (DynamicCdd.nameRead user offp).Contract count
  | registerChrdev => (RegisterChrdev.nameRead user offp).Contract count
  | ioctl => (Ioctl.nameRead user count offp).Contract count
  | calculator op => (Calculator.nameRead op results user offp).Contract count

/-- The bytes fit the buffer, and either one of them faults, or they hold a string and the operands. -/
def WriteFits (user : UserBuffer) (count : Nat) (driver : Driver) : Prop :=
  count ≤ driver.size ∧
    ((∃ k < count, user.faults k = true) ∨ (∃ k < count, user.byte k = 0) ∧ driver.operandBytes ≤ count)

/-- There is room for all that is copied out, or a fault stops the copy and the method takes note of it. -/
def ReadFits (user : UserBuffer) (count : Nat) (offp : Int) (driver : Driver) : Prop :=
  driver.textBytes ≤ count ∨ (driver = registerChrdev → 0 < offp) ∧ Stops user driver.textBytes count

variable {results : Calculator.Globals} {stack : List UInt8} {user : UserBuffer} {count : Nat} {offp : Int}

private theorem writeMeets_iff (driver : Driver) :
    driver.WriteMeets results stack user count ↔ driver.WriteFits user count := by
  cases driver with
  | dynamicCdd | registerChrdev | ioctl =>
    refine writeMethod_contract (by simp) fun copied complete => ?_
    rw [printKbuff_supplied complete]
    exact (and_iff_left (Nat.zero_le _)).symm
  | calculator op =>
    refine writeMethod_contract (by simp) fun copied complete => ?_
    rw [← readString_supplied complete]
    simp [Calculator.handle, Calculator.operands, readString_touches, operandBytes]
    omega

private theorem dynamicCdd_read : (DynamicCdd.nameRead user offp).Contract count ↔
    31 ≤ count ∨ Stops user 31 count := by
  have out : DynamicCdd.nameRead user offp =
      if (copyToUser user DynamicCdd.kbuff).1 = 0 then
        if offp = 0 then ⟨31, 31, (copyToUser user DynamicCdd.kbuff).2⟩
        else ⟨0, offp, (copyToUser user DynamicCdd.kbuff).2⟩
      else ⟨-14, offp, (copyToUser user DynamicCdd.kbuff).2⟩ := rfl
  refine readOut_contract DynamicCdd.kbuff ?_ fun room => ?_
  · rw [out]
    split
    · split <;> rfl
    · rfl
  · rw [out]
    split
    next complete =>
      have whole : 31 ≤ count := (copyToUser_complete complete).mp room
      split
      next => exact fun _ => Int.ofNat_le.mpr whole
      next => exact fun _ => Int.natCast_nonneg count
    next => simp

private theorem ioctl_read : (Ioctl.nameRead user count offp).Contract count ↔ 66 ≤ count ∨ Stops user 66 count := by
  have out : Ioctl.nameRead user count offp =
      if (copyToUser user Ioctl.kbuff).1 = 0 then ⟨count, offp, (copyToUser user Ioctl.kbuff).2⟩
      else ⟨-14, offp, (copyToUser user Ioctl.kbuff).2⟩ := rfl
  refine readOut_contract Ioctl.kbuff ?_ fun _ => ?_
  · rw [out]
    split <;> rfl
  · rw [out]
    split
    next => exact fun _ => Int.le_refl _
    next => simp

private theorem registerChrdev_read : (RegisterChrdev.nameRead user offp).Contract count ↔
    66 ≤ count ∨ 0 < offp ∧ Stops user 66 count := by
  have out : RegisterChrdev.nameRead user offp =
      if 0 < offp then ⟨0, offp, (copyToUser user RegisterChrdev.kbuff).2⟩
      else ⟨66, 66, (copyToUser user RegisterChrdev.kbuff).2⟩ := rfl
  rw [out]
  split
  next later =>
    rw [and_iff_right later]
    exact readOut_contract RegisterChrdev.kbuff rfl fun _ _ => Int.natCast_nonneg count
  next first =>
    rw [or_iff_left fun both => first both.1]
    constructor
    · intro contract
      exact Int.ofNat_le.mp (contract.result (by simp))
    · intro whole
      exact ⟨copyToUser_stores.mpr (.inl whole), fun _ => Int.ofNat_le.mpr whole⟩

private theorem readMeets_iff (driver : Driver) :
    driver.ReadMeets results user count offp ↔ driver.ReadFits user count offp := by
  cases driver with
  | dynamicCdd =>
    rw [ReadFits, and_iff_right (by simp)]
    exact dynamicCdd_read
  | registerChrdev =>
    rw [ReadFits, imp_iff_right rfl]
    exact registerChrdev_read
  | ioctl =>
    rw [ReadFits, and_iff_right (by simp)]
    exact ioctl_read
  | calculator op =>
    rw [ReadFits, and_iff_right (by simp)]
    refine readOut_contract (intBytes (results op)) rfl ?_
    exact fun _ _ => Int.natCast_nonneg count

end Driver

/-- Each method of each driver keeps to its caller's bytes, for any count, position,
data and faults, exactly if the count fits what the method does regardless of it. -/
theorem user_copies_iff (driver : Driver) (results : Calculator.Globals) (stack : List UInt8) (user : UserBuffer)
    (count : Nat) (offp : Int) :
    (driver.WriteMeets results stack user count ↔ driver.WriteFits user count) ∧
      (driver.ReadMeets results user count offp ↔ driver.ReadFits user count offp) :=
  ⟨driver.writeMeets_iff, driver.readMeets_iff⟩

/-- A write of 81 bytes to a buffer of 80. -/
theorem write_past_kbuff : ¬ ∀ (driver : Driver) (results : Calculator.Globals) (stack : List UInt8) (user : UserBuffer)
    (count : Nat) (offp : Int), driver.WriteMeets results stack user count ∧ driver.ReadMeets results user count offp := by
  intro claim
  have write := (claim .registerChrdev (fun _ => 0) [] { byte := fun _ => 0 } 81 0).1
  have fits := (Driver.writeMeets_iff _).mp write
  exact absurd fits.1 (by decide)

end DeviceDrivers.CharDevices
