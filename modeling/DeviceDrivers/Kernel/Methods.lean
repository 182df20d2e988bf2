import DeviceDrivers.Kernel.UserMemory
import Mathlib.Algebra.Group.Nat.Defs

/-! The read and write methods that the practice drivers share but for their buffers.
A write copies into `Kbuff` on the stack and makes something of it; a read copies a
fixed number of bytes out. The kernel refuses a count that `ssize_t` cannot hold
before it calls a method. -/

namespace DeviceDrivers.Kernel
open Touches

/-- What a write returned and left of the driver's data, unless it trapped, the bytes of
`Kbuff` that it filled, and those that it used afterwards. -/
structure Written (ρ : Type) (γ : Type) where
  outcome : Option (Int × γ)
  filled : List (Touch ρ)
  used : List (Touch ρ)

/-- The method keeps what `copy_from_user` returns in a `result` of `width` bits. `kbuff` is
not initialised. `-14` is `-EFAULT`. -/
def writeMethod {ρ γ : Type} (kbuff : Block ρ) (width : Nat) (data : γ) (handle : Block ρ → Traced ρ (Option γ))
    (user : UserBuffer) (count : Nat) : Written ρ γ :=
  let filled := copyFromUser kbuff user count
  let (missing, kbuff) := filled.value
  if missing % 2 ^ width = 0 then
    let handled := handle kbuff
    ⟨handled.value.map fun data => (count, data), filled.touches, handled.touches⟩
  else ⟨some (-14, data), filled.touches, []⟩

theorem writeMethod_outcome {ρ γ : Type} (kbuff : Block ρ) (width : Nat) (data : γ)
    (handle : Block ρ → Traced ρ (Option γ)) (user : UserBuffer) (count : Nat) :
    (writeMethod kbuff width data handle user count).outcome =
      if (copyFromUser kbuff user count).value.1 % 2 ^ width = 0 then
        (handle (copyFromUser kbuff user count).value.2).value.map fun data => ((count : Int), data)
      else some (-14, data) := by
  simp only [writeMethod, apply_ite Written.outcome]

def printKbuff {ρ : Type} (kbuff : Block ρ) : Traced ρ (Option Unit) := do
  let _ ← readString kbuff
  pure (some ())

/-- What a read returned, the position it left, and the bytes it stored from the start of
the user's buffer on. -/
structure ReadOut where
  result : Int
  offp : Int
  stored : List UInt8
  deriving DecidableEq, Repr

end DeviceDrivers.Kernel
