import DeviceDrivers.Kernel.Resources
import DeviceDrivers.Library.SharedTable

/-! The kernel's table of device numbers, which all drivers share. A driver that registers
under a major number takes all of its first 256 minor numbers. -/

namespace DeviceDrivers.Kernel
open Ledger SharedTable

structure Span where
  first : Nat
  count : Nat
  deriving DecidableEq, Repr

def Span.Apart (one other : Span) : Prop := one.first + one.count ≤ other.first ∨ other.first + other.count ≤ one.first

instance (one other : Span) : Decidable (one.Apart other) := inferInstanceAs (Decidable (_ ∨ _))

theorem Span.Apart.symm {one other : Span} (apart : one.Apart other) : other.Apart one := Or.symm apart

def Span.ofMajor (major : Nat) : Span := ⟨mkdev major 0, 256⟩

/-- Major number 0 is nobody's. -/
@[simp] def Resource.span : Resource → Option Span
  | .chrdev major => if major = 0 then none else some (.ofMajor major)
  | .numbers first count => some ⟨first, count⟩
  | _ => none

@[simp] def onNumbers : Event Resource → Option (Event Span)
  | .acquired resource => resource.span.map .acquired
  | .released resource => resource.span.map .released

def numbersConduct {ω ν : Type} (component : Component ω ν Resource) (outcomes : ω) : Conduct Span :=
  let begun := component.init outcomes
  ⟨begun.value.1, begun.events.filterMap onNumbers, (component.exit begun.value.2).events.filterMap onNumbers⟩

structure Major where
  number : Nat
  positive : 0 < number

/-- `register_chrdev` asked for major number 0 returns the one it found. -/
@[simp] def registerAnyChrdev : Except Errno Major → Logged Resource Int
  | .ok major => do
    acquire (.chrdev major.number)
    pure major.number
  | .error errno => pure (Errno.code (some errno))

end DeviceDrivers.Kernel
