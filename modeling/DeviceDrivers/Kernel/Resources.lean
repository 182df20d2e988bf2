import DeviceDrivers.Library.Ledger

/-! The calls by which a driver gets hold of device numbers, ports, interrupts and device
files, each with its own way of reporting a failure. -/

namespace DeviceDrivers.Kernel
open Ledger

/-- The reason why a call failed, up to `MAX_ERRNO`. -/
structure Errno where
  number : Nat
  positive : 0 < number
  small : number ≤ 4095
  deriving DecidableEq, Repr

/-- How a call turns out, `none` for success. -/
abbrev Failure := Option Errno

def Errno.code : Failure → Int
  | none => 0
  | some errno => -errno.number

@[simp] theorem Errno.code_none : Errno.code none = 0 := rfl

@[simp] theorem Errno.code_some (errno : Errno) : Errno.code (some errno) < 0 := by
  have positive := errno.positive
  simp only [Errno.code]
  omega

@[simp] theorem Errno.code_eq_zero (outcome : Failure) : Errno.code outcome = 0 ↔ outcome = none := by
  cases outcome with
  | none => simp
  | some errno =>
    have negative := Errno.code_some errno
    simp only [reduceCtorEq, iff_false]
    omega

@[simp] theorem Errno.code_eq_minus_one (errno : Errno) : Errno.code (some errno) = -1 ↔ errno.number = 1 := by
  simp only [Errno.code]
  omega

/-- A pointer that a call returns: a good one, NULL, or one that encodes a reason. -/
inductive Pointer where
  | good
  | null
  | error (errno : Errno)
  deriving DecidableEq, Repr

/-- What the kernel gives out. A device number is `MKDEV` of its parts. -/
inductive Resource where
  | chrdev (major : Nat)
  | numbers (first count : Nat)
  | cdev
  | region (start length : Nat)
  | irq (line : Nat)
  | mapping (start length : Nat)
  | deviceClass
  | device (number : Nat)
  deriving DecidableEq, Repr

def mkdev (major minor : Nat) : Nat := major <<< 20 ||| minor

def request (resource : Resource) : Failure → Logged Resource Int
  | none => do
    acquire resource
    pure 0
  | some errno => pure (Errno.code (some errno))

@[simp] theorem request_granted (resource : Resource) : request resource none = ⟨0, [.acquired resource]⟩ := rfl

@[simp] theorem request_refused (resource : Resource) (errno : Errno) :
    request resource (some errno) = ⟨Errno.code (some errno), []⟩ := rfl

@[simp] def registerChrdev (major : Nat) : Failure → Logged Resource Int := request (.chrdev major)
@[simp] def unregisterChrdev (major : Nat) : Logged Resource Unit := release (.chrdev major)

@[simp] def registerChrdevRegion (first count : Nat) : Failure → Logged Resource Int := request (.numbers first count)
@[simp] def unregisterChrdevRegion (first count : Nat) : Logged Resource Unit := release (.numbers first count)

/-- The number that was found, and what the call returns. -/
@[simp] def allocChrdevRegion (count : Nat) : Except Errno Nat → Logged Resource (Nat × Int)
  | .ok first => do
    acquire (.numbers first count)
    pure (first, 0)
  | .error errno => pure (0, Errno.code (some errno))

@[simp] def cdevAdd : Failure → Logged Resource Int := request .cdev
@[simp] def cdevDel : Logged Resource Unit := release .cdev

/-- `check_region` takes nothing. -/
@[simp] def checkRegion (outcome : Failure) : Logged Resource Int := pure (Errno.code outcome)

/-- The pointer is NULL unless the region was free. -/
@[simp] def requestRegion (start length : Nat) (free : Bool) : Logged Resource Pointer := do
  if free then
    acquire (.region start length)
    pure .good
  else pure .null

@[simp] def releaseRegion (start length : Nat) : Logged Resource Unit := release (.region start length)

@[simp] def requestIrq (line : Nat) : Failure → Logged Resource Int := request (.irq line)
@[simp] def freeIrq (line : Nat) : Logged Resource Unit := release (.irq line)

@[simp] def ioremap (start length : Nat) (mapped : Bool) : Logged Resource Pointer := do
  if mapped then
    acquire (.mapping start length)
    pure .good
  else pure .null

@[simp] def iounmap (start length : Nat) : Logged Resource Unit := release (.mapping start length)

@[simp] def classCreate : Failure → Logged Resource Pointer
  | none => do
    acquire .deviceClass
    pure .good
  | some errno => pure (.error errno)

/-- An error pointer is ignored. -/
@[simp] def classDestroy : Pointer → Logged Resource Unit
  | .good => release .deviceClass
  | _ => pure ()

def enodev : Errno := ⟨19, by decide, by decide⟩

/-- There is no device of a class that was not created. -/
def deviceCreate (cl : Pointer) (number : Nat) (outcome : Failure) : Logged Resource Pointer :=
  match cl, outcome with
  | .good, none => do
    acquire (.device number)
    pure .good
  | .good, some errno => pure (.error errno)
  | _, _ => pure (.error enodev)

/-- The device is looked up in its class and may not be there. The class has to be one: the
real call follows the pointer, so with an error pointer it faults; here it releases a device. -/
def deviceDestroy (cl : Pointer) (number : Nat) (device : Pointer) : Logged Resource Unit :=
  match cl, device with
  | .good, .good => release (.device number)
  | .good, _ => pure ()
  | _, _ => release (.device number)

end DeviceDrivers.Kernel
