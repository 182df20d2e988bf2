import DeviceDrivers.Kernel.DeviceNumbers
import DeviceDrivers.PortIo.Drivers

/-! How the other character drivers are loaded and unloaded. Those with a `cdev` return
without giving the number back where `cdev_add` fails. -/

namespace DeviceDrivers.CharDevices
open Ledger Kernel

/-- How the calls of a load turn out, for the drivers that make them. -/
structure Outcomes where
  register : Failure := none
  alloc : Except Errno Nat := .ok 0
  major : Except Errno Major := .ok ⟨254, by decide⟩
  cdevAdd : Failure := none
  kmalloc : Bool := true
  procCreate : Bool := true

def addCdev (first : Nat) (outcomes : Outcomes) : Logged Resource (Int × Nat) := do
  let result ← cdevAdd outcomes.cdevAdd
  if result < 0 then pure (-1, first) else pure (0, first)

/-- `CharDevice_init` where the number is the driver's own choice. -/
def addChosen (first : Nat) (outcomes : Outcomes) : Logged Resource (Int × Nat) := do
  let result ← registerChrdevRegion first 1 outcomes.register
  if result < 0 then pure (-1, first) else addCdev first outcomes

/-- `CharDevice_init` where the kernel chooses it. -/
def addAllocated (count : Nat) (outcomes : Outcomes) : Logged Resource (Int × Nat) := do
  let allocated ← allocChrdevRegion count outcomes.alloc
  if allocated.2 < 0 then pure (-1, allocated.1) else addCdev allocated.1 outcomes

def removeCdev (count first : Nat) : Logged Resource Unit := do
  unregisterChrdevRegion first count
  cdevDel

namespace RegisterChrdev

def mydev : Nat := mkdev 255 0

def charDeviceInit (outcomes : Outcomes) : Logged Resource (Int × Nat) := addChosen mydev outcomes

/-- The exit function computes the number again. -/
def charDeviceExit (_ : Nat) : Logged Resource Unit := removeCdev 1 mydev

/-- `register_chrdev/CharDriver.c`. -/
def driver : Component Outcomes Nat Resource := ⟨charDeviceInit, charDeviceExit⟩

end RegisterChrdev

namespace Clock

def mydev : Nat := mkdev 255 0

def charDeviceInit (outcomes : Outcomes) : Logged Resource (Int × Nat) := addChosen mydev outcomes

def charDeviceExit (_ : Nat) : Logged Resource Unit := removeCdev 1 mydev

/-- `clock.c`. -/
def driver : Component Outcomes Nat Resource := ⟨charDeviceInit, charDeviceExit⟩

end Clock

namespace DynamicCdd

def charDeviceInit (outcomes : Outcomes) : Logged Resource (Int × Nat) := addAllocated 1 outcomes

def charDeviceExit (mydev : Nat) : Logged Resource Unit := removeCdev 1 mydev

/-- `dynamic_cdd/CharDriver.c`. -/
def driver : Component Outcomes Nat Resource := ⟨charDeviceInit, charDeviceExit⟩

end DynamicCdd

namespace Ioctl

def charDeviceInit (outcomes : Outcomes) : Logged Resource (Int × Nat) := addAllocated 1 outcomes

def charDeviceExit (mydev : Nat) : Logged Resource Unit := removeCdev 1 mydev

/-- `ioctl.c`. -/
def driver : Component Outcomes Nat Resource := ⟨charDeviceInit, charDeviceExit⟩

end Ioctl

namespace Calculator

def charDeviceInit (outcomes : Outcomes) : Logged Resource (Int × Nat) := addAllocated 4 outcomes

def charDeviceExit (mydev : Nat) : Logged Resource Unit := removeCdev 4 mydev

/-- `CalculatorDriver.c`. -/
def driver : Component Outcomes Nat Resource := ⟨charDeviceInit, charDeviceExit⟩

end Calculator

namespace Memory

def memoryMajor : Nat := 61

def memoryExit : Logged Resource Unit := unregisterChrdev memoryMajor

def memoryInit (outcomes : Outcomes) : Logged Resource (Int × Unit) := do
  let result ← registerChrdev memoryMajor outcomes.register
  if result < 0 then pure (result, ())
  else if outcomes.kmalloc then pure (0, ())
  else
    memoryExit
    pure (-12, ())

/-- `memory.c`. -/
def driver : Component Outcomes Unit Resource := ⟨memoryInit, fun _ => memoryExit⟩

end Memory

namespace Slpy

def slpyInit (outcomes : Outcomes) : Logged Resource (Int × Unit) := do
  let result ← registerChrdev 60 outcomes.register
  if result < 0 then pure (-1, ()) else pure (0, ())

def slpyExit : Logged Resource Unit := unregisterChrdev 60

/-- `slpy.c`. -/
def driver : Component Outcomes Unit Resource := ⟨slpyInit, fun _ => slpyExit⟩

end Slpy

namespace SlpyProc

/-- The result, and `sleepy_major`. -/
def slpyInitModule (outcomes : Outcomes) : Logged Resource (Int × Int) := do
  let result ← registerAnyChrdev outcomes.major
  if result < 0 then pure (result, 0)
  else if outcomes.procCreate then pure (0, result)
  else
    unregisterChrdev result.toNat
    pure (-12, result)

def slpyCleanupModule (sleepyMajor : Int) : Logged Resource Unit := unregisterChrdev sleepyMajor.toNat

/-- `slpy-proc-ctrl.c`. -/
def driver : Component Outcomes Int Resource := ⟨slpyInitModule, slpyCleanupModule⟩

end SlpyProc

namespace SlpyWq

def slpyInitModule (outcomes : Outcomes) : Logged Resource (Int × Int) := do
  let result ← registerAnyChrdev outcomes.major
  if result < 0 then pure (result, 0) else pure (0, result)

def slpyCleanupModule (sleepyMajor : Int) : Logged Resource Unit := unregisterChrdev sleepyMajor.toNat

/-- `slpy_wq.c`. -/
def driver : Component Outcomes Int Resource := ⟨slpyInitModule, slpyCleanupModule⟩

end SlpyWq

namespace CddTemp

def charInit (outcomes : Outcomes) : Logged Resource (Int × Unit) := do
  let result ← registerAnyChrdev outcomes.major
  if result < 0 then pure (-1, ()) else pure (0, ())

/-- `MAJOR(temp)`, and `temp` is never assigned. -/
def charExit : Logged Resource Unit := unregisterChrdev 0

/-- `cdd_temp/char.c`. -/
def driver : Component Outcomes Unit Resource := ⟨charInit, fun _ => charExit⟩

end CddTemp

end DeviceDrivers.CharDevices
