import DeviceDrivers.Kernel.Resources

/-! How the drivers of the parallel and serial ports are loaded and unloaded. What they
do with the ports meanwhile is not part of it. -/

namespace DeviceDrivers.PortIo
open Ledger Kernel

/-- How the calls of a load turn out, for the drivers that make them. -/
structure Outcomes where
  register : Failure := none
  cdevAdd : Failure := none
  check : Failure := none
  region : Bool := true
  irq : Failure := none
  deriving DecidableEq, Repr

def parlelportMajor : Nat := 61

namespace Interrupt3

def irq7 : Nat := 7

def parlelportExit (port : Int) : Logged Resource Unit := do
  unregisterChrdev parlelportMajor
  if port = 0 then releaseRegion 0x378 1
  freeIrq irq7

/-- The result, and `port`. A refused region or interrupt does not stop the load. -/
def parlelportInit (outcomes : Outcomes) : Logged Resource (Int × Int) := do
  let result ← registerChrdev parlelportMajor outcomes.register
  if result < 0 then pure (result, 0)
  else
    let port ← checkRegion outcomes.check
    if port ≠ 0 then
      parlelportExit port
      pure (port, port)
    else
      let _ ← requestRegion 0x378 3 outcomes.region
      let _ ← requestIrq irq7 outcomes.irq
      pure (0, port)

/-- `interrupt3/parlelport.c`. -/
def driver : Component Outcomes Int Resource := ⟨parlelportInit, parlelportExit⟩

end Interrupt3

namespace Parport

def parlelportExit (port : Int) : Logged Resource Unit := do
  unregisterChrdev parlelportMajor
  if port = 0 then releaseRegion 0x378 1

def parlelportInit (outcomes : Outcomes) : Logged Resource (Int × Int) := do
  let result ← registerChrdev parlelportMajor outcomes.register
  if result < 0 then pure (result, 0)
  else
    let port ← checkRegion outcomes.check
    if port ≠ 0 then
      parlelportExit port
      pure (port, port)
    else
      let _ ← requestRegion 0x378 1 outcomes.region
      pure (0, port)

/-- `Parport/parlelport.c`. -/
def driver : Component Outcomes Int Resource := ⟨parlelportInit, parlelportExit⟩

end Parport

namespace Serial

def shortBase : Nat := 0x3f8

def mydev : Nat := mkdev 255 0

def charDeviceInit (outcomes : Outcomes) : Logged Resource (Int × Unit) := do
  let result ← registerChrdevRegion mydev 1 outcomes.register
  if result < 0 then pure (-1, ())
  else
    let result ← cdevAdd outcomes.cdevAdd
    if result < 0 then pure (-1, ())
    else
      let _ ← requestRegion shortBase 8 outcomes.region
      let _ ← requestIrq 4 outcomes.irq
      pure (0, ())

def charDeviceExit : Logged Resource Unit := do
  unregisterChrdevRegion mydev 1
  cdevDel
  releaseRegion shortBase 8
  freeIrq 4

/-- `serial.c`. -/
def driver : Component Outcomes Unit Resource := ⟨charDeviceInit, fun _ => charDeviceExit⟩

end Serial

end DeviceDrivers.PortIo
