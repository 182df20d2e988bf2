import DeviceDrivers.Kernel.Resources
import DeviceDrivers.VideoRam.Driver

/-! Two drivers that create their own device files, each with a ladder of steps to undo
where a later one fails. -/

namespace DeviceDrivers.DeviceFiles
open Ledger Kernel

/-- How the calls of a load turn out; `devfile` maps no memory. -/
structure Outcomes where
  ioremap : Bool := true
  alloc : Except Errno Nat := .ok 0
  classCreate : Failure := none
  deviceCreate : Failure := none
  cdevAdd : Failure := none

/-- The globals `first` and `cl`, and what became of the device in between. -/
structure Globals where
  first : Nat
  cl : Pointer
  device : Pointer
  deriving DecidableEq, Repr

def unset : Globals := ⟨0, .null, .null⟩

def createDeviceFile (first : Nat) (outcomes : Outcomes) : Logged Resource (Int × Globals) := do
  let cl ← classCreate outcomes.classCreate
  if cl = .null then
    unregisterChrdevRegion first 1
    pure (-1, unset)
  else
    let device ← deviceCreate cl first outcomes.deviceCreate
    if device = .null then
      classDestroy cl
      unregisterChrdevRegion first 1
      pure (-1, unset)
    else
      let added ← cdevAdd outcomes.cdevAdd
      if added = -1 then
        deviceDestroy cl first device
        classDestroy cl
        unregisterChrdevRegion first 1
        pure (-1, unset)
      else pure (0, ⟨first, cl, device⟩)

def removeDeviceFile (globals : Globals) : Logged Resource Unit := do
  cdevDel
  deviceDestroy globals.cl globals.first globals.device
  classDestroy globals.cl
  unregisterChrdevRegion globals.first 1

namespace Devfile

def devfileInit (outcomes : Outcomes) : Logged Resource (Int × Globals) := do
  let (first, allocated) ← allocChrdevRegion 1 outcomes.alloc
  if allocated < 0 then pure (-1, unset) else createDeviceFile first outcomes

def devfileExit (globals : Globals) : Logged Resource Unit := removeDeviceFile globals

/-- `devicefile_auto/devfile.c`. -/
def driver : Component Outcomes Globals Resource := ⟨devfileInit, devfileExit⟩

end Devfile

namespace Vram

def vramBase : Nat := 0xc0000000

/-- Nothing unmaps the window where a later step fails. -/
def vramInit (outcomes : Outcomes) : Logged Resource (Int × Globals) := do
  let vram ← ioremap vramBase VideoRam.vramSize outcomes.ioremap
  if vram = .null then pure (-1, unset)
  else
    let (first, allocated) ← allocChrdevRegion 1 outcomes.alloc
    if allocated < 0 then pure (-1, unset) else createDeviceFile first outcomes

def vramExit (globals : Globals) : Logged Resource Unit := do
  removeDeviceFile globals
  iounmap vramBase VideoRam.vramSize

/-- `iomemory/video_ram.c`. -/
def driver : Component Outcomes Globals Resource := ⟨vramInit, vramExit⟩

end Vram

end DeviceDrivers.DeviceFiles
