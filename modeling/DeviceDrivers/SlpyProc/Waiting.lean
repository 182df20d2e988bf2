import DeviceDrivers.SlpyProc.Control
import DeviceDrivers.Library.WaitQueues

/-! The sleepy device with the control file over its wait queue. -/

namespace DeviceDrivers.SlpyProc
open Interleavings WaitQueues Kernel

inductive Method where
  | read
  | write (count : Nat)
  | procWrite (stack : List UInt8) (user : UserBuffer) (count : Nat)

/-- A string written to the proc entry takes effect in one step. -/
def program : Program State Point Method where
  enter s
    | .read => some ([.wait], s)
    | .write count => some ([.setPresent count], { s with started := s.started + 1 })
    | .procWrite stack user count => some ([], (writeWakeOne stack s user count).value.2)
  step := Point.step
  ready s := s.dataPresent = 1
  waits point := point = .wait
  wakes
    | .wakeUp _ => true
    | _ => false
  interrupted
    | .wait => some (-512)
    | _ => none

end DeviceDrivers.SlpyProc
