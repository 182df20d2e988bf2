import DeviceDrivers.Library.WaitQueues

/-! The sleepy device that only knows one event: a write raises the flag for good. -/

namespace DeviceDrivers.Slpy
open Interleavings WaitQueues

structure State where
  dataPresent : Int := 0
  deriving DecidableEq, Repr

inductive Point where
  | test
  | wait
  | setPresent (len : Nat)
  | wakeUp (len : Nat)
  deriving DecidableEq, Repr

def Point.step (s : State) : Point → Option (Progress Point × State)
  | .test => some (if s.dataPresent = 0 then .next .wait else .returned 0, s)
  | .wait => if s.dataPresent = 1 then some (.returned 0, s) else none
  | .setPresent len => some (.next (.wakeUp len), { s with dataPresent := 1 })
  | .wakeUp len => some (.returned len, s)

inductive Method where
  | read
  | write (len : Nat)
  deriving DecidableEq, Repr

/-- `wait_event` is not ended by signals. -/
def program : Program State Point Method where
  enter s
    | .read => some ([.test], s)
    | .write len => some ([.setPresent len], s)
  step := Point.step
  ready s := s.dataPresent = 1
  waits point := point = .wait
  wakes
    | .wakeUp _ => true
    | _ => false
  interrupted _ := none

end DeviceDrivers.Slpy
