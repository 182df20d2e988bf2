import DeviceDrivers.Library.Interleavings

/-! The sleepy device with the control file: reads wait for a flag that writes raise.
With `wake_one` set, a read lowers the flag again, in a statement of its own. -/

namespace DeviceDrivers.SlpyProc
open Interleavings

/-- A read that has found the flag raised: how many writes had raised it by then,
and whether another read was between its wait and its reset. -/
structure Pass where
  event : Nat
  overlapped : Bool
  deriving DecidableEq, Repr

/-- The driver's globals, and what has happened so far: the writes started and the
times the flag was raised, the reads that are past their wait, the passes and the
reads completed, and for each reset of a raised flag the event that the reader had
found and the one it cleared. -/
structure State where
  dataPresent : Int := 0
  wakeOne : Int := 0
  started : Nat := 0
  events : Nat := 0
  inside : Nat := 0
  passes : List Pass := []
  completed : Nat := 0
  cleared : List (Nat × Nat) := []
  deriving DecidableEq, Repr

/-- The statements of `sleepy_read` and `sleepy_write`. A read past its wait knows
the event it found. -/
inductive Point where
  | wait
  | testWakeOne (event : Nat)
  | reset (event : Nat)
  | setPresent (count : Nat)
  | wakeUp (count : Nat)
  deriving DecidableEq, Repr

/-- The waiting read tests its condition whenever it runs, so `wake_up_interruptible`
itself changes nothing here. -/
def Point.step (s : State) : Point → Option (Progress Point × State)
  | .wait =>
    if s.dataPresent = 1 then
      some (.next (.testWakeOne s.events),
        { s with inside := s.inside + 1, passes := s.passes ++ [⟨s.events, 0 < s.inside⟩] })
    else none
  | .testWakeOne event =>
    if s.wakeOne = 0 then some (.returned 0, { s with inside := s.inside - 1, completed := s.completed + 1 })
    else some (.next (.reset event), s)
  | .reset event =>
    some (.returned 0,
      { s with
        dataPresent := 0
        inside := s.inside - 1
        completed := s.completed + 1
        cleared := if s.dataPresent = 0 then s.cleared else s.cleared ++ [(event, s.events)] })
  | .setPresent count => some (.next (.wakeUp count), { s with dataPresent := 1, events := s.events + 1 })
  | .wakeUp count => some (.returned count, s)

/-- `-ERESTARTSYS`, from a wait that a signal has ended. -/
def Point.interrupt (s : State) : Point → Option (Progress Point × State)
  | .wait => some (.returned (-512), s)
  | _ => none

abbrev Machine := System State Point

inductive Action where
  | read
  | write (count : Nat)
  | signal (index : Nat)
  | run (index : Nat)
  deriving DecidableEq, Repr

def Machine.step (m : Machine) : Action → Option Machine
  | .read => some (m.start .wait)
  | .write count => some { m.start (.setPresent count) with shared := { m.shared with started := m.shared.started + 1 } }
  | .signal index => m.run (fun s point => point.interrupt s) index
  | .run index => m.run (fun s point => point.step s) index

def loaded (wakeOne : Int) : Machine := ⟨{ wakeOne := wakeOne }, []⟩

end DeviceDrivers.SlpyProc
