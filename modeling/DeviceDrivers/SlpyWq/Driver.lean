import DeviceDrivers.Library.Interleavings

/-! The sleepy device whose writes schedule work, and whose work starts a timer that
starts itself again. -/

namespace DeviceDrivers.SlpyWq
open Interleavings

/-- The two functions that arm the timer. -/
inductive Callback where
  | wqFunc
  | whee
  deriving DecidableEq, Repr

inductive Presence where
  | live
  | going
  | gone
  deriving DecidableEq, Repr

/-- The flag for the readers, whether the kernel holds the work and the timer for
later, and how often `add_timer` has been called on a timer that was pending. -/
structure State where
  presence : Presence := .live
  dataPresent : Int := 0
  workPending : Bool := false
  timerPending : Bool := false
  misused : Nat := 0
  deriving DecidableEq, Repr

/-- The statements of `sleepy_read`, `sleepy_write`, the two callbacks and
`slpy_cleanup_module`. The callbacks also fill in the timer's fields; the timer may
expire at any time here, whatever they say. -/
inductive Point where
  | wait
  | schedule (count : Nat)
  | setPresent (count : Nat)
  | wakeUp (count : Nat)
  | addTimer (callback : Callback)
  | delTimerSync
  | flushScheduledWork
  | unregister
  deriving DecidableEq, Repr

/-- The call is one of the file methods, which keep the module from being unloaded. -/
def Point.method : Point → Bool
  | .wait | .schedule _ | .setPresent _ | .wakeUp _ => true
  | _ => false

def Point.runs (callback : Callback) : Point → Bool
  | .addTimer other => other = callback
  | _ => false

/-- `add_timer` leaves a pending timer pending. -/
def State.addTimer (s : State) : State :=
  { s with timerPending := true, misused := if s.timerPending then s.misused + 1 else s.misused }

/-- `schedule_work` does nothing while the work is pending. Callbacks return nothing. -/
def Point.step (s : State) : Point → Option (Progress Point × State)
  | .wait => if s.dataPresent = 1 then some (.returned 0, s) else none
  | .schedule count => some (.next (.setPresent count), { s with workPending := true })
  | .setPresent count => some (.next (.wakeUp count), { s with dataPresent := 1 })
  | .wakeUp count => some (.returned count, s)
  | .addTimer _ => some (.returned 0, s.addTimer)
  | .delTimerSync => some (.next .flushScheduledWork, { s with timerPending := false })
  | .flushScheduledWork => some (.next .unregister, s)
  | .unregister => some (.returned 0, { s with presence := .gone })

abbrev Machine := System State Point

def Machine.running (m : Machine) (callback : Callback) : Bool := m.calls.any (Point.runs callback)

/-- `del_timer_sync` waits for the timer's handler, `flush_scheduled_work` for the work. -/
def Point.waits (m : Machine) : Point → Bool
  | .delTimerSync => m.running .whee
  | .flushScheduledWork => m.shared.workPending || m.running .wqFunc
  | _ => false

/-- `-ERESTARTSYS`, from a wait that a signal has ended. -/
def Point.interrupt (s : State) : Point → Option (Progress Point × State)
  | .wait => some (.returned (-512), s)
  | _ => none

/-- `work` and `expire` are the kernel starting the callbacks. -/
inductive Action where
  | read
  | write (count : Nat)
  | signal (index : Nat)
  | work
  | expire
  | unload
  | run (index : Nat)
  deriving DecidableEq, Repr

/-- The work is no longer pending once it is started, nor is the timer. While a file
is in use the module is not unloaded, and once it is being unloaded none is opened. -/
def Machine.step (m : Machine) : Action → Option Machine
  | .read => if m.shared.presence = .live then some (m.start .wait) else none
  | .write count => if m.shared.presence = .live then some (m.start (.schedule count)) else none
  | .signal index => m.run (fun s point => point.interrupt s) index
  | .work =>
    if m.shared.workPending then
      some { m.start (.addTimer .wqFunc) with shared := { m.shared with workPending := false } }
    else none
  | .expire =>
    if m.shared.timerPending then
      some { m.start (.addTimer .whee) with shared := { m.shared with timerPending := false } }
    else none
  | .unload =>
    if m.shared.presence = .live ∧ ∀ call ∈ m.calls, call.method = false then
      some { m.start .delTimerSync with shared := { m.shared with presence := .going } }
    else none
  | .run index =>
    if (m.calls[index]?).any (Point.waits m) then none else m.run (fun s point => point.step s) index

/-- After `INIT_WORK` and `init_timer`. -/
def loaded : Machine := ⟨{}, []⟩

end DeviceDrivers.SlpyWq
