import DeviceDrivers.PortIo.Drivers
import DeviceDrivers.Library.Runs

/-! Three modules that leave work for later: two have a tasklet that their interrupt
handlers schedule, one has a timer. -/

namespace DeviceDrivers.BottomHalves
open Kernel PortIo

inductive IsrStatement where
  | count
  | taskletSchedule
  deriving DecidableEq, Repr

/-- `free_irq` takes the handler off the line, and then waits in `synchronize_irq`. -/
inductive ExitStatement where
  | unregisterChrdev
  | outb
  | releaseRegion
  | freeIrq
  | synchronizeIrq
  | delTimer
  deriving DecidableEq, Repr

inductive Exit where
  | notCalled
  | running (rest : List ExitStatement)
  | returned
  deriving DecidableEq, Repr

/-- What the kernel holds for a module, and what is running: of the handler and the exit
function with the statements that are left. The functions of the tasklet and the timer
only print. -/
structure State where
  irq : Bool := false
  counter : Nat := 0
  handler : Option (List IsrStatement) := none
  scheduled : Bool := false
  tasklet : Bool := false
  timerPending : Bool := false
  timer : Bool := false
  exit : Exit := .notCalled
  deriving DecidableEq, Repr

namespace Interrupt2

def handler : List IsrStatement := [.count, .taskletSchedule]

/-- Without the interrupt the module is not loaded. -/
def initModule (outcomes : Outcomes) : Option State :=
  if Errno.code outcomes.irq = 0 then some { irq := true } else none

def cleanupModule : List ExitStatement := [.freeIrq]

end Interrupt2

namespace Interrupt3

def myIntHandler : List IsrStatement := [.taskletSchedule, .count]

def parlelportExit (port : Int) : List ExitStatement :=
  [.unregisterChrdev, .outb] ++ (if port = 0 then [.releaseRegion] else []) ++ [.freeIrq]

/-- Without its ports the module calls the exit function itself, without the interrupt it
is loaded all the same. -/
def parlelportInit (outcomes : Outcomes) : Option State :=
  if Errno.code outcomes.register < 0 then none
  else
    let port := Errno.code outcomes.check
    if port ≠ 0 then some { exit := .running (parlelportExit port) }
    else some { irq := Errno.code outcomes.irq = 0 }

end Interrupt3

namespace KernelTimer

def myInit : State := { timerPending := true }

def myExit : List ExitStatement := [.delTimer]

end KernelTimer

inductive Demo where
  | interrupt2
  | interrupt3
  | kernelTimer
  deriving DecidableEq, Repr

namespace Demo

def init : Demo → Outcomes → Option State
  | .interrupt2, outcomes => Interrupt2.initModule outcomes
  | .interrupt3, outcomes => Interrupt3.parlelportInit outcomes
  | .kernelTimer, _ => some KernelTimer.myInit

def handler : Demo → List IsrStatement
  | .interrupt2 => Interrupt2.handler
  | .interrupt3 => Interrupt3.myIntHandler
  | .kernelTimer => []

/-- The global `port` is 0 in a module that has been loaded. -/
def exit : Demo → List ExitStatement
  | .interrupt2 => Interrupt2.cleanupModule
  | .interrupt3 => Interrupt3.parlelportExit 0
  | .kernelTimer => KernelTimer.myExit

end Demo

/-- The hardware and the kernel start the callbacks. Everything else is a statement of one of
the functions, or its return. -/
inductive Action where
  | interrupt
  | isr (statement : IsrStatement)
  | handled
  | startTasklet
  | taskletEnd
  | expire
  | timerEnd
  | unload
  | exit
  deriving DecidableEq, Repr

def State.isr (s : State) : IsrStatement → State
  | .count => { s with counter := s.counter + 1 }
  | .taskletSchedule => { s with scheduled := true }

/-- `del_timer` removes a pending timer, and does not wait for its function. -/
def State.exitStep (s : State) : ExitStatement → List ExitStatement → Option State
  | .freeIrq, rest => some { s with irq := false, exit := .running (.synchronizeIrq :: rest) }
  | .synchronizeIrq, rest => if s.handler = none then some { s with exit := .running rest } else none
  | .delTimer, rest => some { s with timerPending := false, exit := .running rest }
  | _, rest => some { s with exit := .running rest }

/-- A handler is not started again while it runs, nor is a tasklet. One that runs can be
scheduled. No function of a module is run once it is unloaded. -/
def Demo.step (demo : Demo) (s : State) (action : Action) : Option State :=
  if s.exit = .returned then none
  else
    match action with
    | .interrupt => if s.irq ∧ s.handler = none then some { s with handler := some demo.handler } else none
    | .isr statement =>
      match s.handler with
      | some (next :: rest) => if statement = next then some { s.isr statement with handler := some rest } else none
      | _ => none
    | .handled => if s.handler = some [] then some { s with handler := none } else none
    | .startTasklet => if s.scheduled ∧ ¬ s.tasklet then some { s with scheduled := false, tasklet := true } else none
    | .taskletEnd => if s.tasklet then some { s with tasklet := false } else none
    | .expire => if s.timerPending then some { s with timerPending := false, timer := true } else none
    | .timerEnd => if s.timer then some { s with timer := false } else none
    | .unload => if s.exit = .notCalled then some { s with exit := .running demo.exit } else none
    | .exit =>
      match s.exit with
      | .running (statement :: rest) => s.exitStep statement rest
      | .running [] => some { s with exit := .returned }
      | _ => none

end DeviceDrivers.BottomHalves
