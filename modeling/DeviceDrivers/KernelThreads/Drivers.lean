import DeviceDrivers.Library.Runs

/-! Two modules that keep a kernel thread, which prints a message and sleeps on a
timeout in turn until it is told to stop. -/

namespace DeviceDrivers.KernelThreads

inductive Driver where
  | kt
  | sleepWait
  deriving DecidableEq, Repr

inductive TaskState where
  | running
  | interruptible
  deriving DecidableEq, Repr

/-- The statements of the thread. `start` is the kernel's, which looks whether the thread
is to stop before it calls the function at all; `armTimer`, `sleep` and `delTimer` are
those of `schedule_timeout`. -/
inductive ThreadPoint where
  | start
  | print
  | setState
  | armTimer
  | sleep
  | delTimer
  | schedule
  | shouldStop
  | leave
  | exited
  deriving DecidableEq, Repr

/-- How far `my_exit` has got, whose one statement is `kthread_stop`. -/
inductive Exit where
  | notCalled
  | setStop
  | wakeUp
  | wait
  | returned
  deriving DecidableEq, Repr

structure State where
  thread : ThreadPoint := .start
  exit : Exit := .notCalled
  task : TaskState := .running
  stop : Bool := false
  timer : Bool := false
  messages : Nat := 0
  deriving DecidableEq, Repr

/-- Without its thread the module is not loaded. -/
def myInit (created : Bool) : Option State := if created then some {} else none

/-- A task that is not running sleeps in `schedule` until something makes it run. Only
`kt` calls it again behind the timeout, and then the task is running. -/
def mySenderThread (driver : Driver) (s : State) : Option State :=
  match s.thread with
  | .start => some { s with thread := if s.stop then .leave else .print }
  | .print => some { s with thread := .setState, messages := s.messages + 1 }
  | .setState => some { s with thread := .armTimer, task := .interruptible }
  | .armTimer => some { s with thread := .sleep, timer := true }
  | .sleep => if s.task = .running then some { s with thread := .delTimer } else none
  | .delTimer => some { s with thread := if driver = .kt then .schedule else .shouldStop, timer := false }
  | .schedule => if s.task = .running then some { s with thread := .shouldStop } else none
  | .shouldStop => some { s with thread := if s.stop then .leave else .print }
  | .leave => some { s with thread := .exited }
  | .exited => none

/-- `kthread_stop` waits for the thread to be gone. -/
def myExit (s : State) : Option State :=
  match s.exit with
  | .notCalled | .returned => none
  | .setStop => some { s with exit := .wakeUp, stop := true }
  | .wakeUp => some { s with exit := .wait, task := .running }
  | .wait => if s.thread = .exited then some { s with exit := .returned } else none

inductive Action where
  | thread
  | unload
  | exit
  | expire
  deriving DecidableEq, Repr

/-- The timeout's timer wakes the task when it expires. -/
def State.step (driver : Driver) (s : State) : Action → Option State
  | .thread => mySenderThread driver s
  | .unload => if s.exit = .notCalled then some { s with exit := .setStop } else none
  | .exit => myExit s
  | .expire => if s.timer then some { s with timer := false, task := .running } else none

end DeviceDrivers.KernelThreads
