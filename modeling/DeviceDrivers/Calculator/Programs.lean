import DeviceDrivers.Calculator.Driver

/-! The programs that come with the calculator, and any number of their processes
at work with the driver. -/

namespace DeviceDrivers.Calculator
open Interleavings Kernel

/-- A program opens the device file of one operation, writes a pair and reads the result.
Its pair is one that all four operations have a result for. -/
structure App where
  minor : Nat
  a : BitVec 32
  b : BitVec 32
  known : minor < 4
  defined : ∀ op : Operation, (op.apply a b).isSome = true
  deriving DecidableEq

/-- `MajorNOScript.sh` gives `/dev/add`, `/dev/sub`, `/dev/mul` and `/dev/div` the minor
numbers 0 to 3; all four programs write 35 and 5. -/
def App.of (minor : Nat) (known : minor < 4) : App :=
  ⟨minor, 35#32, 5#32, known, fun op => by cases op <;> rfl⟩

def App.add : App := .of 0 (by decide)
def App.sub : App := .of 1 (by decide)
def App.mul : App := .of 2 (by decide)
def App.div : App := .of 3 (by decide)

/-- `&addtest`, `&subtest`, `&multest` or `&divtest`. -/
def App.test (app : App) : UserBuffer := { byte := fun i => (intBytes app.a ++ intBytes app.b).getD i 0 }

/-- The lines of `main`, each with the file it is about and the driver's method it is in. -/
inductive Line where
  | open (call : Point)
  | write (fd : Filp) (call : Point)
  | sleep (fd : Filp)
  | read (fd : Filp) (call : Point)
  | printf (fd : Filp)
  | close (call : Point)

/-- A process: the program, `result`, not initialised, and what the kernel's stack will hold where
`Kbuff` comes to lie. -/
structure Process where
  app : App
  result : BitVec 32
  stack : List UInt8
  line : Line

/-- The driver, the programs that have been started, and what they have printed. -/
structure World where
  driver : State := {}
  launched : List App := []
  printed : List (App × BitVec 32) := []

/-- What a step of a read method copies to `&result`. -/
def Point.copiesOut (s : State) : Point → Option (BitVec 32)
  | .copyOut _ op => some (s.results op)
  | _ => none

/-- The method goes on, or it has returned and so has the system call. -/
def Process.resume (p : Process) (line : Point → Line) (after : Int → Progress Process) :
    Progress Point → Progress Process
  | .next call => .next { p with line := line call }
  | .returned value => after value

/-- A write or read that fails is reported, and the program goes on. -/
def Process.step (s : World) (p : Process) : Option (Progress Process × World) :=
  match p.line with
  | .open call => (call.step s.driver).map fun taken =>
    (p.resume .open (fun value =>
        if value < 0 then .returned (-1)
        else
          let fd : Filp := ⟨s.driver.fresh, p.app.minor⟩
          .next { p with line := .write fd (.callWrite fd p.app.test 8 p.stack) }) taken.1,
      { s with driver := taken.2 })
  | .write fd call => (call.step s.driver).map fun taken =>
    (p.resume (.write fd) (fun _ => .next { p with line := .sleep fd }) taken.1, { s with driver := taken.2 })
  | .sleep fd => some (.next { p with line := .read fd (.callRead fd) }, s)
  | .read fd call => (call.step s.driver).map fun taken =>
    (p.resume (.read fd)
        (fun _ => .next { p with result := (call.copiesOut s.driver).getD p.result, line := .printf fd }) taken.1,
      { s with driver := taken.2 })
  | .printf fd => some (.next { p with line := .close (.up fd) }, { s with printed := s.printed ++ [(p.app, p.result)] })
  | .close call => (call.step s.driver).map fun taken =>
    (p.resume .close (fun _ => .returned 0) taken.1, { s with driver := taken.2 })

abbrev Processes := System World Process

inductive Event where
  | launch (app : App) (result : BitVec 32) (stack : List UInt8)
  | run (index : Nat)

def Processes.step (m : Processes) : Event → Option Processes
  | .launch app result stack =>
    some ⟨{ m.shared with launched := m.shared.launched ++ [app] },
      m.calls ++ [⟨app, result, stack, .open (.setTestdev app.minor)⟩]⟩
  | .run index => m.run (fun s p => p.step s) index

def booted : Processes := ⟨{}, []⟩

end DeviceDrivers.Calculator
