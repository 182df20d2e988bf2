import DeviceDrivers.Library.Interleavings

/-! The real time clock behind a port that selects a register and a port for its
value. A file of the driver has a register at each of six positions; a call selects
its register and transfers the value in two accesses. -/

namespace DeviceDrivers.Clock
open Interleavings

abbrev Byte := BitVec 8

def secondsCmd : Byte := 0#8
def minutesCmd : Byte := 2#8
def hoursCmd : Byte := 4#8
def dayCmd : Byte := 7#8
def monthCmd : Byte := 8#8
def yearCmd : Byte := 9#8

def fileSize : Nat := 6

def cmdArr : List Byte := [dayCmd, monthCmd, yearCmd, hoursCmd, minutesCmd, secondsCmd]

structure Rtc where
  selected : Byte := 0#8
  registers : Byte → Byte

/-- An access to the data port: the position of the call's file, the register that
the call had selected, the one it reached, and what was selected in between. -/
structure Transfer where
  position : Nat
  meant : Byte
  reached : Byte
  between : List Byte
  deriving DecidableEq, Repr

/-- The clock and the position of each open file, and what has happened so far: all
selections, all transfers, what each read got and what its own register held, and
the registers as they would be had each write changed its own. -/
structure State where
  rtc : Rtc
  offp : Nat → Nat := fun _ => 0
  selections : List Byte := []
  transfers : List Transfer := []
  readings : List (Byte × Byte) := []
  intended : Byte → Byte

namespace State

/-- `outb_p(cmd,RTC_CMD_PORT)`. -/
def select (s : State) (cmd : Byte) : State :=
  { s with rtc := { s.rtc with selected := cmd }, selections := s.selections ++ [cmd] }

def transfer (s : State) (file : Nat) (cmd : Byte) (since : Nat) : State :=
  { s with transfers := s.transfers ++ [⟨s.offp file, cmd, s.rtc.selected, s.selections.drop since⟩] }

/-- `inb_p(RTC_DATA_PORT)`. -/
def input (s : State) : Byte := s.rtc.registers s.rtc.selected

/-- `outb_p(value,RTC_DATA_PORT)`. -/
def output (s : State) (cmd value : Byte) : State :=
  { s with
    rtc := { s.rtc with registers := Function.update s.rtc.registers s.rtc.selected value }
    intended := Function.update s.intended cmd value }

def advance (s : State) (file : Nat) : State := { s with offp := Function.update s.offp file (s.offp file + 1) }

end State

/-- The statements of `NAME_read` and `NAME_write`. A call that has selected its
register knows how many selections there were by then. The user's byte is missing
where `copy_from_user` fails; a read says whether `copy_to_user` fails. -/
inductive Point where
  | enterRead (file count : Nat) (faults : Bool)
  | selectRead (file : Nat) (cmd : Byte) (faults : Bool)
  | input (file : Nat) (cmd : Byte) (since : Nat) (faults : Bool)
  | copyOut (file : Nat) (data : Byte) (faults : Bool)
  | enterWrite (file count : Nat) (user : Option Byte)
  | selectWrite (file : Nat) (cmd data : Byte)
  | output (file : Nat) (cmd : Byte) (since : Nat) (data : Byte)
  | advance (file : Nat)
  deriving DecidableEq, Repr

def Point.file : Point → Nat
  | .enterRead file _ _ | .selectRead file _ _ | .input file _ _ _ | .copyOut file _ _ | .enterWrite file _ _
  | .selectWrite file _ _ | .output file _ _ _ | .advance file => file

/-- `-5` is `-EIO`, `-14` is `-EFAULT`. An index past `cmd_arr` would be a fault. -/
def Point.step (s : State) : Point → Option (Progress Point × State)
  | .enterRead file count faults =>
    if 1 < count then some (.returned (-5), s)
    else if fileSize ≤ s.offp file then some (.returned (-5), s)
    else cmdArr[s.offp file]?.map fun cmd => (.next (.selectRead file cmd faults), s)
  | .selectRead file cmd faults =>
    some (.next (.input file cmd (s.selections.length + 1) faults), s.select cmd)
  | .input file cmd since faults =>
    some (.next (.copyOut file s.input faults),
      { s.transfer file cmd since with readings := s.readings ++ [(s.input, s.rtc.registers cmd)] })
  | .copyOut file _ faults => if faults then some (.returned (-14), s) else some (.returned 1, s.advance file)
  | .enterWrite file count user =>
    if 1 < count then some (.returned (-5), s)
    else if fileSize ≤ s.offp file then some (.returned (-5), s)
    else cmdArr[s.offp file]?.map fun cmd =>
      match user with
      | none => (.returned (-14), s)
      | some data => (.next (.selectWrite file cmd data), s)
  | .selectWrite file cmd data =>
    some (.next (.output file cmd (s.selections.length + 1) data), s.select cmd)
  | .output file cmd since data => some (.next (.advance file), (s.transfer file cmd since).output cmd data)
  | .advance file => some (.returned 1, s.advance file)

abbrev Machine := System State Point

/-- Each file is one process's own, which makes one call on it at a time. -/
def Machine.idle (m : Machine) (file : Nat) : Bool := m.calls.all fun call => call.file ≠ file

inductive Action where
  | seek (file position : Nat)
  | read (file count : Nat) (faults : Bool)
  | write (file count : Nat) (user : Option Byte)
  | run (index : Nat)
  deriving DecidableEq, Repr

def Machine.step (m : Machine) : Action → Option Machine
  | .seek file position =>
    if m.idle file then
      some { m with shared := { m.shared with offp := Function.update m.shared.offp file position } }
    else none
  | .read file count faults => if m.idle file then some (m.start (.enterRead file count faults)) else none
  | .write file count user => if m.idle file then some (m.start (.enterWrite file count user)) else none
  | .run index => m.run (fun s point => point.step s) index

def loaded (rtc : Rtc) : Machine := ⟨{ rtc := rtc, intended := rtc.registers }, []⟩

end DeviceDrivers.Clock
