import DeviceDrivers.Clock.Driver

/-! The calls of one process that has the clock to itself, from their entry to their
return, and the changes of the position that it makes between them. -/

namespace DeviceDrivers.Clock

namespace Rtc

/-- `outb_p(cmd,RTC_CMD_PORT)`. -/
def select (rtc : Rtc) (cmd : Byte) : Rtc := { rtc with selected := cmd }

/-- `inb_p(RTC_DATA_PORT)`. -/
def input (rtc : Rtc) : Byte := rtc.registers rtc.selected

/-- `outb_p(value,RTC_DATA_PORT)`. -/
def output (rtc : Rtc) (value : Byte) : Rtc :=
  { rtc with registers := Function.update rtc.registers rtc.selected value }

/-- `READ_FROM_CLOCK(cmd,data)`, with the value that `data` gets. -/
def readFromClock (rtc : Rtc) (cmd : Byte) : Byte × Rtc := ((rtc.select cmd).input, rtc.select cmd)

/-- `WRITE_TO_CLOCK(cmd,value)`. -/
def writeToClock (rtc : Rtc) (cmd value : Byte) : Rtc := (rtc.select cmd).output value

end Rtc

/-- What a call returns, the clock and the position it leaves, and the bytes that it
has moved between the user and the clock. -/
structure Outcome where
  result : Int
  rtc : Rtc
  offp : Nat
  moved : List Byte

/-- There is no outcome where the index is not one of `cmd_arr`. -/
def nameRead (rtc : Rtc) (offp count : Nat) (faults : Bool) : Option Outcome :=
  if 1 < count then some ⟨-5, rtc, offp, []⟩
  else if fileSize ≤ offp then some ⟨-5, rtc, offp, []⟩
  else cmdArr[offp]?.map fun cmd =>
    let (data, rtc) := rtc.readFromClock cmd
    if faults then ⟨-14, rtc, offp, []⟩ else ⟨1, rtc, offp + 1, [data]⟩

def nameWrite (rtc : Rtc) (offp count : Nat) (user : Option Byte) : Option Outcome :=
  if 1 < count then some ⟨-5, rtc, offp, []⟩
  else if fileSize ≤ offp then some ⟨-5, rtc, offp, []⟩
  else cmdArr[offp]?.map fun cmd =>
    match user with
    | none => ⟨-14, rtc, offp, []⟩
    | some data => ⟨1, rtc.writeToClock cmd data, offp + 1, [data]⟩

/-- A call: `count`, and how its user copy of one byte goes. -/
inductive Call where
  | read (count : Nat) (faults : Bool)
  | write (count : Nat) (user : Option Byte)
  deriving DecidableEq, Repr

namespace Call

def count : Call → Nat
  | .read count _ | .write count _ => count

def faults : Call → Bool
  | .read _ faults => faults
  | .write _ user => user.isNone

def run (rtc : Rtc) (offp : Nat) : Call → Option Outcome
  | .read count faults => nameRead rtc offp count faults
  | .write count user => nameWrite rtc offp count user

end Call

/-- A call that is over, with the clock and the position it found. -/
structure Entry where
  rtc : Rtc
  offp : Nat
  call : Call
  outcome : Outcome

structure Process where
  rtc : Rtc
  offp : Nat := 0
  entries : List Entry := []

namespace Process

inductive Action where
  | seek (position : Nat)
  | call (call : Call)
  deriving DecidableEq, Repr

def step (p : Process) : Action → Option Process
  | .seek position => some { p with offp := position }
  | .call call => (call.run p.rtc p.offp).map fun outcome =>
    ⟨outcome.rtc, outcome.offp, p.entries ++ [⟨p.rtc, p.offp, call, outcome⟩]⟩

end Process

end DeviceDrivers.Clock
