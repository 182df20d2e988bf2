import DeviceDrivers.SlpyProc.Driver
import DeviceDrivers.Kernel.Callers
import DeviceDrivers.Library.Decimal

/-! The proc entry by which the sleepy device is watched and controlled. -/

namespace DeviceDrivers.SlpyProc
open Touches Kernel Decimal

inductive Buffer where
  | kbuf
  | memoryBuffer
  deriving DecidableEq, Repr

def maxlen : Nat := 1

/-- `kbuf` is not initialised. `-22` is `-EINVAL` and `-14` is `-EFAULT`. -/
def writeWakeOne (stack : List UInt8) (s : State) (user : UserBuffer) (count : Nat) : Traced Buffer (Int × State) := do
  if maxlen < count then pure (-22, s)
  else
    let (missing, kbuf) ← copyFromUser ⟨.kbuf, maxlen + 1, stack⟩ user count
    if missing ≠ 0 then pure (-14, s)
    else
      let kbuf ← kbuf.store count 0
      let letter ← kbuf.load 0
      if letter = 0x30 then pure (count, { s with wakeOne := 0 })
      else if letter = 0x31 then pure (count, { s with wakeOne := 1 })
      else if letter = 0x32 then pure (count, { s with dataPresent := 0 })
      else
        let _ ← readString kbuf
        pure (-22, s)

def letters (text : String) : List UInt8 := text.toList.map fun letter => .ofNat letter.toNat

/-- What `sprintf` makes of the two variables. -/
def status (s : State) : List UInt8 :=
  letters "data_present=" ++ (decimal s.dataPresent ++ (letters " wake_one=" ++ (decimal s.wakeOne ++ letters "\n")))

/-- `memory_buffer` is not initialised. Whether the copy failed is not looked at. -/
def readStat (stack : List UInt8) (s : State) (user : UserBuffer) (offp : Int) : Traced Buffer ReadOut := do
  let memoryBuffer : Block Buffer := ⟨.memoryBuffer, 30, stack⟩
  let memoryBuffer ← memoryBuffer.stores 0 (status s ++ [0])
  let bytes ← memoryBuffer.loads 0 27
  let (_, stored) := copyToUser user bytes
  pure (if offp = 0 then ⟨27, 27, stored⟩ else ⟨0, offp, stored⟩)

def procRead (stack : List UInt8) (s : State) : ReadMethod := fun user _ offp => (readStat stack s user offp).value

/-- A step of the device's own methods, or a string written to the proc entry. -/
inductive Operation where
  | device (action : Action)
  | procWrite (stack : List UInt8) (user : UserBuffer) (count : Nat)

def Machine.operate (m : Machine) : Operation → Option Machine
  | .device action => m.step action
  | .procWrite stack user count => some { m with shared := (writeWakeOne stack m.shared user count).value.2 }

/-- What the comment at the top of the source says of a string that is written. -/
def command (s : State) (string : List UInt8) : Option State :=
  if string = letters "0" then some { s with wakeOne := 0 }
  else if string = letters "1" then some { s with wakeOne := 1 }
  else if string = letters "2" then some { s with dataPresent := 0 }
  else none

def parseStatus (text : List UInt8) : Option (Int × Int) :=
  let first := scan (text.drop (letters "data_present=").length)
  let last := scan (first.2.drop (letters " wake_one=").length)
  if last.2 = letters "\n" then some (first.1, last.1) else none

end DeviceDrivers.SlpyProc
