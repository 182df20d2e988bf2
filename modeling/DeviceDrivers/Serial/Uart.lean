import Mathlib.Logic.Basic

/-! The serial port as the driver sees it: eight bits at each port, two of the
ports with a second register behind them, and the control commands that change
the line settings. -/

namespace DeviceDrivers.Serial

abbrev Byte := BitVec 8

/-- The registers of the 8250. The divisor latch lies behind the ports of the
data and interrupt enable registers. `sent` is what was written to be
transmitted, in order. -/
structure Uart where
  lineCtrl : Byte := 0#8
  divisorLatchL : Byte := 0#8
  divisorLatchH : Byte := 0#8
  intEnable : Byte := 0#8
  intIdentification : Byte := 1#8
  recieve : Byte := 0#8
  sent : List Byte := []
  deriving DecidableEq, Repr

def shortBase : Nat := 0x3f8
def lineCtrlReg : Nat := shortBase + 3
def divisorLatchLReg : Nat := shortBase + 0
def divisorLatchHReg : Nat := shortBase + 1
def recieveReg : Nat := shortBase
def transmitReg : Nat := shortBase
def intEnableReg : Nat := shortBase + 1
def intIdentificationReg : Nat := shortBase + 2

namespace Uart

/-- Bit 7 of the line control register switches the divisor latch in. -/
def dlab (u : Uart) : Bool := u.lineCtrl.getLsbD 7

def outb (u : Uart) (value : Byte) (port : Nat) : Uart :=
  if port = shortBase then
    if u.dlab then { u with divisorLatchL := value } else { u with sent := u.sent ++ [value] }
  else if port = shortBase + 1 then
    if u.dlab then { u with divisorLatchH := value } else { u with intEnable := value }
  else if port = shortBase + 3 then { u with lineCtrl := value }
  else u

def inb (u : Uart) (port : Nat) : Byte :=
  if port = shortBase then if u.dlab then u.divisorLatchL else u.recieve
  else if port = shortBase + 1 then if u.dlab then u.divisorLatchH else u.intEnable
  else if port = shortBase + 2 then u.intIdentification
  else u.lineCtrl

@[simp] theorem inb_lineCtrl (u : Uart) : u.inb lineCtrlReg = u.lineCtrl := rfl

@[simp] theorem inb_recieve (u : Uart) : u.inb recieveReg = if u.dlab then u.divisorLatchL else u.recieve := rfl

@[simp] theorem inb_intIdentification (u : Uart) : u.inb intIdentificationReg = u.intIdentification := rfl

@[simp] theorem outb_lineCtrl (u : Uart) (value : Byte) : u.outb value lineCtrlReg = { u with lineCtrl := value } := rfl

@[simp] theorem outb_divisorLatchL (u : Uart) (value : Byte) : u.outb value divisorLatchLReg =
    if u.dlab then { u with divisorLatchL := value } else { u with sent := u.sent ++ [value] } := rfl

@[simp] theorem outb_divisorLatchH (u : Uart) (value : Byte) : u.outb value divisorLatchHReg =
    if u.dlab then { u with divisorLatchH := value } else { u with intEnable := value } := rfl

@[simp] theorem outb_transmit (u : Uart) (value : Byte) : u.outb value transmitReg =
    if u.dlab then { u with divisorLatchL := value } else { u with sent := u.sent ++ [value] } := rfl

@[simp] theorem outb_intEnable (u : Uart) (value : Byte) : u.outb value intEnableReg =
    if u.dlab then { u with divisorLatchH := value } else { u with intEnable := value } := rfl

end Uart

def baud9600L : Byte := 0x0c#8
def baud9600H : Byte := 0x00#8
def baud19200L : Byte := 0x06#8
def baud19200H : Byte := 0x00#8

inductive Command where
  | setBaud50
  | setBaud75
  | setBaud110
  | setBaud135
  | setBaud150
  | setBaud300
  | setBaud600
  | setBaud1200
  | setBaud1800
  | setBaud2000
  | setBaud2400
  | setBaud3600
  | setBaud4800
  | setBaud7200
  | setBaud9600
  | setBaud19200
  | setBaud38400
  | setBaud56000
  | setBaud128000
  | setEvenParity
  | setOddParity
  | setNoParity
  | setStopBitsAs1
  | setStopBitsAs2
  | setCharLenAs5
  | setCharLenAs6
  | setCharLenAs7
  | setCharLenAs8
  | enableInterrupts
  | disableInterrupts
  deriving DecidableEq, Repr

/-- What a case of the switch does. The cases for the line settings read the line
control register and write it back with some bits set or all but some kept. -/
inductive Body where
  | divisor (low high : Byte)
  | setBits (mask : Byte)
  | keepBits (mask : Byte)
  | interrupts (mask : Byte)
  | nothing
  deriving DecidableEq, Repr

/-- The `switch (cmd)` of `NAME_ioctl`, which has no default case. -/
def Command.body : Command → Body
  | .setBaud9600 => .divisor baud9600L baud9600H
  | .setBaud19200 => .divisor baud19200L baud19200H
  | .setEvenParity => .setBits 0x18#8
  | .setOddParity => .setBits 0x8#8
  | .setNoParity => .keepBits 0xf7#8
  | .setStopBitsAs1 => .keepBits 0xfb#8
  | .setCharLenAs8 => .setBits 0x3#8
  | .enableInterrupts => .interrupts 0x3#8
  | .disableInterrupts => .interrupts 0x0#8
  | _ => .nothing

def setDivisor (low high : Byte) (u : Uart) : Uart :=
  let modPrev := u.inb lineCtrlReg
  let modReg := modPrev ||| 0x80#8
  let u := u.outb modReg lineCtrlReg
  let u := u.outb low divisorLatchLReg
  let u := u.outb high divisorLatchHReg
  u.outb modPrev lineCtrlReg

/-- `NAME_ioctl`, run from beginning to end, with its return value. -/
def nameIoctl (cmd : Command) (u : Uart) : Int × Uart :=
  (1,
    match cmd.body with
    | .divisor low high => setDivisor low high u
    | .setBits mask => u.outb (u.inb lineCtrlReg ||| mask) lineCtrlReg
    | .keepBits mask => u.outb (u.inb lineCtrlReg &&& mask) lineCtrlReg
    | .interrupts mask => u.outb mask intEnableReg
    | .nothing => u)

end DeviceDrivers.Serial
