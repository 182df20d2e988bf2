import DeviceDrivers.Serial.Uart

/-! What the control commands of the serial driver are for: each asks for the value
of one line setting, and the registers hold a value for every setting. -/

namespace DeviceDrivers.Serial

inductive Setting where
  | parity
  | stopBits
  | charLen
  | baud
  | interrupts
  deriving DecidableEq, Repr

inductive Parity where
  | none
  | odd
  | even
  | mark
  | space
  deriving DecidableEq, Repr

inductive Value where
  | parity (mode : Parity)
  | stopBits (count : Nat)
  | charLen (bits : Nat)
  | baud (divisor : Nat)
  | interrupts (mask : Byte)
  deriving DecidableEq, Repr

/-- Bit 3 enables parity, bit 4 makes it even, bit 5 sticks it to one value. -/
def parityOf (lineCtrl : Byte) : Parity :=
  if lineCtrl.getLsbD 3 = false then .none
  else if lineCtrl.getLsbD 5 then if lineCtrl.getLsbD 4 then .space else .mark
  else if lineCtrl.getLsbD 4 then .even
  else .odd

/-- The value that the registers hold for a setting. -/
def Uart.held (u : Uart) : Setting → Value
  | .parity => .parity (parityOf u.lineCtrl)
  | .stopBits => .stopBits (if u.lineCtrl.getLsbD 2 then 2 else 1)
  | .charLen => .charLen (5 + (u.lineCtrl.getLsbD 0).toNat + 2 * (u.lineCtrl.getLsbD 1).toNat)
  | .baud => .baud (u.divisorLatchL.toNat + 256 * u.divisorLatchH.toNat)
  | .interrupts => .interrupts u.intEnable

/-- The clock of 1.8432 MHz goes 115200 times into a second by sixteen; the divisor
is the nearest one. -/
def baudDivisor (rate : Nat) : Nat := (115200 + rate / 2) / rate

def Command.asked : Command → Value
  | .setBaud50 => .baud (baudDivisor 50)
  | .setBaud75 => .baud (baudDivisor 75)
  | .setBaud110 => .baud (baudDivisor 110)
  | .setBaud135 => .baud (baudDivisor 135)
  | .setBaud150 => .baud (baudDivisor 150)
  | .setBaud300 => .baud (baudDivisor 300)
  | .setBaud600 => .baud (baudDivisor 600)
  | .setBaud1200 => .baud (baudDivisor 1200)
  | .setBaud1800 => .baud (baudDivisor 1800)
  | .setBaud2000 => .baud (baudDivisor 2000)
  | .setBaud2400 => .baud (baudDivisor 2400)
  | .setBaud3600 => .baud (baudDivisor 3600)
  | .setBaud4800 => .baud (baudDivisor 4800)
  | .setBaud7200 => .baud (baudDivisor 7200)
  | .setBaud9600 => .baud (baudDivisor 9600)
  | .setBaud19200 => .baud (baudDivisor 19200)
  | .setBaud38400 => .baud (baudDivisor 38400)
  | .setBaud56000 => .baud (baudDivisor 56000)
  | .setBaud128000 => .baud (baudDivisor 128000)
  | .setEvenParity => .parity .even
  | .setOddParity => .parity .odd
  | .setNoParity => .parity .none
  | .setStopBitsAs1 => .stopBits 1
  | .setStopBitsAs2 => .stopBits 2
  | .setCharLenAs5 => .charLen 5
  | .setCharLenAs6 => .charLen 6
  | .setCharLenAs7 => .charLen 7
  | .setCharLenAs8 => .charLen 8
  | .enableInterrupts => .interrupts 0x3#8
  | .disableInterrupts => .interrupts 0x0#8

def Value.setting : Value → Setting
  | .parity _ => .parity
  | .stopBits _ => .stopBits
  | .charLen _ => .charLen
  | .baud _ => .baud
  | .interrupts _ => .interrupts

def Command.setting (cmd : Command) : Setting := cmd.asked.setting

/-- One call; the command is accepted if the call returns no error. -/
def call (before : Uart × List Command) (cmd : Command) : Uart × List Command :=
  let (result, u) := nameIoctl cmd before.1
  (u, if 0 ≤ result then before.2 ++ [cmd] else before.2)

/-- A sequence of calls: the registers after it, and the commands that were accepted. -/
def session (u : Uart) (cmds : List Command) : Uart × List Command := cmds.foldl call (u, [])

end DeviceDrivers.Serial
