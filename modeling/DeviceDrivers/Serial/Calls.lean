import DeviceDrivers.Library.Interleavings
import DeviceDrivers.Serial.Uart

/-! The calls of the serial driver and its interrupt handler, access by access.
Nothing but the two flags keeps them apart. -/

namespace DeviceDrivers.Serial
open Interleavings

/-- What the driver means to reach at a port with two registers behind it. -/
inductive Register where
  | recieve
  | transmit
  | intEnable
  | divisorLatchL
  | divisorLatchH
  deriving DecidableEq, Repr

def Register.inLatch : Register → Bool
  | .divisorLatchL | .divisorLatchH => true
  | _ => false

/-- A byte written to be transmitted, and a handled interrupt that says the port
has taken what it was given. -/
inductive Line where
  | sent
  | taken
  deriving DecidableEq, Repr

/-- The port and the driver's globals, and what has happened so far: each access
to a port with two registers, with the bank it met; the divisor the driver
meant to set; what the receive register held whenever the handler read it, and
what the handler got; which bytes it overwrote while `rflag` was raised; which
bytes readers were given; and the order of transmissions and interrupts. -/
structure State where
  uart : Uart := {}
  rbuff : Byte := 0#8
  tbuff : Byte := 0x6b#8
  rflag : Int := 0
  tflag : Int := 1
  intId : Byte := 0#8
  accesses : List (Register × Bool) := []
  divisor : Byte × Byte := (0#8, 0#8)
  arrived : List Byte := []
  received : List Byte := []
  overwritten : List Nat := []
  returned : List (Nat × Byte) := []
  line : List Line := []
  deriving DecidableEq, Repr

namespace State

def access (s : State) (register : Register) : State :=
  { s with accesses := s.accesses ++ [(register, s.uart.dlab)] }

def setLineCtrl (s : State) (value : Byte) : State := { s with uart := s.uart.outb value lineCtrlReg }

def setIntEnable (s : State) (mask : Byte) : State :=
  { s.access .intEnable with uart := s.uart.outb mask intEnableReg }

def setLatchL (s : State) (low : Byte) : State :=
  { s.access .divisorLatchL with uart := s.uart.outb low divisorLatchLReg, divisor := (low, s.divisor.2) }

def setLatchH (s : State) (high : Byte) : State :=
  { s.access .divisorLatchH with uart := s.uart.outb high divisorLatchHReg, divisor := (s.divisor.1, high) }

/-- `outb_p(tbuff,TRANSMIT_REG)`. -/
def transmit (s : State) : State :=
  { s.access .transmit with uart := s.uart.outb s.tbuff transmitReg, line := s.line ++ [.sent] }

/-- `rbuff=inb_p( RECIEVE_REG )`. -/
def store (s : State) : State :=
  { s.access .recieve with
    rbuff := s.uart.inb recieveReg
    arrived := s.arrived ++ [s.uart.recieve]
    received := s.received ++ [s.uart.inb recieveReg]
    overwritten := if s.rflag = 0 then s.overwritten else s.overwritten ++ [s.received.length - 1] }

/-- A reader is given what `rbuff` holds, the byte stored last. -/
def handOver (s : State) : State := { s with returned := s.returned ++ [(s.received.length - 1, s.rbuff)] }

end State

inductive Caller where
  | nameOpen
  | nameIoctl
  deriving DecidableEq, Repr

/-- The statements of `NAME_open`, `NAME_ioctl`, `NAME_write`, `NAME_read` and
`irq_handler`, with the locals still needed. The user's byte is missing where
`copy_from_user` fails; a read says whether `copy_to_user` fails. -/
inductive Point where
  | maskInts
  | openLatch
  | lineDefaults
  | enableInts
  | switch (cmd : Command)
  | readPrev (low high : Byte)
  | switchOn (low high modPrev : Byte)
  | latchL (low high modPrev : Byte) (caller : Caller)
  | latchH (high modPrev : Byte) (caller : Caller)
  | restore (modPrev : Byte) (caller : Caller)
  | readSet (mask : Byte)
  | readKeep (mask : Byte)
  | writeLine (modReg : Byte)
  | setInts (mask : Byte)
  | waitTransmit (user : Option Byte)
  | fetch (user : Option Byte)
  | transmit
  | clearTflag
  | waitRecieve (faults : Bool)
  | copyOut (faults : Bool)
  | clearRflag
  | identify
  | dispatch
  | transmitEmpty
  | recieve
  | raiseRflag
  deriving DecidableEq, Repr

def Point.handler : Point → Bool
  | .identify | .dispatch | .transmitEmpty | .recieve | .raiseRflag => true
  | _ => false

/-- `int_ir.interrupt_pending` and `int_ir.interrupt_select`. -/
def interruptPending (buffer : Byte) : Byte := buffer &&& 1#8
def interruptSelect (buffer : Byte) : Byte := (buffer >>> 1) &&& 7#8

/-- The handler returns 1 for `IRQ_HANDLED` and 0 for `IRQ_NONE`. -/
def Point.step (s : State) : Point → Option (Progress Point × State)
  | .maskInts => some (.next .openLatch, s.setIntEnable 0x0#8)
  | .openLatch => some (.next (.latchL baud9600L baud9600H 0x00#8 .nameOpen), s.setLineCtrl 0x80#8)
  | .lineDefaults => some (.next .enableInts, s.setLineCtrl 0x0b#8)
  | .enableInts => some (.returned 0, s.setIntEnable 0x3#8)
  | .switch cmd =>
    match cmd.body with
    | .divisor low high => some (.next (.readPrev low high), s)
    | .setBits mask => some (.next (.readSet mask), s)
    | .keepBits mask => some (.next (.readKeep mask), s)
    | .interrupts mask => some (.next (.setInts mask), s)
    | .nothing => some (.returned 1, s)
  | .readPrev low high => some (.next (.switchOn low high (s.uart.inb lineCtrlReg)), s)
  | .switchOn low high modPrev =>
    some (.next (.latchL low high modPrev .nameIoctl), s.setLineCtrl (modPrev ||| 0x80#8))
  | .latchL low high modPrev caller => some (.next (.latchH high modPrev caller), s.setLatchL low)
  | .latchH high modPrev caller => some (.next (.restore modPrev caller), s.setLatchH high)
  | .restore modPrev .nameOpen => some (.next .lineDefaults, s.setLineCtrl modPrev)
  | .restore modPrev .nameIoctl => some (.returned 1, s.setLineCtrl modPrev)
  | .readSet mask => some (.next (.writeLine (s.uart.inb lineCtrlReg ||| mask)), s)
  | .readKeep mask => some (.next (.writeLine (s.uart.inb lineCtrlReg &&& mask)), s)
  | .writeLine modReg => some (.returned 1, s.setLineCtrl modReg)
  | .setInts mask => some (.returned 1, s.setIntEnable mask)
  | .waitTransmit user => if s.tflag = 1 then none else some (.next (.fetch user), s)
  | .fetch user => some (.next .transmit, { s with tbuff := user.getD 0#8 })
  | .transmit => some (.next .clearTflag, s.transmit)
  | .clearTflag => some (.returned 1, { s with tflag := 0 })
  | .waitRecieve faults => if s.rflag = 0 then none else some (.next (.copyOut faults), s)
  | .copyOut faults => some (.next .clearRflag, if faults then s else s.handOver)
  | .clearRflag => some (.returned 1, { s with rflag := 0 })
  | .identify => some (.next .dispatch, { s with intId := s.uart.inb intIdentificationReg })
  | .dispatch =>
    if interruptPending s.intId = 0#8 then
      if interruptSelect s.intId = 1#8 then some (.next .transmitEmpty, s)
      else if interruptSelect s.intId = 2#8 then some (.next .recieve, s)
      else some (.returned 1, s)
    else some (.returned 0, s)
  | .transmitEmpty => some (.returned 1, { s with tflag := 0, line := s.line ++ [.taken] })
  | .recieve => some (.next .raiseRflag, s.store)
  | .raiseRflag => some (.returned 1, { s with rflag := 1 })

abbrev Machine := System State Point

/-- Processes make calls, the calls and the handler make steps, and the port
shows what it likes in the registers that only it writes. -/
inductive Action where
  | open
  | ioctl (cmd : Command)
  | write (user : Option Byte)
  | read (faults : Bool)
  | interrupt
  | signal (identification recieve : Byte)
  | run (index : Nat)
  deriving DecidableEq, Repr

/-- The kernel does not enter the handler of a line again before it has returned. -/
def Machine.step (m : Machine) : Action → Option Machine
  | .open => some (m.start .maskInts)
  | .ioctl cmd => some (m.start (.switch cmd))
  | .write user => some (m.start (.waitTransmit user))
  | .read faults => some (m.start (.waitRecieve faults))
  | .interrupt => if m.calls.any Point.handler then none else some (m.start .identify)
  | .signal identification recieve =>
    some { m with
      shared := { m.shared with
        uart := { m.shared.uart with intIdentification := identification, recieve := recieve } } }
  | .run index => m.run (fun s point => point.step s) index

def loaded (uart : Uart) : Machine := ⟨{ uart := uart, divisor := (uart.divisorLatchL, uart.divisorLatchH) }, []⟩

end DeviceDrivers.Serial
