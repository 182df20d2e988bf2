import DeviceDrivers.Kernel.Callers
import DeviceDrivers.Library.Resumption

/-! What programs write to the parallel port. Both drivers have the same method for it. -/

namespace DeviceDrivers.PortIo
open Touches Kernel Resumption

inductive Buffer where
  | parlelportBuffer
  deriving DecidableEq, Repr

/-- The byte that a call has read, and the buffer that the call was given. -/
structure Access where
  buf : Int
  count : Nat
  address : Int
  deriving DecidableEq, Repr

def Access.Inside (access : Access) : Prop := access.buf ≤ access.address ∧ access.address < access.buf + access.count

instance (access : Access) : Decidable access.Inside := inferInstanceAs (Decidable (_ ∧ _))

/-- The bytes sent, each with its port, and the bytes read for them. -/
structure Traffic where
  sent : List (Nat × UInt8) := []
  read : List Access := []
  deriving DecidableEq, Repr

def outb (byte : UInt8) (port : Nat) (traffic : Traffic) :
    Traffic := { traffic with sent := traffic.sent ++ [(port, byte)] }

/-- Whether the copy failed is not looked at; a byte that cannot be copied is 0. -/
def writeLast (port : Nat) (memory : UserMemory) (buf : Int) (count : Nat) (traffic : Traffic) : Int × Traffic :=
  let tmp := buf + count - 1
  let parlelportBuffer := (copyFromUser ⟨Buffer.parlelportBuffer, 1, []⟩ (memory.behind tmp) 1).value.2
  let traffic := { traffic with read := traffic.read ++ [⟨buf, count, tmp⟩] }
  (1, outb (parlelportBuffer.bytes.headD 0) port traffic)

namespace Interrupt3

def parlelportWrite : UserMemory → (buf : Int) → (count : Nat) → Traffic → Int × Traffic := writeLast 0x378

end Interrupt3

namespace Parport

def parlelportWrite : UserMemory → (buf : Int) → (count : Nat) → Traffic → Int × Traffic := writeLast 0x378

end Parport

inductive Variant where
  | interrupt3
  | parport
  deriving DecidableEq, Repr

def Variant.parlelportWrite : Variant → UserMemory → (buf : Int) → (count : Nat) → Traffic → Int × Traffic
  | .interrupt3 => Interrupt3.parlelportWrite
  | .parport => Parport.parlelportWrite

def Variant.writes (variant : Variant) (writer : Writer) : Method Traffic := fun traffic position count =>
  variant.parlelportWrite writer.memory (writer.buf + position) count traffic

/-- The bytes that `lights.c` writes, one with each call. -/
def lights : UInt8 → Nat → List UInt8
  | _, 0 => []
  | byte, rounds + 1 =>
    let shifted := byte <<< 1
    byte :: lights (if shifted = 0 then 1 else shifted) rounds

end DeviceDrivers.PortIo
