import DeviceDrivers.Kernel.Callers
import DeviceDrivers.Library.Resumption

/-! The device with a memory of one byte. -/

namespace DeviceDrivers.CharMemory
open Touches Kernel Resumption

inductive Buffer where
  | memoryBuffer
  deriving DecidableEq, Repr

abbrev Memory := Block Buffer

def memoryBuffer (byte : UInt8) : Memory := ⟨.memoryBuffer, 1, [byte]⟩

def memoryInit : Memory := memoryBuffer 0

/-- Whether the copy failed is not looked at. The position stays where it is; the code
that moved it and found the end is commented out. -/
def memoryRead (memory : Memory) : ReadMethod := fun user _ offp =>
  let (_, stored) := copyToUser user (slice memory.bytes 0 1)
  ⟨1, offp, stored⟩

/-- Whether the copy failed is not looked at. -/
def memoryWrite (memory : Memory) (user : UserBuffer) : Int × Memory :=
  let (_, memory) := (copyFromUser memory user 1).value
  (1, memory)

def writes (writer : Writer) : Method Memory := fun memory position _ =>
  memoryWrite memory (writer.memory.behind (writer.buf + position))

def Pieces (length : Nat) (t : Transfer Memory) (count : Nat) : Prop := t.position < length ∧ Within length t count

instance (length : Nat) (t : Transfer Memory) (count : Nat) : Decidable (Pieces length t count) :=
  inferInstanceAs (Decidable (_ ∧ _))

end DeviceDrivers.CharMemory
