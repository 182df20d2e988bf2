import DeviceDrivers.Kernel.Methods

/-! Three practice drivers: `dynamic_cdd`, `register_chrdev` and `ioctl`. What is
written to them goes to the kernel's log; what is read from them is a text of their own. -/

namespace DeviceDrivers.CharDevices
open Touches Kernel

inductive Buffer where
  | kbuff
  deriving DecidableEq, Repr

def cString (text : String) : List UInt8 := text.toList.map (fun letter => .ofNat letter.toNat) ++ [0]

namespace DynamicCdd

def nameWrite (stack : List UInt8) : UserBuffer → Nat → Written Buffer Unit :=
  writeMethod ⟨.kbuff, 120, stack⟩ 32 () printKbuff

def kbuff : List UInt8 := cString "Iam sending from Kernel buffer"

def nameRead (user : UserBuffer) (offp : Int) : ReadOut :=
  let (missing, stored) := copyToUser user kbuff
  if missing = 0 then
    if offp = 0 then ⟨kbuff.length, kbuff.length, stored⟩ else ⟨0, offp, stored⟩
  else ⟨-14, offp, stored⟩

end DynamicCdd

namespace RegisterChrdev

def nameWrite (stack : List UInt8) : UserBuffer → Nat → Written Buffer Unit :=
  writeMethod ⟨.kbuff, 80, stack⟩ 64 () printKbuff

def kbuff : List UInt8 := cString "THis is some date from the kernel to the user....User,ENJOY......"

/-- Whether the copy failed is not looked at. -/
def nameRead (user : UserBuffer) (offp : Int) : ReadOut :=
  let (_, stored) := copyToUser user kbuff
  if 0 < offp then ⟨0, offp, stored⟩ else ⟨kbuff.length, kbuff.length, stored⟩

end RegisterChrdev

namespace Ioctl

def nameWrite (stack : List UInt8) : UserBuffer → Nat → Written Buffer Unit :=
  writeMethod ⟨.kbuff, 100, stack⟩ 64 () printKbuff

def kbuff : List UInt8 := cString "THis is some date from the kernel to the user....User,ENJOY......"

def nameRead (user : UserBuffer) (count : Nat) (offp : Int) : ReadOut :=
  let (missing, stored) := copyToUser user kbuff
  if missing = 0 then ⟨count, offp, stored⟩ else ⟨-14, offp, stored⟩

end Ioctl

end DeviceDrivers.CharDevices
