import DeviceDrivers.Snull.Driver

/-! The driver that the port was made from: what it does to the bytes of a frame. Its
two devices stand for two networks each, which differ in the last bit of the third octet.
Functions that are the same in both files are not repeated. -/

namespace DeviceDrivers.Snull.Original
open Touches OnesComplement

def ethAlen : Nat := 6

/-- `"\0SNUL0"`, the last byte one more for the second device. -/
def devAddr : Dev → List UInt8
  | .sn0 => [0x00, 0x53, 0x4e, 0x55, 0x4c, 0x30]
  | .sn1 => [0x00, 0x53, 0x4e, 0x55, 0x4c, 0x30 + 1]

/-- `eth->h_dest[ETH_ALEN-1] ^= 0x01`. -/
def otherEnd (address : List UInt8) : List UInt8 :=
  splice address (ethAlen - 1) [address.getD (ethAlen - 1) 0 ^^^ 0x01]

/-- `snull_header` pushes the header in front of the data. A NULL address is `none`. -/
def snullHeader (dev : Dev) (type : UInt16) (daddr saddr : Option (List UInt8)) (data : List UInt8) : List UInt8 :=
  otherEnd (daddr.getD (devAddr dev)) ++ saddr.getD (devAddr dev) ++ be16 type ++ data

/-- What `snull_hw_tx` does to the buffer before it takes a packet. The two log lines
expand to nothing. -/
def snullHwTxFrame (ipFastCsum : List UInt8 → Nat → UInt16) (beyond : List UInt8) (buf : Block Buffer) :
    Traced Buffer (Block Buffer) := do
  let octet ← buf.load (26 + 2)
  let buf ← buf.store (26 + 2) (octet ^^^ 1)
  let octet ← buf.load (30 + 2)
  let buf ← buf.store (30 + 2) (octet ^^^ 1)
  rebuildChecksum ipFastCsum beyond buf

/-- A frame from `snull_tx` to the receive path of the other device, in either mode. -/
def carried (ipFastCsum : List UInt8 → Nat → UInt16) (beyond : List UInt8) (old : Payload) (skb : List UInt8) :
    Traced Buffer (Block Buffer) := do
  let data ← snullTxData skb
  let buf ← snullHwTxFrame ipFastCsum beyond data
  let pkt ← fillPayload old buf
  copyOut pkt

def arrival (ipFastCsum : List UInt8 → Nat → UInt16) (beyond : List UInt8) (old : Payload) (skb : List UInt8) :
    List UInt8 :=
  (carried ipFastCsum beyond old skb).value.bytes

end DeviceDrivers.Snull.Original
