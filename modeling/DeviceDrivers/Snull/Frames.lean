import DeviceDrivers.Library.OnesComplement
import DeviceDrivers.Library.Touches

/-! The bytes of a frame on their way through the driver: padding in `snull_tx`,
classification and rewriting in `snull_hw_tx`, and the copies made for the two
receive paths. Offsets are the source's own. -/

namespace DeviceDrivers.Snull
open Touches

def ethHlen : Nat := 14
def ethZlen : Nat := 60
def ethDataLen : Nat := 1500

/-- `sizeof(struct ethhdr) + sizeof(struct iphdr)`. -/
def headerLen : Nat := ethHlen + 20

def icmpEcho : UInt8 := 8
def icmpEchoreply : UInt8 := 0

inductive Buffer where
  | skbData
  | shortpkt
  | packetData
  | rxSkb
  deriving DecidableEq, Repr

/-- The `data` and `len` that `snull_tx` hands to `snull_hw_tx`. -/
def snullTxData (skb : List UInt8) : Traced Buffer (Block Buffer) := do
  let data : Block Buffer := ⟨.skbData, skb.length, skb⟩
  if skb.length < ethZlen then
    let shortpkt ← (Block.mk Buffer.shortpkt ethZlen []).memset ethZlen 0
    shortpkt.memcpy data skb.length
  else
    pure data

/-- `prot` of `snull_hw_tx`, from the two bytes behind an option-free IP header. -/
def pingProt (type code : UInt8) : UInt8 :=
  if type = icmpEcho ∧ code = 0 then icmpEcho
  else if type = icmpEchoreply ∧ code = 0 then icmpEchoreply
  else 0xff

def isPing (prot : UInt8) : Bool := prot = icmpEcho ∨ prot = icmpEchoreply

/-- `ih->ihl`, the low half of the first IP byte. -/
def ihl (byte : UInt8) : Nat := byte.toNat % 16

/-- The ping case: exchange `ih->saddr` and `ih->daddr`, then `buf[0x26] -= 0x8`. -/
def exchangeAddresses (buf : Block Buffer) : Traced Buffer (Block Buffer) := do
  let tmp ← buf.loads 26 4
  let daddr ← buf.loads 30 4
  let buf ← buf.stores 26 daddr
  let buf ← buf.stores 30 tmp
  let identifier ← buf.load 0x26
  buf.store 0x26 (identifier - 0x8)

/-- `ih->check = 0; ih->check = ip_fast_csum((unsigned char *)ih, ih->ihl)`. The
sum runs over whatever memory follows the buffer when the header claims to be
longer than the frame; `beyond` is that memory. -/
def rebuildChecksum (ipFastCsum : List UInt8 → Nat → UInt16) (beyond : List UInt8)
    (buf : Block Buffer) : Traced Buffer (Block Buffer) := do
  let buf ← buf.stores 24 [0, 0]
  let first ← buf.load ethHlen
  buf.touch ethHlen (4 * ihl first)
  buf.stores 24 (OnesComplement.be16 (ipFastCsum ((buf.bytes ++ beyond).drop ethHlen) (ihl first)))

/-- What `snull_hw_tx` does to the buffer before it takes a packet, and the
`prot` it found. The two addresses and ports are read again for the log line. -/
def snullHwTxFrame (ipFastCsum : List UInt8 → Nat → UInt16) (beyond : List UInt8)
    (buf : Block Buffer) : Traced Buffer (UInt8 × Block Buffer) := do
  let type ← buf.load headerLen
  let code ← buf.load (headerLen + 1)
  let prot := pingProt type code
  let buf ← if isPing prot then exchangeAddresses buf else pure buf
  let buf ← rebuildChecksum ipFastCsum beyond buf
  buf.touch 26 8
  buf.touch headerLen 4
  pure (prot, buf)

structure Payload where
  datalen : Nat
  data : List UInt8
  deriving DecidableEq, Repr

/-- `tx_buffer->datalen = len; memcpy(tx_buffer->data, buf, len)`. -/
def fillPayload (old : Payload) (buf : Block Buffer) : Traced Buffer Payload := do
  let data ← (Block.mk Buffer.packetData ethDataLen old.data).memcpy buf buf.size
  pure ⟨buf.size, data.bytes⟩

/-- `memcpy(skb_put(skb, pkt->datalen), pkt->data, pkt->datalen)` into a fresh buffer. -/
def copyOut (pkt : Payload) : Traced Buffer (Block Buffer) :=
  (Block.mk Buffer.rxSkb pkt.datalen []).memcpy ⟨.packetData, ethDataLen, pkt.data⟩ pkt.datalen

/-- The ICMP patch of `snull_rx`. Its offsets 20 and 24 count from `skb->data`,
which `eth_type_trans` has moved past the Ethernet header. The whole remaining
frame is dumped to the log first. -/
def convertEcho (skb : Block Buffer) : Traced Buffer (Block Buffer) := do
  let type ← skb.load (ethHlen + 20)
  let code ← skb.load (ethHlen + 21)
  if (type = icmpEcho ∨ type = icmpEchoreply) ∧ code = 0 then
    skb.touch ethHlen (skb.size - ethHlen)
    if type = icmpEcho then
      let skb ← skb.store (ethHlen + 20) icmpEchoreply
      let identifier ← skb.load (ethHlen + 24)
      skb.store (ethHlen + 24) (identifier + 0x8)
    else
      pure skb
  else
    pure skb

/-- The frame `snull_rx` passes up, Ethernet header included. -/
def snullRxFrame (pkt : Payload) : Traced Buffer (Block Buffer) := do
  let skb ← copyOut pkt
  convertEcho skb

end DeviceDrivers.Snull
