import DeviceDrivers.Snull.State

/-! The driver's entry points, each run from beginning to end without another
call in between. The handler is split where it holds the lock, so that the
interleaved system uses the same sections. -/

namespace DeviceDrivers.Snull
open Touches

/-- Module parameters, and two functions that are not the driver's. `ip_fast_csum` is a
function of the memory from the IP header on and of the number of 32-bit words.
`napi_disable` is documented to wait until no poll is outstanding; `napiReturns` says
whether it returns, against that, to a poll that calls it. -/
structure Config where
  lockup : BitVec 32 := 0#32
  useNapi : Bool := false
  poolSize : Int := 8
  ipFastCsum : List UInt8 → Nat → UInt16
  napiReturns : Bool := false

/-- `napi_disable`, while a poll is outstanding or not: none if it waits for ever. The
driver's data are not its concern. -/
def Config.napiDisable (cfg : Config) (outstanding : Bool) (s : State) : Option State :=
  if outstanding && !cfg.napiReturns then none else some s

def snullRxIntr : BitVec 32 := 0x0001#32
def snullTxIntr : BitVec 32 := 0x0002#32

/-- `statusword & flag`. -/
def raised (statusword flag : BitVec 32) : Bool := statusword &&& flag != 0#32

/-- `dev_kfree_skb`, which ignores a NULL pointer. -/
def devKfreeSkb (dev : Dev) (skb : Option Skb) (s : State) : State :=
  match skb with
  | none => s
  | some skb => { s with freed := s.freed ++ [(dev, skb)] }

/-- `netif_rx` and `netif_receive_skb`. -/
def passUp (dev : Dev) (frame : List UInt8) (s : State) : State :=
  { s with passedUp := s.passedUp ++ [(dev, frame)] }

def countRx (dev : Dev) (datalen : Nat) (s : State) : State :=
  s.onPriv dev fun priv => { priv with stats :=
    { priv.stats with
      rxPackets := priv.stats.rxPackets + 1
      rxBytes := priv.stats.rxBytes + .ofNat datalen } }

def countRxDropped (dev : Dev) (s : State) : State :=
  s.onPriv dev fun priv => { priv with stats :=
    { priv.stats with rxDropped := priv.stats.rxDropped + 1 } }

/-- `memory` says whether `dev_alloc_skb` succeeds. -/
def snullRx (memory : Bool) (dev : Dev) (pkt : Addr) (s : State) : State :=
  if memory then
    let packet := (s.heap pkt).payload
    let frame := snullRxFrame packet
    passUp dev frame.value.bytes (countRx dev packet.datalen (s.touching frame.touches))
  else
    countRxDropped dev s

/-- "A transmission is over: free the skb." -/
def transmissionOver (dev : Dev) (s : State) : State :=
  let s := s.onPriv dev fun priv => { priv with stats :=
    { priv.stats with
      txPackets := priv.stats.txPackets + 1
      txBytes := priv.stats.txBytes + .ofNat priv.txPacketlen } }
  devKfreeSkb dev (s.priv dev).skb s

/-- `priv->status = word`. -/
def setStatus (dev : Dev) (word : BitVec 32) (s : State) : State :=
  s.onPriv dev fun priv => { priv with status := word }

/-- `priv->status |= flag`. -/
def raiseStatus (dev : Dev) (flag : BitVec 32) (s : State) : State :=
  setStatus dev ((s.priv dev).status ||| flag) s

/-- `priv->tx_packetlen = len`. -/
def setTxPacketlen (dev : Dev) (len : Nat) (s : State) : State :=
  s.onPriv dev fun priv => { priv with txPacketlen := len }

/-- The receive half of `snull_regular_interrupt`: one packet is unlinked and passed up. -/
def receiveOne (memory : Bool) (dev : Dev) (s : State) : Option Addr × State :=
  match (s.priv dev).rxQueue with
  | none => (none, s)
  | some pkt => (some pkt, snullRx memory dev pkt (unlinkRx dev pkt s))

/-- `snull_regular_interrupt` while it holds the lock. The packet it has
consumed is given back after the lock is released. -/
def regularSection (memory : Bool) (dev : Dev) (s : State) : Option Addr × State :=
  let statusword := (s.priv dev).status
  let s := setStatus dev 0#32 s
  let (pkt, s) := if raised statusword snullRxIntr then receiveOne memory dev s else (none, s)
  (pkt, if raised statusword snullTxIntr then transmissionOver dev s else s)

/-- `snull_napi_interrupt`, all of it under the lock. -/
def napiSection (dev : Dev) (s : State) : State :=
  let statusword := (s.priv dev).status
  let s := setStatus dev 0#32 s
  let s := if raised statusword snullRxIntr then snullRxInts dev false s else s
  if raised statusword snullTxIntr then transmissionOver dev s else s

def interruptSection (cfg : Config) (memory : Bool) (dev : Dev) (s : State) : Option Addr × State :=
  if cfg.useNapi then (none, napiSection dev s) else regularSection memory dev s

def snullInterrupt (cfg : Config) (memory : Bool) (dev : Dev) (s : State) : State :=
  match interruptSection cfg memory dev s with
  | (none, s) => s
  | (some pkt, s) => snullReleaseBuffer pkt s

/-- `lockup && ((priv->stats.tx_packets + 1) % lockup) == 0`, in `unsigned long`. -/
def simulatesLockup (cfg : Config) (dev : Dev) (s : State) : Bool :=
  cfg.lockup != 0#32 &&
    ((s.priv dev).stats.txPackets + 1) % ⟨cfg.lockup.signExtend 64⟩ == 0

/-- What the surroundings decide during one `snull_tx`: the memory behind the
frame's buffer, and whether each simulated interrupt finds memory for an skb. -/
structure Surroundings where
  beyond : List UInt8 := []
  rxMemory : Bool := true
  txMemory : Bool := true

/-- The device `snull_hw_tx` delivers to. -/
def destination (prot : UInt8) (dev : Dev) : Dev := if isPing prot then dev else dev.twin

/-- `tx_buffer->datalen = len; memcpy(tx_buffer->data, buf, len)`. -/
def fillPacket (pkt : Addr) (buf : Block Buffer) (s : State) : State :=
  let filled := fillPayload (s.heap pkt).payload buf
  (s.onPacket pkt fun packet => { packet with payload := filled.value }).touching filled.touches

def snullHwTx (cfg : Config) (around : Surroundings) (buf : Block Buffer) (dev : Dev) (s : State) :
    Option State :=
  if buf.size < headerLen then
    some s
  else
    let frame := snullHwTxFrame cfg.ipFastCsum around.beyond buf
    let (prot, buf) := frame.value
    let dest := destination prot dev
    (snullGetTxBuffer dev (s.touching frame.touches)).map fun (txBuffer, s) =>
      let s := fillPacket txBuffer buf s
      let s := snullEnqueueBuf dest txBuffer s
      let s :=
        if (s.priv dest).rxIntEnabled then
          snullInterrupt cfg around.rxMemory dest (raiseStatus dest snullRxIntr s)
        else s
      let s := raiseStatus dev snullTxIntr (setTxPacketlen dev buf.size s)
      if simulatesLockup cfg dev s then netifStopQueue dev s
      else snullInterrupt cfg around.txMemory dev s

/-- `priv->skb = skb`. A frame of 60 bytes or more is later rewritten in place. What is kept
here has the bytes as they were handed over, which nothing reads again. -/
def rememberSkb (dev : Dev) (skb : Skb) (s : State) : State :=
  s.onPriv dev fun priv => { priv with skb := some skb }

/-- `snull_tx`; it returns 0 unless it faults. -/
def snullTx (cfg : Config) (around : Surroundings) (skb : Skb) (dev : Dev) (s : State) : Option State :=
  let data := snullTxData skb.data
  snullHwTx cfg around data.value dev (rememberSkb dev skb (s.touching data.touches))

/-- `priv->stats.tx_errors++`. -/
def countTxError (dev : Dev) (s : State) : State :=
  s.onPriv dev fun priv => { priv with stats :=
    { priv.stats with txErrors := priv.stats.txErrors + 1 } }

def snullTxTimeout (cfg : Config) (memory : Bool) (dev : Dev) (s : State) : State :=
  let s := setStatus dev snullTxIntr s
  let s := snullInterrupt cfg memory dev s
  netifWakeQueue dev (countTxError dev s)

inductive Call where
  | tx (dev : Dev) (skb : Skb) (around : Surroundings)
  | txTimeout (dev : Dev) (memory : Bool)

def Call.run (cfg : Config) (s : State) : Call → Option State
  | .tx dev skb around => snullTx cfg around skb dev s
  | .txTimeout dev memory => some (snullTxTimeout cfg memory dev s)

/-- `snull_tx` is called on a running queue and the watchdog fires on a stopped one. -/
def Call.Allowed (s : State) : Call → Prop
  | .tx dev _ _ => (s.device dev).stopped = false
  | .txTimeout dev _ => (s.device dev).stopped = true

instance (s : State) (call : Call) : Decidable (call.Allowed s) :=
  match call with
  | .tx _ _ _ => inferInstanceAs (Decidable (_ = _))
  | .txTimeout _ _ => inferInstanceAs (Decidable (_ = _))

end DeviceDrivers.Snull
