import DeviceDrivers.Snull.Frames
import Mathlib.Logic.Function.Basic
import Mathlib.Tactic.Simps.Basic

/-! The two devices, the packets they share, and the list operations done
under a device's spinlock. Packets live in a heap because the pools and the
receive queues are all threaded through the same `next` field. -/

namespace DeviceDrivers.Snull
open Touches

/-- `snull_devs[0]` and `snull_devs[1]`. -/
inductive Dev where
  | sn0
  | sn1
  deriving DecidableEq, Repr

def Dev.twin : Dev → Dev
  | .sn0 => .sn1
  | .sn1 => .sn0

/-- The address of a `struct snull_packet`; a NULL pointer is `none`. -/
abbrev Addr := Nat

structure Packet where
  next : Option Addr
  dev : Dev
  payload : Payload

/-- A socket buffer owned by the kernel. The number tells buffers apart. -/
structure Skb where
  id : Nat
  data : List UInt8
  deriving DecidableEq, Repr

structure Stats where
  rxPackets : UInt64 := 0
  rxBytes : UInt64 := 0
  rxDropped : UInt64 := 0
  txPackets : UInt64 := 0
  txBytes : UInt64 := 0
  txErrors : UInt64 := 0
  deriving DecidableEq, Repr

structure Priv where
  stats : Stats := {}
  status : BitVec 32 := 0#32
  ppool : Option Addr := none
  rxQueue : Option Addr := none
  rxIntEnabled : Bool := false
  txPacketlen : Nat := 0
  skb : Option Skb := none
  deriving DecidableEq, Repr

/-- The parts of `struct net_device` the driver and its callers look at: `up`
is `IFF_UP`, `stopped` is what `netif_queue_stopped` reads. A device that was
never opened does not transmit, so it counts as stopped. -/
structure NetDevice where
  priv : Priv := {}
  mtu : Int := 1500
  up : Bool := false
  stopped : Bool := true
  deriving DecidableEq, Repr

/-- Memory and devices, with what the driver has handed to the kernel so far:
frames given to the receive path, buffers given to `dev_kfree_skb` and
`kfree`, and every byte range it touched. `fresh` is the next packet address
`kmalloc` returns. -/
structure State where
  heap : Addr → Packet
  device : Dev → NetDevice
  passedUp : List (Dev × List UInt8)
  freed : List (Dev × Skb)
  touched : List (Touch Buffer)
  fresh : Addr
  kfreed : List Addr

namespace State

def priv (s : State) (dev : Dev) : Priv := (s.device dev).priv

@[simps]
def onDevice (s : State) (dev : Dev) (f : NetDevice → NetDevice) : State :=
  { s with device := Function.update s.device dev (f (s.device dev)) }

def onPriv (s : State) (dev : Dev) (f : Priv → Priv) : State :=
  s.onDevice dev fun device => { device with priv := f device.priv }

@[simps]
def onPacket (s : State) (pkt : Addr) (f : Packet → Packet) : State :=
  { s with heap := Function.update s.heap pkt (f (s.heap pkt)) }

@[simps]
def touching (s : State) (touches : List (Touch Buffer)) : State :=
  { s with touched := s.touched ++ touches }

end State

def netifStartQueue (dev : Dev) (s : State) : State :=
  s.onDevice dev fun device => { device with stopped := false }

def netifWakeQueue (dev : Dev) (s : State) : State :=
  s.onDevice dev fun device => { device with stopped := false }

def netifStopQueue (dev : Dev) (s : State) : State :=
  s.onDevice dev fun device => { device with stopped := true }

/-- `priv->ppool = pkt->next`. -/
def unlinkPool (dev : Dev) (pkt : Addr) (s : State) : State :=
  s.onPriv dev fun priv => { priv with ppool := (s.heap pkt).next }

/-- There is no test for an empty pool: `pkt->next` is then a NULL dereference. -/
def snullGetTxBuffer (dev : Dev) (s : State) : Option (Addr × State) :=
  match (s.priv dev).ppool with
  | none => none
  | some pkt =>
    let s := unlinkPool dev pkt s
    some (pkt, if (s.priv dev).ppool = none then netifStopQueue dev s else s)

def returnBuffer (pkt : Addr) (s : State) : State :=
  let dev := (s.heap pkt).dev
  let s := s.onPacket pkt fun packet => { packet with next := (s.priv dev).ppool }
  s.onPriv dev fun priv => { priv with ppool := some pkt }

/-- The test of `snull_release_buffer`, made after the lock is given up. -/
def wakeWanted (pkt : Addr) (s : State) : Bool :=
  (s.device (s.heap pkt).dev).stopped && (s.heap pkt).next.isNone

def snullReleaseBuffer (pkt : Addr) (s : State) : State :=
  let s := returnBuffer pkt s
  if wakeWanted pkt s then netifWakeQueue (s.heap pkt).dev s else s

def snullEnqueueBuf (dev : Dev) (pkt : Addr) (s : State) : State :=
  let s := s.onPacket pkt fun packet => { packet with next := (s.priv dev).rxQueue }
  s.onPriv dev fun priv => { priv with rxQueue := some pkt }

/-- `priv->rx_queue = pkt->next`. -/
def unlinkRx (dev : Dev) (pkt : Addr) (s : State) : State :=
  s.onPriv dev fun priv => { priv with rxQueue := (s.heap pkt).next }

def snullDequeueBuf (dev : Dev) (s : State) : Option Addr × State :=
  match (s.priv dev).rxQueue with
  | none => (none, s)
  | some pkt => (some pkt, unlinkRx dev pkt s)

def snullRxInts (dev : Dev) (enable : Bool) (s : State) : State :=
  s.onPriv dev fun priv => { priv with rxIntEnabled := enable }

def snullOpen (dev : Dev) (s : State) : State :=
  netifStartQueue dev (s.onDevice dev fun device => { device with up := true })

def snullRelease (dev : Dev) (s : State) : State :=
  netifStopQueue dev (s.onDevice dev fun device => { device with up := false })

/-- The return value and the new state; `-22` is `-EINVAL`. -/
def snullChangeMtu (dev : Dev) (newMtu : Int) (s : State) : Int × State :=
  if newMtu < 68 ∨ newMtu > 1500 then (-22, s)
  else (0, s.onDevice dev fun device => { device with mtu := newMtu })

def addPacket (dev : Dev) (s : State) : State :=
  let pkt := s.fresh
  let s := { s with fresh := pkt + 1 }
  let s := s.onPacket pkt fun packet => { packet with dev := dev, next := (s.priv dev).ppool }
  s.onPriv dev fun priv => { priv with ppool := some pkt }

/-- One `kmalloc` for each of the remaining rounds, with whether it succeeds.
The first failure ends the loop. -/
def snullSetupPoolLoop (kmalloc : Nat → Bool) (dev : Dev) : Nat → Nat → State → State
  | 0, _, s => s
  | remaining + 1, i, s =>
    if kmalloc i then snullSetupPoolLoop kmalloc dev remaining (i + 1) (addPacket dev s) else s

def snullSetupPool (poolSize : Int) (kmalloc : Nat → Bool) (dev : Dev) (s : State) : State :=
  snullSetupPoolLoop kmalloc dev poolSize.toNat 0
    (s.onPriv dev fun priv => { priv with ppool := none })

/-- `snull_init`: `ether_setup`, a zeroed private part, receive interrupts on, a pool. -/
def snullInit (poolSize : Int) (kmalloc : Nat → Bool) (dev : Dev) (s : State) : State :=
  let s := s.onDevice dev fun device => { device with mtu := 1500, priv := {} }
  snullSetupPool poolSize kmalloc dev (snullRxInts dev true s)

end DeviceDrivers.Snull
