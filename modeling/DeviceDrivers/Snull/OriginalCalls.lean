import DeviceDrivers.Snull.Module
import DeviceDrivers.Snull.OriginalFrames
import DeviceDrivers.Library.Interleavings

/-! The original driver with any number of calls in progress. Most of its statements are
those of the port. Its own are what it does to frames, that all of them go to the other
device, that its handler has the kernel schedule the poll, and that the poll has a quota
for the device and tells the kernel when it is done. -/

namespace DeviceDrivers.Snull.Original
open Touches
open Interleavings (System)

/-- `scheduled` is what `netif_rx_schedule` sets and `netif_rx_complete` clears, `quota`
is `dev->quota`, and `budget` what the poll in progress has a pointer to. -/
structure State where
  driver : Snull.State
  scheduled : Dev → Bool := fun _ => false
  quota : Dev → Int := fun _ => 0
  budget : Dev → Int := fun _ => 0

def onDriver (f : Snull.State → Snull.State) (s : State) : State := { s with driver := f s.driver }

/-- Nothing is scheduled for a device that is not up. -/
def netifRxSchedule (dev : Dev) (s : State) : State :=
  { s with scheduled := if (s.driver.device dev).up then Function.update s.scheduled dev true else s.scheduled }

def netifRxComplete (dev : Dev) (s : State) : State := { s with scheduled := Function.update s.scheduled dev false }

def snullRx (memory : Bool) (dev : Dev) (pkt : Addr) (s : Snull.State) : Snull.State :=
  if memory then
    let packet := (s.heap pkt).payload
    let frame := copyOut packet
    passUp dev frame.value.bytes (countRx dev packet.datalen (s.touching frame.touches))
  else
    countRxDropped dev s

def receiveOne (memory : Bool) (dev : Dev) (s : Snull.State) : Option Addr × Snull.State :=
  match (s.priv dev).rxQueue with
  | none => (none, s)
  | some pkt => (some pkt, snullRx memory dev pkt (unlinkRx dev pkt s))

/-- `snull_regular_interrupt` while it holds the lock. -/
def regularSection (memory : Bool) (dev : Dev) (s : Snull.State) : Option Addr × Snull.State :=
  let statusword := (s.priv dev).status
  let s := setStatus dev 0#32 s
  let (pkt, s) := if raised statusword snullRxIntr then receiveOne memory dev s else (none, s)
  (pkt, if raised statusword snullTxIntr then transmissionOver dev s else s)

/-- `snull_napi_interrupt`, all of it under the lock. -/
def napiSection (dev : Dev) (s : State) : State :=
  let statusword := (s.driver.priv dev).status
  let s := onDriver (setStatus dev 0#32) s
  let s := if raised statusword snullRxIntr then netifRxSchedule dev (onDriver (snullRxInts dev false) s) else s
  if raised statusword snullTxIntr then onDriver (transmissionOver dev) s else s

def interruptSection (cfg : Config) (memory : Bool) (dev : Dev) (s : State) : Option Addr × State :=
  if cfg.useNapi then (none, napiSection dev s)
  else
    let (pkt, driver) := regularSection memory dev s.driver
    (pkt, { s with driver })

/-- The points of the port, and `netif_rx_complete`. -/
inductive Point where
  | common (point : Snull.Point)
  | pollComplete (dev : Dev)
  deriving DecidableEq, Repr

def lift : Progress → Interleavings.Progress Point
  | .next point => .next (.common point)
  | .returned value => .returned value

/-- `snull_poll` has taken the lesser of the two limits when it tests for the first time. -/
def Point.step (cfg : Config) (memory : Bool) (s : State) : Point → Option (Interleavings.Progress Point × State)
  | .common (.enterTx dev skb beyond) =>
    let data := snullTxData skb.data
    let s := onDriver (fun driver => rememberSkb dev skb (driver.touching data.touches)) s
    if data.value.size < headerLen then
      some (.returned 0, s)
    else
      let frame := snullHwTxFrame cfg.ipFastCsum beyond data.value
      some (.next (.common (.getBuffer ⟨dev, dev.twin, frame.value⟩)),
        onDriver (fun driver => driver.touching frame.touches) s)
  | .common (.interrupt dev caller) =>
    match interruptSection cfg memory dev s with
    | (some pkt, s) => some (.next (.common (.release pkt caller)), s)
    | (none, s) => some (lift caller.resume, s)
  | .common (.pollDone dev npackets _) =>
    let s := { s with
      budget := Function.update s.budget dev (s.budget dev - npackets)
      quota := Function.update s.quota dev (s.quota dev - npackets) }
    if (s.driver.priv dev).rxQueue = none then some (.next (.pollComplete dev), s)
    else some (.returned 1, s)
  | .common point =>
    (point.step cfg memory s.driver).map fun (progress, driver) => (lift progress, { s with driver })
  | .pollComplete dev => some (.next (.common (.pollEnable dev)), netifRxComplete dev s)

def Point.sender : Point → Option Dev
  | .common point => point.sender
  | .pollComplete _ => none

/-- The device whose poll the call is, until the kernel has been told that it is done. -/
def Point.poller : Point → Option Dev
  | .common (.pollEnable _) => none
  | .common point => point.poller
  | .pollComplete dev => some dev

abbrev Machine := System State Point

/-- `refill` is the kernel setting the quota of a device that it has on its list. -/
inductive Action where
  | open (dev : Dev)
  | release (dev : Dev)
  | changeMtu (dev : Dev) (mtu : Int)
  | startTx (dev : Dev) (skb : Skb) (beyond : List UInt8)
  | startTimeout (dev : Dev)
  | startInterrupt (dev : Dev)
  | refill (dev : Dev) (quota : Int)
  | startPoll (dev : Dev) (budget : Int)
  | run (index : Nat) (memory : Bool)

def pollLimit (s : State) (dev : Dev) (budget : Int) : Nat := (min (s.quota dev) budget).toNat

/-- The kernel polls the devices that are scheduled, one poll of each at a time. -/
def Machine.step (cfg : Config) (m : Machine) : Action → Option Machine
  | .open dev => some { m with shared := onDriver (snullOpen dev) m.shared }
  | .release dev => some { m with shared := onDriver (snullRelease dev) m.shared }
  | .changeMtu dev mtu => some { m with shared := onDriver (fun driver => (snullChangeMtu dev mtu driver).2) m.shared }
  | .startTx dev skb beyond =>
    if ∃ point ∈ m.calls, point.sender = some dev then none else some (m.start (.common (.enterTx dev skb beyond)))
  | .startTimeout dev => some (m.start (.common (.enterTimeout dev)))
  | .startInterrupt dev => some (m.start (.common (.interrupt dev .hardware)))
  | .refill dev quota => some { m with shared := { m.shared with quota := Function.update m.shared.quota dev quota } }
  | .startPoll dev budget =>
    if m.shared.scheduled dev = false ∨ ∃ point ∈ m.calls, point.poller = some dev then none
    else some
      { m.start (.common (.pollTest dev 0 (pollLimit m.shared dev budget))) with
        shared := { m.shared with budget := Function.update m.shared.budget dev budget } }
  | .run index memory => m.run (Point.step cfg memory) index

/-- Both devices set up by `snull_init`, which does not differ from the port's. -/
def loaded (cfg : Config) (kmalloc : Dev → Nat → Bool) (memory : Addr → Packet) : State :=
  { driver := setUp cfg kmalloc memory }

end DeviceDrivers.Snull.Original
