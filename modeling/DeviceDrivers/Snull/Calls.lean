import DeviceDrivers.Snull.Driver

/-! The driver with any number of calls in progress. A call is the point it
has reached with the locals still needed there. One step of a call is one
spinlock-protected section or one statement outside a lock. -/

namespace DeviceDrivers.Snull
open Touches

/-- The locals of `snull_tx` and `snull_hw_tx` once the frame is rewritten. -/
structure Transmit where
  dev : Dev
  dest : Dev
  buf : Block Buffer
  deriving DecidableEq, Repr

/-- Who runs an interrupt handler or `snull_release_buffer`, and so where it returns to. -/
inductive Caller where
  | rxInterrupt (tx : Transmit)
  | txInterrupt (tx : Transmit)
  | timeout (dev : Dev)
  | hardware
  | poll (dev : Dev) (npackets quota : Nat)
  deriving DecidableEq, Repr

inductive Point where
  | enterTx (dev : Dev) (skb : Skb) (beyond : List UInt8)
  | getBuffer (tx : Transmit)
  | fill (tx : Transmit) (pkt : Addr)
  | enqueue (tx : Transmit) (pkt : Addr)
  | testRxInts (tx : Transmit)
  | raiseRx (tx : Transmit)
  | recordLen (tx : Transmit)
  | raiseTx (tx : Transmit)
  | testLockup (tx : Transmit)
  | interrupt (dev : Dev) (caller : Caller)
  | release (pkt : Addr) (caller : Caller)
  | testWake (pkt : Addr) (caller : Caller)
  | wake (dev : Dev) (caller : Caller)
  | enterTimeout (dev : Dev)
  | countError (dev : Dev)
  | wakeTimeout (dev : Dev)
  | pollTest (dev : Dev) (npackets quota : Nat)
  | pollDequeue (dev : Dev) (npackets quota : Nat)
  | pollReceive (dev : Dev) (pkt : Addr) (npackets quota : Nat)
  | pollDone (dev : Dev) (npackets quota : Nat)
  | pollEnable (dev : Dev)
  deriving DecidableEq, Repr

inductive Progress where
  | next (point : Point)
  | returned (value : Int)

def Progress.points : Progress → List Point
  | .next point => [point]
  | .returned _ => []

@[simp] theorem Progress.points_next (point : Point) : (Progress.next point).points = [point] := rfl
@[simp] theorem Progress.points_returned (value : Int) : (Progress.returned value).points = [] := rfl

/-- The statement after the call that has just returned to `caller`. -/
def Caller.resume : Caller → Progress
  | .rxInterrupt tx => .next (.recordLen tx)
  | .txInterrupt _ => .returned 0
  | .timeout dev => .next (.countError dev)
  | .hardware => .returned 0
  | .poll dev npackets quota => .next (.pollTest dev npackets quota)

/-- One step of a call, or none where it dereferences a NULL pointer or waits in
`napi_disable` for itself. `memory` is the outcome of `dev_alloc_skb` should the step call it. -/
def Point.step (cfg : Config) (memory : Bool) (s : State) : Point → Option (Progress × State)
  | .enterTx dev skb beyond =>
    let data := snullTxData skb.data
    let s := rememberSkb dev skb (s.touching data.touches)
    if data.value.size < headerLen then
      some (.returned 0, s)
    else
      let frame := snullHwTxFrame cfg.ipFastCsum beyond data.value
      let (prot, buf) := frame.value
      some (.next (.getBuffer ⟨dev, destination prot dev, buf⟩), s.touching frame.touches)
  | .getBuffer tx =>
    (snullGetTxBuffer tx.dev s).map fun (pkt, s) => (.next (.fill tx pkt), s)
  | .fill tx pkt => some (.next (.enqueue tx pkt), fillPacket pkt tx.buf s)
  | .enqueue tx pkt => some (.next (.testRxInts tx), snullEnqueueBuf tx.dest pkt s)
  | .testRxInts tx =>
    some (.next (if (s.priv tx.dest).rxIntEnabled then .raiseRx tx else .recordLen tx), s)
  | .raiseRx tx =>
    some (.next (.interrupt tx.dest (.rxInterrupt tx)), raiseStatus tx.dest snullRxIntr s)
  | .recordLen tx =>
    some (.next (.raiseTx tx), setTxPacketlen tx.dev tx.buf.size s)
  | .raiseTx tx => some (.next (.testLockup tx), raiseStatus tx.dev snullTxIntr s)
  | .testLockup tx =>
    if simulatesLockup cfg tx.dev s then some (.returned 0, netifStopQueue tx.dev s)
    else some (.next (.interrupt tx.dev (.txInterrupt tx)), s)
  | .interrupt dev caller =>
    match interruptSection cfg memory dev s with
    | (some pkt, s) => some (.next (.release pkt caller), s)
    | (none, s) => some (caller.resume, s)
  | .release pkt caller => some (.next (.testWake pkt caller), returnBuffer pkt s)
  | .testWake pkt caller =>
    some (if wakeWanted pkt s then .next (.wake (s.heap pkt).dev caller) else caller.resume, s)
  | .wake dev caller => some (caller.resume, netifWakeQueue dev s)
  | .enterTimeout dev =>
    some (.next (.interrupt dev (.timeout dev)), setStatus dev snullTxIntr s)
  | .countError dev => some (.next (.wakeTimeout dev), countTxError dev s)
  | .wakeTimeout dev => some (.returned 0, netifWakeQueue dev s)
  | .pollTest dev npackets quota =>
    if npackets < quota ∧ (s.priv dev).rxQueue ≠ none then
      some (.next (.pollDequeue dev npackets quota), s)
    else
      some (.next (.pollDone dev npackets quota), s)
  | .pollDequeue dev npackets quota =>
    match snullDequeueBuf dev s with
    | (none, _) => none
    | (some pkt, s) => some (.next (.pollReceive dev pkt npackets quota), s)
  | .pollReceive dev pkt npackets quota =>
    if memory then
      let packet := (s.heap pkt).payload
      let frame := copyOut packet
      some (.next (.release pkt (.poll dev (npackets + 1) quota)),
        countRx dev packet.datalen (passUp dev frame.value.bytes (s.touching frame.touches)))
    else
      some (.next (.release pkt (.poll dev npackets quota)), countRxDropped dev s)
  | .pollDone dev _ _ =>
    if (s.priv dev).rxQueue = none then (cfg.napiDisable true s).map fun s => (.next (.pollEnable dev), s)
    else some (.returned 1, s)
  | .pollEnable dev => some (.returned 0, snullRxInts dev true s)

def Caller.sender : Caller → Option Dev
  | .rxInterrupt tx | .txInterrupt tx => some tx.dev
  | _ => none

def Point.sender : Point → Option Dev
  | .enterTx dev _ _ => some dev
  | .getBuffer tx | .fill tx _ | .enqueue tx _ | .testRxInts tx | .raiseRx tx | .recordLen tx
  | .raiseTx tx | .testLockup tx => some tx.dev
  | .interrupt _ caller | .release _ caller | .testWake _ caller | .wake _ caller => caller.sender
  | _ => none

def Caller.poller : Caller → Option Dev
  | .poll dev _ _ => some dev
  | _ => none

def Point.poller : Point → Option Dev
  | .pollTest dev _ _ | .pollDequeue dev _ _ | .pollReceive dev _ _ _ | .pollDone dev _ _
  | .pollEnable dev => some dev
  | .interrupt _ caller | .release _ caller | .testWake _ caller | .wake _ caller => caller.poller
  | _ => none

structure Machine where
  state : State
  calls : List Point

/-- What happens next: the kernel makes a call, or one step of the call in
place `index` of those in progress is executed. -/
inductive Action where
  | open (dev : Dev)
  | release (dev : Dev)
  | changeMtu (dev : Dev) (mtu : Int)
  | startTx (dev : Dev) (skb : Skb) (beyond : List UInt8)
  | startTimeout (dev : Dev)
  | startInterrupt (dev : Dev)
  | startPoll (dev : Dev) (budget : Nat)
  | run (index : Nat) (memory : Bool)

namespace Machine

def start (m : Machine) (point : Point) : Machine := { m with calls := m.calls ++ [point] }

/-- A device has at most one `snull_tx` and at most one `snull_poll` in
progress, and polls happen in NAPI mode only. -/
def step (cfg : Config) (m : Machine) : Action → Option Machine
  | .open dev => some { m with state := snullOpen dev m.state }
  | .release dev => some { m with state := snullRelease dev m.state }
  | .changeMtu dev mtu => some { m with state := (snullChangeMtu dev mtu m.state).2 }
  | .startTx dev skb beyond =>
    if ∃ point ∈ m.calls, point.sender = some dev then none else some (m.start (.enterTx dev skb beyond))
  | .startTimeout dev => some (m.start (.enterTimeout dev))
  | .startInterrupt dev => some (m.start (.interrupt dev .hardware))
  | .startPoll dev budget =>
    if cfg.useNapi = false ∨ ∃ point ∈ m.calls, point.poller = some dev then none
    else some (m.start (.pollTest dev 0 budget))
  | .run index memory =>
    match m.calls[index]? with
    | none => none
    | some point => (point.step cfg memory m.state).map fun (progress, state) =>
      ⟨state, m.calls.take index ++ progress.points ++ m.calls.drop (index + 1)⟩

end Machine

end DeviceDrivers.Snull
