import DeviceDrivers.Proofs.SnullFrames
import DeviceDrivers.Proofs.SnullLedger

/-! One complete `snull_tx` or `snull_tx_timeout` of the regular mode, from a
state with nothing announced: what it leaves behind of either half of the state. -/

namespace DeviceDrivers.Snull
open Touches

section Payloads
variable (s : State) (dev : Dev) (pkt other : Addr)

@[simp] theorem payload_enqueue : ((snullEnqueueBuf dev pkt s).heap other).payload = (s.heap other).payload := by
  simp only [snullEnqueueBuf, State.onPriv, State.onDevice_heap, State.onPacket_heap, Function.update_apply]
  split
  next same => rw [same]
  next => rfl

@[simp] theorem payload_raise (flag : BitVec 32) : ((raiseStatus dev flag s).heap other).payload =
    (s.heap other).payload := rfl

private theorem payload_fill (buf : Block Buffer) : ((fillPacket pkt buf s).heap pkt).payload =
    (fillPayload (s.heap pkt).payload buf).value := by
  simp [fillPacket]

end Payloads

/-- A returned packet wakes its owner if the pool was empty and the queue stopped. -/
theorem control_release (s : State) (pkt : Addr) : (snullReleaseBuffer pkt s).control =
    { s.control with
      links := s.control.links.give pkt
      stopped :=
        if s.control.stopped (s.control.links.dev pkt) = true ∧
            s.control.links.ppool (s.control.links.dev pkt) = none then
          Function.update s.control.stopped (s.control.links.dev pkt) false
        else s.control.stopped } := by
  have wanted : wakeWanted pkt (returnBuffer pkt s) =
      ((returnBuffer pkt s).control.stopped ((returnBuffer pkt s).control.links.dev pkt) &&
        ((returnBuffer pkt s).control.links.next pkt).isNone) := rfl
  have owner : ((returnBuffer pkt s).heap pkt).dev = (returnBuffer pkt s).control.links.dev pkt := rfl
  simp only [snullReleaseBuffer, wanted, owner, control_return, Links.give, Function.update_self]
  simp only [Bool.and_eq_true, Option.isNone_iff_eq_none]
  split <;> simp [Links.give]

variable {cfg : Config} {s : State} {dev : Dev} {memory : Bool}

private theorem receiveOne_ledger (queue : Option Addr) (same : s.control.links.rxQueue dev = queue) :
    (receiveOne memory dev s).2.ledger =
      queue.elim s.ledger fun pkt => s.ledger.arrive dev memory (s.heap pkt).payload := by
  subst same
  have pointer : s.control.links.rxQueue dev = (s.priv dev).rxQueue := rfl
  unfold receiveOne
  split
  next empty => simp [pointer, empty]
  next pkt head =>
    rw [pointer, head, ledger_snullRx, ledger_unlinkRx]
    rfl

private theorem regularSection_ledger : (regularSection memory dev s).2.ledger =
    ((if raised (s.control.status dev) snullRxIntr = true then s.control.links.rxQueue dev else none).elim s.ledger
      fun pkt => s.ledger.arrive dev memory (s.heap pkt).payload).completedIf dev
        (raised (s.control.status dev) snullTxIntr) := by
  have word : (s.priv dev).status = s.control.status dev := rfl
  have completed (state : State) (finished : Bool) :
      (if finished = true then transmissionOver dev state else state).ledger =
        Ledger.completedIf dev state.ledger finished := by
    cases finished <;> simp [Ledger.completedIf]
  simp only [regularSection, word, completed]
  split
  next => rw [receiveOne_ledger (s.control.links.rxQueue dev) (by simp), ledger_setStatus]; rfl
  next => simp

/-- The locked section of the regular handler, on both halves of the state.
`queue` is the packet it takes, if it was told of one and finds it. -/
private theorem regular_section {queue : Option Addr} (regular : cfg.useNapi = false)
    (found : (if raised (s.control.status dev) snullRxIntr = true then s.control.links.rxQueue dev else none) = queue) :
    ∃ after, interruptSection cfg memory dev s = (queue, after) ∧
      after.control =
        { s.control with
          links := queue.elim s.control.links (s.control.links.dequeue dev)
          status := Function.update s.control.status dev 0#32 } ∧
      after.ledger = (queue.elim s.ledger fun pkt => s.ledger.arrive dev memory (s.heap pkt).payload).completedIf dev
        (raised (s.control.status dev) snullTxIntr) := by
  obtain ⟨taken, control⟩ := interruptSection_control cfg memory dev s
  have taken : (interruptSection cfg memory dev s).1 = queue := by
    simpa [Control.Signalled, regular, found] using taken
  refine ⟨_, Prod.ext taken rfl, ?_, ?_⟩
  · rw [taken] at control
    simpa [regular] using control
  · rw [interruptSection, regular]
    exact found ▸ regularSection_ledger

private theorem interrupt_received {pkt : Addr} (regular : cfg.useNapi = false)
    (signalled : raised (s.control.status dev) snullRxIntr = true) (head : s.control.links.rxQueue dev = some pkt) :
    (snullInterrupt cfg memory dev s).control =
      { s.control with
        links := (s.control.links.dequeue dev pkt).give pkt
        status := Function.update s.control.status dev 0#32
        stopped :=
          if s.control.stopped (s.control.links.dev pkt) = true ∧
              s.control.links.ppool (s.control.links.dev pkt) = none then
            Function.update s.control.stopped (s.control.links.dev pkt) false
          else s.control.stopped } ∧
    (snullInterrupt cfg memory dev s).ledger =
      (s.ledger.arrive dev memory (s.heap pkt).payload).completedIf dev
        (raised (s.control.status dev) snullTxIntr) := by
  obtain ⟨after, entered, control, ledger⟩ :=
    @regular_section cfg s dev memory (some pkt) regular ((if_pos signalled).trans head)
  rw [snullInterrupt, entered]
  exact ⟨by rw [control_release, control]; rfl, by rw [ledger_release, ledger]; rfl⟩

private theorem interrupt_nothing (regular : cfg.useNapi = false)
    (nothing : raised (s.control.status dev) snullRxIntr = true → s.control.links.rxQueue dev = none) :
    (snullInterrupt cfg memory dev s).control =
      { s.control with status := Function.update s.control.status dev 0#32 } ∧
    (snullInterrupt cfg memory dev s).ledger =
      s.ledger.completedIf dev (raised (s.control.status dev) snullTxIntr) := by
  have empty : (if raised (s.control.status dev) snullRxIntr = true then s.control.links.rxQueue dev else none) =
      none := by
    split
    next signalled => exact nothing signalled
    next => rfl
  obtain ⟨after, entered, control, ledger⟩ := @regular_section cfg s dev memory none regular empty
  rw [snullInterrupt, entered]
  exact ⟨control, ledger⟩

/-- A packet that is taken, queued, unlinked again and given back leaves all
lists as they were. -/
private theorem Links.round_trip (links : Links) {dev dest : Dev} {pkt : Addr} (head : links.ppool dev = some pkt)
    (owned : links.dev pkt = dev) :
    (((links.take dev pkt).enqueue dest pkt).dequeue dest pkt).give pkt = links := by
  subst owned
  ext1
  · simp [Links.take, Links.enqueue, Links.dequeue, Links.give]
  · rfl
  · simp [Links.take, Links.enqueue, Links.dequeue, Links.give, ← head]
  · simp [Links.take, Links.enqueue, Links.dequeue, Links.give]

private theorem getTxBuffer_some {pkt : Addr} (head : s.control.links.ppool dev = some pkt) :
    ∃ after, snullGetTxBuffer dev s = some (pkt, after) ∧ after.heap = s.heap ∧ after.ledger = s.ledger := by
  have pointer : (s.priv dev).ppool = some pkt := head
  refine ⟨_, by rw [snullGetTxBuffer, pointer], ?_⟩
  split
  · exact ⟨rfl, by simp⟩
  · exact ⟨rfl, by simp⟩

def Ledger.arriveFrame (dest : Dev) (g : Ledger) (memory : Bool) (size : Nat) (frame : List UInt8) : Ledger :=
  if memory then g.received dest size (delivered frame) else g.dropped dest

variable {around : Surroundings} {buf : Block Buffer} {dest : Dev}

private theorem arrive_fill (full : buf.Full) (g : Ledger) (old : Payload) :
    g.arrive dest memory (fillPayload old buf).value = g.arriveFrame dest memory buf.size buf.bytes := by
  obtain ⟨datalen, bytes⟩ := rxFrame_fill old full
  rw [Ledger.arrive, datalen, bytes]
  rfl

/-- Up to and including the simulated receive interrupt. -/
private theorem receive_spec {pkt : Addr} (regular : cfg.useNapi = false)
    (enabled : s.control.rxIntEnabled dest = true) (head : s.control.links.ppool dev = some pkt)
    (owned : s.control.links.dev pkt = dev) (full : buf.Full) :
    ∃ taken, snullGetTxBuffer dev s = some (pkt, taken) ∧
      ((snullEnqueueBuf dest pkt (fillPacket pkt buf taken)).priv dest).rxIntEnabled = true ∧
      let after := snullInterrupt cfg memory dest
        (raiseStatus dest snullRxIntr (snullEnqueueBuf dest pkt (fillPacket pkt buf taken)))
      after.control =
        { s.control with
          status := Function.update s.control.status dest 0#32
          stopped := Function.update s.control.stopped dev
            ((s.control.links.next pkt).isSome && s.control.stopped dev) } ∧
      after.ledger =
        (s.ledger.arriveFrame dest memory buf.size buf.bytes).completedIf dest
          (raised (s.control.status dest) snullTxIntr) := by
  obtain ⟨taken, got, heap, ledger⟩ := getTxBuffer_some head
  obtain ⟨_, control⟩ := control_getTxBuffer got
  let filled := snullEnqueueBuf dest pkt (fillPacket pkt buf taken)
  have linked : filled.control = { taken.control with links := taken.control.links.enqueue dest pkt } := by
    simp [filled]
  have raisedRx : (raiseStatus dest snullRxIntr filled).control =
      { filled.control with
        status := Function.update filled.control.status dest (filled.control.status dest ||| snullRxIntr) } :=
    control_raise ..
  have payload : ((raiseStatus dest snullRxIntr filled).heap pkt).payload =
      (fillPayload (s.heap pkt).payload buf).value := by
    rw [payload_raise, payload_enqueue, payload_fill, heap]
  obtain ⟨after, counted⟩ := @interrupt_received cfg (raiseStatus dest snullRxIntr filled) dest memory pkt regular
    (by simp [raisedRx, raised_or]) (by simp [raisedRx, linked, Links.enqueue])
  refine ⟨taken, got, ?_, ?_, ?_⟩
  · have unmasked : filled.control.rxIntEnabled dest = true := by
      rw [linked, control]
      exact enabled
    exact unmasked
  · have owner : (s.control.links.take dev pkt).dev pkt = dev := owned
    rw [after, raisedRx, linked, control]
    simp only [Control.mk.injEq, Links.round_trip _ head owned, Function.update_idem, true_and, and_true]
    simp only [Links.enqueue, Links.take, owned, Function.update_self]
    cases next : s.control.links.next pkt with
    | none => simp
    | some other => simp
  · have same : (raiseStatus dest snullRxIntr filled).ledger = s.ledger := by
      simp [filled, ledger]
    rw [counted, payload, arrive_fill full, same, raisedRx, linked, control]
    simp [raised_or]

private theorem finish_spec {size : Nat} (regular : cfg.useNapi = false)
    (answered : raised (s.control.status dev) snullRxIntr = true → s.control.links.rxQueue dev = none) :
    let announced := raiseStatus dev snullTxIntr (setTxPacketlen dev size s)
    let after := if simulatesLockup cfg dev announced then netifStopQueue dev announced
      else snullInterrupt cfg memory dev announced
    if (s.ledger.setLen dev size).locks dev cfg then
      after.control =
        { s.control with
          status := Function.update s.control.status dev (s.control.status dev ||| snullTxIntr)
          stopped := Function.update s.control.stopped dev true } ∧
      after.ledger = s.ledger.setLen dev size
    else
      after.control = { s.control with status := Function.update s.control.status dev 0#32 } ∧
      after.ledger = (s.ledger.setLen dev size).completed dev := by
  intro announced after
  have control : announced.control =
      { s.control with
        status := Function.update s.control.status dev (s.control.status dev ||| snullTxIntr) } := by
    simp [announced]
  have ledger : announced.ledger = s.ledger.setLen dev size := by simp [announced]
  simp only [after, simulatesLockup_ledger, ledger]
  split
  · simp [control, ledger]
  · obtain ⟨cleared, completed⟩ := @interrupt_nothing cfg announced dev memory regular
      (by simpa [control, raised_or] using answered)
    simp [cleared, completed, control, ledger, raised_or, Ledger.completedIf]

private theorem hwTx_stages {prot : UInt8} {rewritten : Block Buffer} {pkt : Addr} {taken : State}
    (long : ¬ buf.size < headerLen)
    (value : (snullHwTxFrame cfg.ipFastCsum around.beyond buf).value = (prot, rewritten))
    (got : snullGetTxBuffer dev (s.touching (snullHwTxFrame cfg.ipFastCsum around.beyond buf).touches) =
      some (pkt, taken))
    (target : destination prot dev = dest)
    (unmasked : ((snullEnqueueBuf dest pkt (fillPacket pkt rewritten taken)).priv dest).rxIntEnabled = true) :
    let delivered := snullInterrupt cfg around.rxMemory dest
      (raiseStatus dest snullRxIntr (snullEnqueueBuf dest pkt (fillPacket pkt rewritten taken)))
    let announced := raiseStatus dev snullTxIntr (setTxPacketlen dev rewritten.size delivered)
    snullHwTx cfg around buf dev s =
      some (if simulatesLockup cfg dev announced then netifStopQueue dev announced
        else snullInterrupt cfg around.txMemory dev announced) := by
  simp only [snullHwTx, if_neg long, value, got, Option.map_some, target, unmasked, if_true]

def route (skb : Skb) (dev : Dev) : Dev := destination (frameProt (padded skb.data).bytes) dev

/-- A frame taken for a ping goes back to its sender, any other to the other device. -/
theorem route_eq (skb : Skb) (dev : Dev) :
    route skb dev = if TakenForPing (padded skb.data).bytes then dev else dev.twin := by
  rw [route, destination]
  exact if_congr (isPing_frameProt _) rfl rfl

def State.arrived (s : State) (cfg : Config) (around : Surroundings) (skb : Skb) (dev : Dev) : Ledger :=
  (((s.ledger.remember dev skb).arriveFrame (route skb dev) around.rxMemory (padded skb.data).size
      (sent (padded skb.data) cfg.ipFastCsum around.beyond)).completedIf (route skb dev)
    (raised (s.control.status (route skb dev)) snullTxIntr)).setLen dev (padded skb.data).size

/-- A complete `snull_tx` on a device with no announced packet to receive: the
lists end up as they were, the frame has arrived, and the transmission is
completed unless the interrupt for it is dropped to simulate a lockup. -/
theorem snullTx_spec {skb : Skb} {pkt : Addr} (regular : cfg.useNapi = false)
    (enabled : ∀ dev, s.control.rxIntEnabled dev = true)
    (answered : raised (s.control.status dev) snullRxIntr = true → s.control.links.rxQueue dev = none)
    (head : s.control.links.ppool dev = some pkt) (owned : s.control.links.dev pkt = dev) :
    ∃ s', snullTx cfg around skb dev s = some s' ∧
      if (s.arrived cfg around skb dev).locks dev cfg then
        s'.control =
          { s.control with
            status := Function.update (Function.update s.control.status (route skb dev) 0#32) dev
              (Function.update s.control.status (route skb dev) 0#32 dev ||| snullTxIntr)
            stopped := Function.update s.control.stopped dev true } ∧
        s'.ledger = s.arrived cfg around skb dev
      else
        s'.control =
          { s.control with
            status := Function.update (Function.update s.control.status (route skb dev) 0#32) dev 0#32
            stopped := Function.update s.control.stopped dev
              ((s.control.links.next pkt).isSome && s.control.stopped dev) } ∧
        s'.ledger = (s.arrived cfg around skb dev).completed dev := by
  let entered := rememberSkb dev skb (s.touching (snullTxData skb.data).touches)
  have control : entered.control = s.control := by simp [entered]
  have ledger : entered.ledger = s.ledger.remember dev skb := by simp [entered]
  have enough := padded_enough_bytes skb.data
  let rewritten : Block Buffer := { padded skb.data with bytes := sent (padded skb.data) cfg.ipFastCsum around.beyond }
  have full : rewritten.Full := (sent_length enough).trans (padded_full skb.data)
  let ready := entered.touching (snullHwTxFrame cfg.ipFastCsum around.beyond (padded skb.data)).touches
  have same : ready.control = s.control := control
  obtain ⟨taken, got, unmasked, received⟩ := @receive_spec cfg ready dev around.rxMemory rewritten (route skb dev)
    pkt regular (same ▸ enabled _) (same ▸ head) (same ▸ owned) full
  obtain ⟨after, arrived⟩ := received
  let delivered := snullInterrupt cfg around.rxMemory (route skb dev)
    (raiseStatus (route skb dev) snullRxIntr (snullEnqueueBuf (route skb dev) pkt (fillPacket pkt rewritten taken)))
  have unannounced : raised (delivered.control.status dev) snullRxIntr = true →
      delivered.control.links.rxQueue dev = none := by
    rw [after, same]
    intro set
    simp only [Function.update_apply] at set
    split at set
    next => simp [raised] at set
    next => exact answered set
  have finish := @finish_spec cfg delivered dev around.txMemory rewritten.size regular unannounced
  refine ⟨_, hwTx_stages (padded_long _) (hwTxFrame_value enough) got rfl unmasked, ?_⟩
  have whole : s.arrived cfg around skb dev = delivered.ledger.setLen dev rewritten.size := by
    rw [State.arrived, ← ledger, ← control]
    exact congrArg (Ledger.setLen dev · _) arrived.symm
  have reached : delivered.control = _ := after
  rw [whole]
  split
  next locks =>
    rw [if_pos locks] at finish
    simp only [reached, same, Function.update_idem] at finish
    exact finish
  next completes =>
    rw [if_neg completes] at finish
    simp only [reached, same] at finish
    exact finish

/-- The watchdog's call raises the transmit bit itself, whatever the word was. -/
theorem snullTxTimeout_spec (regular : cfg.useNapi = false) :
    (snullTxTimeout cfg memory dev s).control =
      { s.control with
        status := Function.update s.control.status dev 0#32
        stopped := Function.update s.control.stopped dev false } ∧
    (snullTxTimeout cfg memory dev s).ledger = (s.ledger.completed dev).error dev := by
  obtain ⟨control, ledger⟩ := @interrupt_nothing cfg (setStatus dev snullTxIntr s) dev memory regular (by simp)
  simp [snullTxTimeout, control, ledger, Ledger.completedIf]

end DeviceDrivers.Snull
