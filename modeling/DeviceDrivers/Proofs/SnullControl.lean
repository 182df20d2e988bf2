import DeviceDrivers.Snull.Calls

/-! The part of a state that decides what the driver does next: pointers,
status words and queue flags. Counters, frames and logs are left out, so the
operations that only touch those are invisible here. -/

namespace DeviceDrivers.Snull
open Touches

@[ext] structure Links where
  next : Addr → Option Addr
  dev : Addr → Dev
  ppool : Dev → Option Addr
  rxQueue : Dev → Option Addr

namespace Links
variable (links : Links) (dev : Dev) (pkt : Addr)

def take : Links := { links with ppool := Function.update links.ppool dev (links.next pkt) }
def dequeue : Links := { links with rxQueue := Function.update links.rxQueue dev (links.next pkt) }

def give : Links :=
  { links with
    next := Function.update links.next pkt (links.ppool (links.dev pkt))
    ppool := Function.update links.ppool (links.dev pkt) (some pkt) }

def enqueue : Links :=
  { links with
    next := Function.update links.next pkt (links.rxQueue dev)
    rxQueue := Function.update links.rxQueue dev (some pkt) }

end Links

structure Control where
  links : Links
  status : Dev → BitVec 32
  rxIntEnabled : Dev → Bool
  stopped : Dev → Bool
  up : Dev → Bool

def State.control (s : State) : Control where
  links := ⟨fun pkt => (s.heap pkt).next, fun pkt => (s.heap pkt).dev,
    fun dev => (s.priv dev).ppool, fun dev => (s.priv dev).rxQueue⟩
  status dev := (s.priv dev).status
  rxIntEnabled dev := (s.priv dev).rxIntEnabled
  stopped dev := (s.device dev).stopped
  up dev := (s.device dev).up

theorem raised_or (word flag bit : BitVec 32) :
    raised (word ||| flag) bit = (raised word bit || raised flag bit) := by
  have spread : (word ||| flag) &&& bit = word &&& bit ||| flag &&& bit := by
    ext i
    simp [Bool.and_or_distrib_right]
  rw [Bool.eq_iff_iff]
  simp only [raised, spread, bne_iff_ne, ne_eq, BitVec.or_eq_zero_iff, Bool.or_eq_true]
  tauto

@[simp] theorem raised_zero (bit : BitVec 32) : raised 0#32 bit = false := by simp [raised]
@[simp] theorem raised_rx_rx : raised snullRxIntr snullRxIntr = true := by decide
@[simp] theorem raised_tx_tx : raised snullTxIntr snullTxIntr = true := by decide
@[simp] theorem raised_rx_tx : raised snullRxIntr snullTxIntr = false := by decide
@[simp] theorem raised_tx_rx : raised snullTxIntr snullRxIntr = false := by decide

section Operations
variable (s : State) (dev : Dev) (pkt : Addr)

theorem control_onDevice (f : NetDevice → NetDevice) :
    (s.onDevice dev f).control =
      { links :=
          { s.control.links with
            ppool := Function.update s.control.links.ppool dev (f (s.device dev)).priv.ppool
            rxQueue := Function.update s.control.links.rxQueue dev (f (s.device dev)).priv.rxQueue }
        status := Function.update s.control.status dev (f (s.device dev)).priv.status
        rxIntEnabled := Function.update s.control.rxIntEnabled dev (f (s.device dev)).priv.rxIntEnabled
        stopped := Function.update s.control.stopped dev (f (s.device dev)).stopped
        up := Function.update s.control.up dev (f (s.device dev)).up } := by
  simp only [State.control, State.priv, State.onDevice_heap, State.onDevice_device, Control.mk.injEq,
    Links.mk.injEq, true_and]
  refine ⟨⟨?_, ?_⟩, ?_, ?_, ?_, ?_⟩
  all_goals
    funext other
    simp only [Function.update_apply]
    split <;> rfl

theorem control_onPacket (f : Packet → Packet) :
    (s.onPacket pkt f).control =
      { s.control with
        links :=
          { s.control.links with
            next := Function.update s.control.links.next pkt (f (s.heap pkt)).next
            dev := Function.update s.control.links.dev pkt (f (s.heap pkt)).dev } } := by
  simp only [State.control, State.priv, State.onPacket_heap, State.onPacket_device, Control.mk.injEq,
    Links.mk.injEq, and_true]
  refine ⟨?_, ?_⟩
  all_goals
    funext other
    simp only [Function.update_apply]
    split <;> rfl

@[simp] theorem control_start : (netifStartQueue dev s).control =
    { s.control with stopped := Function.update s.control.stopped dev false } := by
  rw [netifStartQueue, control_onDevice]
  simp [State.control, State.priv]

@[simp] theorem control_wake : (netifWakeQueue dev s).control =
    { s.control with stopped := Function.update s.control.stopped dev false } := by
  rw [netifWakeQueue, control_onDevice]
  simp [State.control, State.priv]

@[simp] theorem control_stop : (netifStopQueue dev s).control =
    { s.control with stopped := Function.update s.control.stopped dev true } := by
  rw [netifStopQueue, control_onDevice]
  simp [State.control, State.priv]

@[simp] theorem control_open : (snullOpen dev s).control =
    { s.control with
      up := Function.update s.control.up dev true
      stopped := Function.update s.control.stopped dev false } := by
  rw [snullOpen, control_start, control_onDevice]
  simp [State.control, State.priv]

@[simp] theorem control_close : (snullRelease dev s).control =
    { s.control with
      up := Function.update s.control.up dev false
      stopped := Function.update s.control.stopped dev true } := by
  rw [snullRelease, control_stop, control_onDevice]
  simp [State.control, State.priv]

@[simp] theorem control_changeMtu (mtu : Int) : (snullChangeMtu dev mtu s).2.control = s.control := by
  unfold snullChangeMtu
  split
  · rfl
  · rw [control_onDevice]
    simp [State.control, State.priv]

@[simp] theorem control_setStatus (word : BitVec 32) : (setStatus dev word s).control =
    { s.control with status := Function.update s.control.status dev word } := by
  rw [setStatus, State.onPriv, control_onDevice]
  simp [State.control, State.priv]

@[simp] theorem control_raise (flag : BitVec 32) : (raiseStatus dev flag s).control =
    { s.control with
      status := Function.update s.control.status dev (s.control.status dev ||| flag) } :=
  control_setStatus ..

@[simp] theorem control_rxInts (enable : Bool) : (snullRxInts dev enable s).control =
    { s.control with rxIntEnabled := Function.update s.control.rxIntEnabled dev enable } := by
  rw [snullRxInts, State.onPriv, control_onDevice]
  simp [State.control, State.priv]

@[simp] theorem control_return : (returnBuffer pkt s).control =
    { s.control with links := s.control.links.give pkt } := by
  rw [returnBuffer, State.onPriv, control_onDevice, control_onPacket]
  simp [State.control, State.priv, Links.give]

@[simp] theorem control_enqueue : (snullEnqueueBuf dev pkt s).control =
    { s.control with links := s.control.links.enqueue dev pkt } := by
  rw [snullEnqueueBuf, State.onPriv, control_onDevice, control_onPacket]
  simp [State.control, State.priv, Links.enqueue]

@[simp] theorem control_unlinkPool : (unlinkPool dev pkt s).control =
    { s.control with links := s.control.links.take dev pkt } := by
  rw [unlinkPool, State.onPriv, control_onDevice]
  simp [State.control, State.priv, Links.take]

@[simp] theorem control_unlinkRx : (unlinkRx dev pkt s).control =
    { s.control with links := s.control.links.dequeue dev pkt } := by
  rw [unlinkRx, State.onPriv, control_onDevice]
  simp [State.control, State.priv, Links.dequeue]

@[simp] theorem control_countRx (datalen : Nat) : (countRx dev datalen s).control = s.control := by
  rw [countRx, State.onPriv, control_onDevice]
  simp [State.control, State.priv]

@[simp] theorem control_countRxDropped : (countRxDropped dev s).control = s.control := by
  rw [countRxDropped, State.onPriv, control_onDevice]
  simp [State.control, State.priv]

@[simp] theorem control_countTxError : (countTxError dev s).control = s.control := by
  rw [countTxError, State.onPriv, control_onDevice]
  simp [State.control, State.priv]

@[simp] theorem control_remember (skb : Skb) : (rememberSkb dev skb s).control = s.control := by
  rw [rememberSkb, State.onPriv, control_onDevice]
  simp [State.control, State.priv]

@[simp] theorem control_setTxPacketlen (len : Nat) : (setTxPacketlen dev len s).control = s.control := by
  rw [setTxPacketlen, State.onPriv, control_onDevice]
  simp [State.control, State.priv]

@[simp] theorem control_touching (touches : List (Touch Buffer)) :
    (s.touching touches).control = s.control := rfl

@[simp] theorem control_passUp (frame : List UInt8) : (passUp dev frame s).control = s.control := rfl

@[simp] theorem control_kfreeSkb (skb : Option Skb) : (devKfreeSkb dev skb s).control = s.control := by
  cases skb <;> rfl

@[simp] theorem control_snullRx (memory : Bool) : (snullRx memory dev pkt s).control = s.control := by
  cases memory <;> simp [snullRx]

@[simp] theorem control_transmissionOver : (transmissionOver dev s).control = s.control := by
  rw [transmissionOver, control_kfreeSkb]
  rw [State.onPriv, control_onDevice]
  simp [State.control, State.priv]

@[simp] theorem control_fill (buf : Block Buffer) : (fillPacket pkt buf s).control = s.control := by
  rw [fillPacket, control_touching, control_onPacket]
  simp [State.control, State.priv]

end Operations

/-- Taking a packet stops the queue in the same locked section when it was the last. -/
theorem control_getTxBuffer {s s' : State} {dev : Dev} {pkt : Addr}
    (taken : snullGetTxBuffer dev s = some (pkt, s')) :
    s.control.links.ppool dev = some pkt ∧
      s'.control =
        { s.control with
          links := s.control.links.take dev pkt
          stopped :=
            if s.control.links.next pkt = none then Function.update s.control.stopped dev true
            else s.control.stopped } := by
  unfold snullGetTxBuffer at taken
  split at taken
  · cases taken
  next head =>
    cases taken
    refine ⟨head, ?_⟩
    have next : ((unlinkPool dev pkt s).priv dev).ppool = s.control.links.next pkt := by
      simp [unlinkPool, State.onPriv, State.priv, State.control]
    simp only [next]
    split <;> simp

theorem control_dequeueBuf {s s' : State} {dev : Dev} {pkt : Addr}
    (removed : snullDequeueBuf dev s = (some pkt, s')) :
    s.control.links.rxQueue dev = some pkt ∧
      s'.control = { s.control with links := s.control.links.dequeue dev pkt } := by
  unfold snullDequeueBuf at removed
  split at removed
  · cases removed
  next head =>
    cases removed
    exact ⟨head, control_unlinkRx ..⟩

private theorem control_complete {s : State} {dev : Dev} (finished : Prop) [Decidable finished] :
    (if finished then transmissionOver dev s else s).control = s.control := by
  split <;> simp

def Control.Signalled (c : Control) (cfg : Config) (dev : Dev) : Prop :=
  cfg.useNapi = false ∧ raised (c.status dev) snullRxIntr = true

instance (c : Control) (cfg : Config) (dev : Dev) : Decidable (c.Signalled cfg dev) :=
  inferInstanceAs (Decidable (_ ∧ _))

private theorem receiveOne_control (memory : Bool) (dev : Dev) (s : State) :
    (receiveOne memory dev s).1 = s.control.links.rxQueue dev ∧
      (receiveOne memory dev s).2.control =
        { s.control with
          links := (s.control.links.rxQueue dev).elim s.control.links (s.control.links.dequeue dev) } := by
  have queue : s.control.links.rxQueue dev = (s.priv dev).rxQueue := rfl
  unfold receiveOne
  split
  next empty => simp [queue, empty]
  next pkt head => simp [queue, head]

/-- The locked section of either handler: the status word is read and cleared,
a signalled regular handler unlinks the first waiting packet if there is one,
and a signalled polling handler masks receive interrupts. -/
theorem interruptSection_control (cfg : Config) (memory : Bool) (dev : Dev) (s : State) :
    (interruptSection cfg memory dev s).1 =
        (if s.control.Signalled cfg dev then s.control.links.rxQueue dev else none) ∧
      (interruptSection cfg memory dev s).2.control =
        { s.control with
          links := (interruptSection cfg memory dev s).1.elim s.control.links (s.control.links.dequeue dev)
          status := Function.update s.control.status dev 0#32
          rxIntEnabled :=
            if cfg.useNapi = true ∧ raised (s.control.status dev) snullRxIntr = true then
              Function.update s.control.rxIntEnabled dev false
            else s.control.rxIntEnabled } := by
  have word : (s.priv dev).status = s.control.status dev := rfl
  unfold interruptSection Control.Signalled
  by_cases napi : cfg.useNapi = true
  · by_cases signalled : raised (s.control.status dev) snullRxIntr = true
    · simp [napi, napiSection, control_complete, word, signalled]
    · simp [napi, napiSection, control_complete, word, signalled]
  · have regular : cfg.useNapi = false := by simpa using napi
    simp only [regular, regularSection, word]
    by_cases signalled : raised (s.control.status dev) snullRxIntr = true
    · obtain ⟨taken, after⟩ := receiveOne_control memory dev (setStatus dev 0#32 s)
      simp [signalled, control_complete, after, taken]
    · simp [signalled, control_complete]

theorem interruptSection_some {cfg : Config} {memory : Bool} {dev : Dev} {s s' : State} {pkt : Addr}
    (found : interruptSection cfg memory dev s = (some pkt, s')) :
    s.control.Signalled cfg dev ∧ s.control.links.rxQueue dev = some pkt := by
  obtain ⟨taken, _⟩ := interruptSection_control cfg memory dev s
  rw [found] at taken
  have signalled : s.control.Signalled cfg dev := by
    by_contra silent
    simp [silent] at taken
  exact ⟨signalled, by simpa [signalled] using taken.symm⟩

end DeviceDrivers.Snull
