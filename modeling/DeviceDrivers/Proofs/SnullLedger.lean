import DeviceDrivers.Proofs.SnullControl

/-! The other half of a state: what the devices count and remember, and what
has been handed to the kernel. Pointers, status words and queue flags are left
out, so the operations on those are invisible here. -/

namespace DeviceDrivers.Snull
open Touches

@[ext] structure Account where
  stats : Stats
  txPacketlen : Nat
  skb : Option Skb

def Priv.account (priv : Priv) : Account := ⟨priv.stats, priv.txPacketlen, priv.skb⟩

def Account.countRx (datalen : Nat) (account : Account) : Account :=
  { account with stats :=
    { account.stats with
      rxPackets := account.stats.rxPackets + 1
      rxBytes := account.stats.rxBytes + .ofNat datalen } }

def Account.countTx (account : Account) : Account :=
  { account with stats :=
    { account.stats with
      txPackets := account.stats.txPackets + 1
      txBytes := account.stats.txBytes + .ofNat account.txPacketlen } }

@[ext] structure Ledger where
  account : Dev → Account
  passedUp : List (Dev × List UInt8)
  freed : List (Dev × Skb)

namespace Ledger
variable (dev : Dev) (g : Ledger)

@[simps]
def on (f : Account → Account) : Ledger :=
  { g with account := Function.update g.account dev (f (g.account dev)) }

def remember (skb : Skb) : Ledger := g.on dev fun account => { account with skb := some skb }

def setLen (len : Nat) : Ledger := g.on dev fun account => { account with txPacketlen := len }

def received (datalen : Nat) (frame : List UInt8) : Ledger :=
  { g.on dev (.countRx datalen) with passedUp := g.passedUp ++ [(dev, frame)] }

def dropped : Ledger :=
  g.on dev fun account => { account with stats :=
    { account.stats with rxDropped := account.stats.rxDropped + 1 } }

def completed : Ledger :=
  { g.on dev .countTx with freed := g.freed ++ (g.account dev).skb.toList.map (dev, ·) }

def error : Ledger :=
  g.on dev fun account => { account with stats :=
    { account.stats with txErrors := account.stats.txErrors + 1 } }

def arrive (memory : Bool) (pkt : Payload) : Ledger :=
  if memory then g.received dev pkt.datalen (snullRxFrame pkt).value.bytes else g.dropped dev

def completedIf (finished : Bool) : Ledger := if finished then g.completed dev else g

def locks (cfg : Config) : Bool :=
  cfg.lockup != 0#32 && ((g.account dev).stats.txPackets + 1) % ⟨cfg.lockup.signExtend 64⟩ == 0

end Ledger

def State.ledger (s : State) : Ledger where
  account dev := (s.priv dev).account
  passedUp := s.passedUp
  freed := s.freed

section Operations
variable (s : State) (dev : Dev) (pkt : Addr)

private theorem ledger_onPriv {f : Priv → Priv} {g : Account → Account}
    (agree : (f (s.priv dev)).account = g (s.priv dev).account) :
    (s.onPriv dev f).ledger = s.ledger.on dev g := by
  ext1
  · funext other
    simp only [State.ledger, State.onPriv, State.priv, State.onDevice_device, Ledger.on_account,
      Function.update_apply]
    split
    · exact agree
    · rfl
  · rfl
  · rfl

theorem ledger_onDevice {f : NetDevice → NetDevice}
    (same : (f (s.device dev)).priv.account = (s.priv dev).account) : (s.onDevice dev f).ledger = s.ledger := by
  ext1
  · funext other
    simp only [State.ledger, State.priv, State.onDevice_device, Function.update_apply]
    split
    next found => rw [same, found, State.priv]
    next => rfl
  · rfl
  · rfl

@[simp] theorem ledger_wake : (netifWakeQueue dev s).ledger = s.ledger := ledger_onDevice s dev rfl
@[simp] theorem ledger_stop : (netifStopQueue dev s).ledger = s.ledger := ledger_onDevice s dev rfl

@[simp] theorem ledger_open : (snullOpen dev s).ledger = s.ledger := by
  rw [snullOpen, netifStartQueue, ledger_onDevice, ledger_onDevice]
  · rfl
  · rfl

@[simp] theorem ledger_unlinkPool : (unlinkPool dev pkt s).ledger = s.ledger := by
  rw [unlinkPool, State.onPriv, ledger_onDevice]
  rfl

@[simp] theorem ledger_unlinkRx : (unlinkRx dev pkt s).ledger = s.ledger := by
  rw [unlinkRx, State.onPriv, ledger_onDevice]
  rfl

@[simp] theorem ledger_setStatus (word : BitVec 32) : (setStatus dev word s).ledger = s.ledger := by
  rw [setStatus, State.onPriv, ledger_onDevice]
  rfl

@[simp] theorem ledger_raise (flag : BitVec 32) : (raiseStatus dev flag s).ledger = s.ledger :=
  ledger_setStatus ..

@[simp] theorem ledger_return : (returnBuffer pkt s).ledger = s.ledger := by
  rw [returnBuffer, State.onPriv, ledger_onDevice]
  · rfl
  · rfl

@[simp] theorem ledger_enqueue : (snullEnqueueBuf dev pkt s).ledger = s.ledger := by
  rw [snullEnqueueBuf, State.onPriv, ledger_onDevice]
  · rfl
  · rfl

@[simp] theorem ledger_fill (buf : Block Buffer) : (fillPacket pkt buf s).ledger = s.ledger := rfl

@[simp] theorem ledger_touching (touches : List (Touch Buffer)) : (s.touching touches).ledger = s.ledger := rfl

@[simp] theorem ledger_remember (skb : Skb) : (rememberSkb dev skb s).ledger = s.ledger.remember dev skb := by
  rw [rememberSkb, ledger_onPriv]
  · rfl
  · rfl

@[simp] theorem ledger_setTxPacketlen (len : Nat) : (setTxPacketlen dev len s).ledger = s.ledger.setLen dev len := by
  rw [setTxPacketlen, ledger_onPriv]
  · rfl
  · rfl

@[simp] theorem ledger_countTxError : (countTxError dev s).ledger = s.ledger.error dev := by
  rw [countTxError, ledger_onPriv]
  · rfl
  · rfl

private theorem ledger_kfreeSkb (skb : Option Skb) : (devKfreeSkb dev skb s).ledger =
    { s.ledger with freed := s.ledger.freed ++ skb.toList.map (dev, ·) } := by
  cases skb with
  | none => simp [devKfreeSkb]
  | some skb => rfl

@[simp] theorem ledger_transmissionOver : (transmissionOver dev s).ledger = s.ledger.completed dev := by
  rw [transmissionOver, ledger_kfreeSkb, ledger_onPriv (g := .countTx)]
  · simp [Ledger.completed, State.onPriv, State.priv, State.ledger, Priv.account]
  · rfl

@[simp] theorem ledger_countRx (datalen : Nat) :
    (countRx dev datalen s).ledger = s.ledger.on dev (.countRx datalen) := by
  rw [countRx, ledger_onPriv]
  rfl

@[simp] theorem ledger_countRxDropped : (countRxDropped dev s).ledger = s.ledger.dropped dev := by
  rw [countRxDropped, ledger_onPriv]
  · rfl
  · rfl

@[simp] theorem ledger_snullRx (memory : Bool) :
    (snullRx memory dev pkt s).ledger = s.ledger.arrive dev memory (s.heap pkt).payload := by
  cases memory with
  | false => exact ledger_countRxDropped s dev
  | true =>
    simp only [snullRx, Ledger.arrive, Ledger.received, if_true]
    rw [← ledger_touching s (snullRxFrame (s.heap pkt).payload).touches, ← ledger_countRx]
    rfl

@[simp] theorem ledger_release : (snullReleaseBuffer pkt s).ledger = s.ledger := by
  unfold snullReleaseBuffer
  simp only
  split <;> simp

theorem simulatesLockup_ledger (cfg : Config) : simulatesLockup cfg dev s = s.ledger.locks dev cfg := rfl

end Operations

end DeviceDrivers.Snull
