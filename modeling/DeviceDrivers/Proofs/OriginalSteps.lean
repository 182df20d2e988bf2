import DeviceDrivers.Snull.OriginalCalls
import DeviceDrivers.Proofs.SnullOwnership

/-! What one step of the original driver can do: what the port does there, besides the
scheduling of polls. -/

namespace DeviceDrivers.Snull.Original
open Touches
open Interleavings (System mem_replaced other_mem)

variable {cfg : Config} {memory : Bool} {s s' : State} {m m' : Machine} {c c' : Control} {on on' : Dev → Bool}

def Point.plain : Snull.Point → Bool
  | .interrupt _ _ | .pollDone _ _ _ => false
  | _ => true

/-- One step of a call as far as the control state and the scheduled polls show it. -/
inductive Advance (cfg : Config) (c : Control) (on : Dev → Bool) :
    Point → Interleavings.Progress Point → Control → (Dev → Bool) → Prop where
  | common {point progress c'} (moved : Snull.Advance cfg c point progress c') (plain : Point.plain point = true) :
      Advance cfg c on (.common point) (lift progress) c' on
  | interrupted {dev caller progress c'} (moved : Snull.Advance cfg c (.interrupt dev caller) progress c') :
      Advance cfg c on (.common (.interrupt dev caller)) (lift progress) c'
        (if cfg.useNapi = true ∧ raised (c.status dev) snullRxIntr = true ∧ c.up dev = true then
          Function.update on dev true
        else on)
  | drained {dev npackets quota} (empty : c.links.rxQueue dev = none) :
      Advance cfg c on (.common (.pollDone dev npackets quota)) (.next (.pollComplete dev)) c on
  | left {dev npackets quota} (more : c.links.rxQueue dev ≠ none) :
      Advance cfg c on (.common (.pollDone dev npackets quota)) (.returned 1) c on
  | completed {dev} :
      Advance cfg c on (.pollComplete dev) (.next (.common (.pollEnable dev))) c (Function.update on dev false)

private theorem control_rx (memory : Bool) (dev : Dev) (pkt : Addr) (driver : Snull.State) :
    (snullRx memory dev pkt driver).control = driver.control := by
  cases memory <;> simp [snullRx]

private theorem completed_control {driver other : Snull.State} {dev : Dev} {finished : Bool}
    (same : driver.control = other.control) :
    (if finished = true then transmissionOver dev driver else driver).control =
      (if finished = true then transmissionOver dev other else other).control := by
  cases finished <;> simpa using same

private theorem regularSection_same (memory : Bool) (dev : Dev) (driver : Snull.State) :
    (regularSection memory dev driver).1 = (Snull.regularSection memory dev driver).1 ∧
      (regularSection memory dev driver).2.control = (Snull.regularSection memory dev driver).2.control := by
  have received (driver : Snull.State) : (receiveOne memory dev driver).1 = (Snull.receiveOne memory dev driver).1 ∧
      (receiveOne memory dev driver).2.control = (Snull.receiveOne memory dev driver).2.control := by
    cases head : (driver.priv dev).rxQueue with
    | none => simp [receiveOne, Snull.receiveOne, head]
    | some pkt => simp [receiveOne, Snull.receiveOne, head, control_rx]
  simp only [regularSection, Snull.regularSection]
  split
  · exact ⟨(received _).1, completed_control (received _).2⟩
  · exact ⟨rfl, rfl⟩

theorem napiSection_same (dev : Dev) (s : State) :
    (napiSection dev s).driver = Snull.napiSection dev s.driver ∧
      (napiSection dev s).scheduled =
        if raised (s.driver.control.status dev) snullRxIntr = true ∧ s.driver.control.up dev = true then
          Function.update s.scheduled dev true
        else s.scheduled := by
  have word : (s.driver.priv dev).status = s.driver.control.status dev := rfl
  simp only [napiSection, Snull.napiSection, word]
  have up : ((snullRxInts dev false (setStatus dev 0#32 s.driver)).device dev).up = s.driver.control.up dev := by
    simp [snullRxInts, setStatus, State.onPriv, State.control]
  by_cases received : raised (s.driver.control.status dev) snullRxIntr = true
  · by_cases sent : raised (s.driver.control.status dev) snullTxIntr = true
    · simp [received, sent, netifRxSchedule, onDriver, up]
    · simp [received, sent, netifRxSchedule, onDriver, up]
  · by_cases sent : raised (s.driver.control.status dev) snullTxIntr = true
    · simp [received, sent, onDriver]
    · simp [received, sent, onDriver]

theorem interruptSection_same (cfg : Config) (memory : Bool) (dev : Dev) (s : State) :
    (interruptSection cfg memory dev s).1 = (Snull.interruptSection cfg memory dev s.driver).1 ∧
      (interruptSection cfg memory dev s).2.driver.control = (Snull.interruptSection cfg memory dev s.driver).2.control ∧
      (interruptSection cfg memory dev s).2.scheduled =
        if cfg.useNapi = true ∧ raised (s.driver.control.status dev) snullRxIntr = true ∧ s.driver.control.up dev = true then
          Function.update s.scheduled dev true
        else s.scheduled := by
  unfold interruptSection Snull.interruptSection
  by_cases napi : cfg.useNapi = true
  · obtain ⟨driver, scheduled⟩ := napiSection_same dev s
    simp [napi, driver, scheduled]
  · obtain ⟨taken, control⟩ := regularSection_same memory dev s.driver
    simp [napi, taken, control]

theorem interrupt_step (dev : Dev) (caller : Caller) :
    (Point.common (.interrupt dev caller)).step cfg memory s =
      some (lift (handlerExit caller (interruptSection cfg memory dev s).1), (interruptSection cfg memory dev s).2) := by
  simp only [Point.step]
  split
  next found => rw [found]; rfl
  next found => rw [found]; rfl

theorem Point.step_advance {point : Point} {progress : Interleavings.Progress Point}
    (stepped : point.step cfg memory s = some (progress, s')) :
    Advance cfg s.driver.control s.scheduled point progress s'.driver.control s'.scheduled := by
  cases point with
  | pollComplete dev => cases stepped; exact .completed
  | common point =>
    have shared (plain : plain point = true)
        (same : (Point.common point).step cfg memory s =
          (point.step cfg memory s.driver).map fun taken => (lift taken.1, { s with driver := taken.2 })) :
        Advance cfg s.driver.control s.scheduled (.common point) progress s'.driver.control s'.scheduled := by
      rw [same] at stepped
      obtain ⟨⟨rest, driver⟩, taken, here⟩ := Option.map_eq_some_iff.mp stepped
      cases here
      exact .common (Snull.Point.step_advance taken) plain
    cases point with
    | enterTx dev skb beyond =>
      simp only [step] at stepped
      split at stepped
      · cases stepped
        have moved : Snull.Advance cfg s.driver.control (.enterTx dev skb beyond) (.returned 0) s.driver.control :=
          .tooShort
        simpa [onDriver, lift] using @Advance.common cfg s.driver.control s.scheduled _ _ _ moved rfl
      · cases stepped
        have moved (buf : Block Buffer) : Snull.Advance cfg s.driver.control (.enterTx dev skb beyond)
            (.next (.getBuffer ⟨dev, dev.twin, buf⟩)) s.driver.control := .entered rfl
        simpa [onDriver, lift] using @Advance.common cfg s.driver.control s.scheduled _ _ _ (moved _) rfl
    | interrupt dev caller =>
      obtain ⟨taken, control, scheduled⟩ := interruptSection_same cfg memory dev s
      rw [interrupt_step] at stepped
      cases stepped
      have moved := Snull.Point.step_advance (@Snull.interrupt_step cfg memory s.driver dev caller)
      rw [taken, control, scheduled]
      exact .interrupted moved
    | pollDone dev npackets quota =>
      simp only [step] at stepped
      split at stepped
      next empty => cases stepped; exact .drained empty
      next more => cases stepped; exact .left more
    | _ => exact shared rfl rfl

inductive Stepped (cfg : Config) (m : Machine) : Action → Machine → Prop where
  | opened {dev} : Stepped cfg m (.open dev) { m with shared := onDriver (snullOpen dev) m.shared }
  | closed {dev} : Stepped cfg m (.release dev) { m with shared := onDriver (snullRelease dev) m.shared }
  | mtu {dev mtu} :
      Stepped cfg m (.changeMtu dev mtu)
        { m with shared := onDriver (fun driver => (snullChangeMtu dev mtu driver).2) m.shared }
  | startedTx {dev skb beyond} (idle : ∀ point ∈ m.calls, point.sender ≠ some dev) :
      Stepped cfg m (.startTx dev skb beyond) (m.start (.common (.enterTx dev skb beyond)))
  | startedTimeout {dev} : Stepped cfg m (.startTimeout dev) (m.start (.common (.enterTimeout dev)))
  | startedInterrupt {dev} : Stepped cfg m (.startInterrupt dev) (m.start (.common (.interrupt dev .hardware)))
  | refilled {dev quota} : Stepped cfg m (.refill dev quota)
      { m with shared := { m.shared with quota := Function.update m.shared.quota dev quota } }
  | startedPoll {dev budget} (scheduled : m.shared.scheduled dev = true) (idle : ∀ point ∈ m.calls, point.poller ≠ some dev) :
      Stepped cfg m (.startPoll dev budget)
        { m.start (.common (.pollTest dev 0 (pollLimit m.shared dev budget))) with
          shared := { m.shared with budget := Function.update m.shared.budget dev budget } }
  | ran {index memory before point after progress shared} (found : m.calls[index]? = some point)
      (shape : m.calls = before ++ point :: after) (others : m.calls.eraseIdx index = before ++ after)
      (stepped : point.step cfg memory m.shared = some (progress, shared)) :
      Stepped cfg m (.run index memory) ⟨shared, before ++ progress.calls ++ after⟩

theorem Machine.step_cases {action : Action} (stepped : m.step cfg action = some m') : Stepped cfg m action m' := by
  cases action with
  | «open» dev => cases stepped; exact .opened
  | release dev => cases stepped; exact .closed
  | changeMtu dev mtu => cases stepped; exact .mtu
  | startTx dev skb beyond =>
    simp only [Machine.step] at stepped
    split at stepped
    · cases stepped
    next idle =>
      cases stepped
      exact .startedTx fun point member same => idle ⟨point, member, same⟩
  | startTimeout dev => cases stepped; exact .startedTimeout
  | startInterrupt dev => cases stepped; exact .startedInterrupt
  | refill dev quota => cases stepped; exact .refilled
  | startPoll dev budget =>
    simp only [Machine.step] at stepped
    split at stepped
    · cases stepped
    next free =>
      cases stepped
      rw [not_or] at free
      exact .startedPoll (by simpa using free.1) fun point member same => free.2 ⟨point, member, same⟩
  | run index memory =>
    cases System.run_cases stepped with
    | intro found shape others taken => exact .ran found shape others taken

end DeviceDrivers.Snull.Original
