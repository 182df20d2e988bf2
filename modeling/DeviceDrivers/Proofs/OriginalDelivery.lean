import DeviceDrivers.Proofs.OriginalFrames
import DeviceDrivers.Proofs.OriginalSteps
import DeviceDrivers.Proofs.SnullReceipts

/-! Exactly once, for the original driver. To frames and packets it does what the port
does, step by step, with another rewriting and no conversion; `netif_rx_complete` is a
step that the port does not have. -/

namespace DeviceDrivers.Snull.Original
open Runs Touches
open Interleavings (System)

def Point.port : Point → Snull.Point
  | .common point => point
  | .pollComplete dev => .pollEnable dev

def toPort : Interleavings.Progress Point → Progress
  | .next point => .next point.port
  | .returned value => .returned value

@[simp] theorem toPort_lift (progress : Progress) : toPort (lift progress) = progress := by cases progress <;> rfl

@[simp] theorem toPort_points (progress : Interleavings.Progress Point) :
    (toPort progress).points = progress.calls.map Point.port := by
  cases progress <;> rfl

def Machine.port (m : Machine) : Snull.Machine := ⟨m.shared.driver, m.calls.map Point.port⟩

section Ported
variable {m : Machine} {state : State} {before after : List Point} {point : Point} {progress : Interleavings.Progress Point}

theorem port_started (entry : Snull.Point) :
    Machine.port ⟨state, m.calls ++ [.common entry]⟩ = ⟨state.driver, m.port.calls ++ [entry]⟩ := by
  simp [Machine.port, Point.port]

theorem port_shape (shape : m.calls = before ++ point :: after) :
    m.port.calls = before.map Point.port ++ point.port :: after.map Point.port := by
  simp [Machine.port, shape]

theorem port_replaced : Machine.port ⟨state, before ++ progress.calls ++ after⟩ =
    ⟨state.driver, before.map Point.port ++ (toPort progress).points ++ after.map Point.port⟩ := by
  simp [Machine.port]

/-- The port does not see that a poll tells the kernel it is done. -/
theorem port_completed {cfg : Config} {memory : Bool} {dev : Dev}
    (shape : m.calls = before ++ .pollComplete dev :: after)
    (stepped : (Point.pollComplete dev).step cfg memory m.shared = some (progress, state)) :
    Machine.port ⟨state, before ++ progress.calls ++ after⟩ = m.port := by
  cases stepped
  simp [Machine.port, shape, Point.port, netifRxComplete]

end Ported

def launchFrame (cfg : Config) (dev : Dev) (skb : Skb) (beyond : List UInt8) : Transmit :=
  ⟨dev, dev.twin, { padded skb.data with bytes := translated cfg.ipFastCsum beyond (zeroPadded skb.data) }⟩

variable {cfg : Config} {memory : Bool} {s s' : State} {c c' : Control} {on on' : Dev → Bool}

theorem launch_full (dev : Dev) (skb : Skb) (beyond : List UInt8) : (launchFrame cfg dev skb beyond).buf.Full := by
  have length : (translated cfg.ipFastCsum beyond (zeroPadded skb.data)).length = (zeroPadded skb.data).length :=
    translated_length (enough skb.data)
  rw [← padded_zeroPadded] at length
  rw [Block.Full, launchFrame, ← padded_zeroPadded]
  exact length.trans (padded_full skb.data)

theorem Advance.port {point : Point} {progress : Interleavings.Progress Point}
    (advance : Advance cfg c on point progress c' on')
    (own : ∀ dev, point ≠ .pollComplete dev) : Snull.Advance cfg c point.port (toPort progress) c' := by
  cases advance with
  | common moved | interrupted moved => simpa [Point.port] using moved
  | drained empty => exact .pollEmpty empty
  | left more => exact .pollMore more
  | @completed dev => exact absurd rfl (own dev)

theorem snullRx_goods {dev : Dev} {pkt : Addr} {driver : Snull.State} :
    (snullRx memory dev pkt driver).payloads = driver.payloads ∧
      (snullRx memory dev pkt driver).receipts = driver.receipts.arrive id memory dev (driver.payloads pkt) := by
  cases memory with
  | false => exact ⟨rfl, receipts_countRxDropped driver dev⟩
  | true =>
    refine ⟨rfl, ?_⟩
    simp only [Receipts.arrive, Receipts.take, if_true, snullRx, receipts_passUp, receipts_countRx, receipts_touching]
    rfl

theorem enterTx_driver {dev : Dev} {skb : Skb} {beyond : List UInt8} {progress : Interleavings.Progress Point}
    (stepped : (Point.common (.enterTx dev skb beyond)).step cfg memory s = some (progress, s')) :
    progress = .next (.common (.getBuffer (launchFrame cfg dev skb beyond))) ∧ s'.driver.payloads = s.driver.payloads ∧
      s'.driver.receipts = s.driver.receipts := by
  have value : (snullHwTxFrame cfg.ipFastCsum beyond (padded skb.data)).value = _ :=
    hwTxFrame_value (padded_enough_bytes skb.data)
  have long : ¬ (snullTxData skb.data).value.size < headerLen := padded_long skb.data
  have remembered : (rememberSkb dev skb (s.driver.touching (snullTxData skb.data).touches)).receipts = s.driver.receipts :=
    receipts_onDevice _ dev rfl
  simp only [Point.step, if_neg long, Option.some.injEq, Prod.mk.injEq] at stepped
  obtain ⟨rfl, rfl⟩ := stepped
  refine ⟨?_, rfl, remembered⟩
  rw [launchFrame, ← padded_zeroPadded, ← value]
  rfl

theorem Point.step_handed {point : Point} {progress : Interleavings.Progress Point}
    (stepped : point.step cfg memory s = some (progress, s')) (own : ∀ dev, point ≠ .pollComplete dev) :
    Handed cfg id (launchFrame cfg) s.driver.control s.driver.payloads s.driver.receipts point.port (toPort progress)
      s'.driver.payloads s'.driver.receipts := by
  cases point with
  | pollComplete dev => exact absurd rfl (own dev)
  | common point =>
    have shared (common : point.common = true)
        (same : (Point.common point).step cfg memory s =
          (point.step cfg memory s.driver).map fun taken => (lift taken.1, { s with driver := taken.2 })) :
        Handed cfg id (launchFrame cfg) s.driver.control s.driver.payloads s.driver.receipts point (toPort progress)
          s'.driver.payloads s'.driver.receipts := by
      rw [same] at stepped
      obtain ⟨⟨rest, driver⟩, taken, here⟩ := Option.map_eq_some_iff.mp stepped
      cases here
      rw [toPort_lift]
      exact Snull.Point.step_common taken common fun _ _ => rfl
    cases point with
    | enterTx dev skb beyond =>
      obtain ⟨rfl, payloads, receipts⟩ := enterTx_driver stepped
      rw [payloads, receipts]
      exact .entered
    | interrupt dev caller =>
      have found := (interruptSection_same cfg memory dev s).1
      rw [(interruptSection_control cfg memory dev s.driver).1] at found
      rw [interrupt_step] at stepped
      cases stepped
      rw [toPort_lift]
      by_cases napi : cfg.useNapi = true
      · have polling : interruptSection cfg memory dev s = (none, napiSection dev s) := by rw [interruptSection, if_pos napi]
        rw [polling] at found ⊢
        simp only [(napiSection_same dev s).1]
        exact @Handed.section _ _ _ memory _ _ _ _ _ found napiSection_goods.1 napiSection_goods.2
      · have regular : (interruptSection cfg memory dev s).1 = (sectionWith (snullRx memory dev) dev s.driver).1 ∧
            (interruptSection cfg memory dev s).2.driver = (sectionWith (snullRx memory dev) dev s.driver).2 := by
          rw [interruptSection, if_neg napi]
          exact ⟨rfl, rfl⟩
        obtain ⟨payloads, receipts⟩ :=
          @sectionWith_goods id memory s.driver dev (snullRx memory dev) fun _ _ => snullRx_goods
        rw [regular.1] at found ⊢
        rw [regular.2]
        exact .section found payloads receipts
    | pollDone dev npackets quota =>
      simp only [step] at stepped
      split at stepped <;>
        · cases stepped
          exact .rested rfl
    | _ => exact shared rfl rfl

def Action.hands (cfg : Config) : Action → List Item
  | .startTx dev skb beyond => [((launchFrame cfg dev skb beyond).dest, (launchFrame cfg dev skb beyond).buf.bytes)]
  | _ => []

abbrev Books (cfg : Config) (bufs : List Addr) (handed : List Item) (m : Machine) (l : Lists)
    (passed dropped : List Item) : Prop :=
  Accounted id (launchFrame cfg) bufs handed m.port l passed dropped

theorem Books.step {bufs : List Addr} {handed passed dropped : List Item} {m m' : Machine} {l : Lists} {action : Action}
    (distinct : bufs.Nodup) (kept : Books cfg bufs handed m l passed dropped) (stepped : m.step cfg action = some m') :
    ∃ l passed dropped, Books cfg bufs (handed ++ action.hands cfg) m' l passed dropped := by
  have started (point : Snull.Point) (free : point.held = []) (whole : point.Whole m.shared.driver.payloads) {state : State}
      (same : state.driver = m.shared.driver) :
      Books cfg bufs (handed ++ point.carrying (launchFrame cfg) m.shared.driver.payloads)
        ⟨state, m.calls ++ [.common point]⟩ l passed dropped := by
    have grown := kept.start point free whole
    rw [Books, port_started, same]
    exact grown
  cases Machine.step_cases stepped with
  | opened | closed =>
    simp only [Action.hands, List.append_nil]
    exact ⟨l, passed, dropped, kept.same (by simp [onDriver, Machine.port]) rfl (by simp [onDriver, Machine.port])⟩
  | @mtu dev mtu =>
    simp only [Action.hands, List.append_nil]
    have payloads := congrArg Cargo.payload (cargo_changeMtu m.shared.driver dev mtu)
    exact ⟨l, passed, dropped, kept.same (by simp [onDriver, Machine.port]) payloads (by simp [onDriver, Machine.port])⟩
  | @startedTx dev skb beyond => exact ⟨l, passed, dropped, started (.enterTx dev skb beyond) rfl trivial rfl⟩
  | @startedTimeout dev => exact ⟨l, passed, dropped, started (.enterTimeout dev) rfl trivial rfl⟩
  | @startedInterrupt dev => exact ⟨l, passed, dropped, started (.interrupt dev .hardware) rfl trivial rfl⟩
  | @startedPoll dev budget => exact ⟨l, passed, dropped, started (.pollTest dev 0 _) rfl trivial rfl⟩
  | refilled =>
    simp only [Action.hands, List.append_nil]
    exact ⟨l, passed, dropped, kept⟩
  | @ran index memory before point after progress shared found shape others taken =>
    simp only [Action.hands, List.append_nil]
    cases point with
    | pollComplete dev =>
      refine ⟨l, passed, dropped, ?_⟩
      rw [Books, port_completed shape taken]
      exact kept
    | common point =>
      have apart (dev : Dev) : Point.common point ≠ .pollComplete dev := by simp
      simp only [Books, port_replaced]
      exact kept.advanced distinct launch_full (port_shape shape) ((Point.step_advance taken).port apart)
        (Point.step_handed taken apart)

/-- In either mode and over any interleaving of any calls, no packet of the original driver is
lost or held twice, and every frame handed over is in just one place, addressed to the other
device: with a call, in a queue, passed up unchanged since it was rewritten, or dropped. The
receive counters count the latter two. -/
theorem arrives_once (cfg : Config) (kmalloc : Dev → Nat → Bool) (memory : Addr → Packet) (actions : List Action)
    (m : Machine) (run : Run (Machine.step cfg) (fun _ _ => True) ⟨loaded cfg kmalloc memory, []⟩ actions m) :
    ∃ l passed dropped, Represents m.shared.driver.control.links l ∧
      (l.all ++ m.port.calls.flatMap Snull.Point.held).Perm (List.range (loaded cfg kmalloc memory).driver.fresh) ∧
      (actions.flatMap (Action.hands cfg)).Perm
        (m.port.calls.flatMap (Point.carrying (launchFrame cfg) m.shared.driver.payloads) ++
          waiting m.shared.driver.payloads l ++ (passed ++ dropped)) ∧
      m.shared.driver.receipts = .noted id passed dropped := by
  have distinct := List.nodup_range (n := (loaded cfg kmalloc memory).driver.fresh)
  have kept : ∃ l passed dropped, Books cfg (List.range (loaded cfg kmalloc memory).driver.fresh)
      (actions.flatMap (Action.hands cfg)) m l passed dropped := by
    induction run with
    | nil =>
      obtain ⟨l, initial⟩ := @Accounted.initial cfg id (launchFrame cfg) kmalloc memory
      exact ⟨l, [], [], initial⟩
    | snoc _ _ stepped ih =>
      obtain ⟨l, passed, dropped, kept⟩ := ih
      rw [List.flatMap_append, List.flatMap_singleton]
      exact kept.step distinct stepped
  obtain ⟨l, passed, dropped, kept⟩ := kept
  exact ⟨l, passed, dropped, kept.represents, kept.partition, kept.shared, kept.noted⟩

def polling : Config := { sample 2 0 with useNapi := true }

/-- A frame is announced to sn1, polled and passed up; the poll is done. -/
theorem arrives_once_polled : ∃ (actions : List Action) (m : Machine), m.shared.driver.passedUp.length = 1 ∧
    m.shared.scheduled .sn1 = false ∧ ∃ l passed dropped, Represents m.shared.driver.control.links l ∧
      (l.all ++ m.port.calls.flatMap Snull.Point.held).Perm
        (List.range (loaded polling (fun _ _ => true) sampleMemory).driver.fresh) ∧
      (actions.flatMap (Action.hands polling)).Perm
        (m.port.calls.flatMap (Point.carrying (launchFrame polling) m.shared.driver.payloads) ++
          waiting m.shared.driver.payloads l ++ (passed ++ dropped)) ∧
      m.shared.driver.receipts = .noted id passed dropped := by
  have reached : ∃ m : Machine, Run (Machine.step polling) (fun _ _ => True)
      ⟨loaded polling (fun _ _ => true) sampleMemory, []⟩
      (.open .sn0 :: .open .sn1 :: .startTx .sn0 ⟨0, samplePlain⟩ [] :: List.replicate 11 (.run 0 true) ++
        .refill .sn1 64 :: .startPoll .sn1 64 :: List.replicate 9 (.run 0 true)) m ∧
      m.calls.length = 0 ∧ m.shared.driver.passedUp.length = 1 ∧ m.shared.scheduled .sn1 = false :=
    reaches_of_execute (by decide +kernel)
  obtain ⟨m, run, _, passed, finished⟩ := reached
  exact ⟨_, m, passed, finished, arrives_once _ _ _ _ m run⟩

end DeviceDrivers.Snull.Original
