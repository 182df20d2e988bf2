import DeviceDrivers.Proofs.SnullDelivery

/-! Exactly once, for the port: what each of its steps does to packets and receipts. The
statements that it shares with the original driver are treated for both. -/

namespace DeviceDrivers.Snull
open Runs Touches

def Stats.arrivals (stats : Stats) : UInt64 × UInt64 × UInt64 := (stats.rxPackets, stats.rxBytes, stats.rxDropped)

section Operations
variable (s : State) (dev : Dev) (pkt : Addr)

theorem receipts_onDevice {f : NetDevice → NetDevice}
    (same : (f (s.device dev)).priv.stats.arrivals = (s.priv dev).stats.arrivals) :
    (s.onDevice dev f).receipts = s.receipts := by
  simp only [Stats.arrivals, Prod.mk.injEq] at same
  obtain ⟨packets, bytes, dropped⟩ := same
  ext1
  · rfl
  all_goals
    funext other
    simp only [State.receipts, State.priv, State.onDevice_device, Function.update_apply]
    split
    next found => simp [*, State.priv]
    next => rfl

@[simp] theorem receipts_passUp (frame : List UInt8) :
    (passUp dev frame s).receipts = { s.receipts with passedUp := s.receipts.passedUp ++ [(dev, frame)] } := rfl

@[simp] theorem receipts_touching (touches : List (Touch Buffer)) : (s.touching touches).receipts = s.receipts := rfl

@[simp] theorem receipts_kfreeSkb (skb : Option Skb) : (devKfreeSkb dev skb s).receipts = s.receipts := by
  cases skb <;> rfl

@[simp] theorem receipts_countRx (datalen : Nat) : (countRx dev datalen s).receipts =
    { s.receipts with
      packets := Function.update s.receipts.packets dev (s.receipts.packets dev + 1)
      bytes := Function.update s.receipts.bytes dev (s.receipts.bytes dev + .ofNat datalen) } := by
  ext1
  · rfl
  all_goals
    funext other
    by_cases same : other = dev
    · subst same
      simp [State.receipts, countRx, State.onPriv, State.priv]
    · simp [State.receipts, countRx, State.onPriv, State.priv, same]

@[simp] theorem receipts_countRxDropped : (countRxDropped dev s).receipts = s.receipts.lose dev := by
  ext1
  · rfl
  all_goals
    funext other
    by_cases same : other = dev
    · subst same
      simp [State.receipts, Receipts.lose, countRxDropped, State.onPriv, State.priv]
    · simp [State.receipts, Receipts.lose, countRxDropped, State.onPriv, State.priv, same]

@[simp] theorem receipts_transmissionOver : (transmissionOver dev s).receipts = s.receipts := by
  rw [transmissionOver, receipts_kfreeSkb]
  exact receipts_onDevice s dev rfl

@[simp] theorem receipts_changeMtu (mtu : Int) : (snullChangeMtu dev mtu s).2.receipts = s.receipts := by
  unfold snullChangeMtu
  split
  · rfl
  · exact receipts_onDevice s dev rfl

@[simp] theorem receipts_open : (snullOpen dev s).receipts = s.receipts := by
  rw [snullOpen, netifStartQueue, receipts_onDevice]
  · exact receipts_onDevice s dev rfl
  · rfl

@[simp] theorem receipts_close : (snullRelease dev s).receipts = s.receipts := by
  rw [snullRelease, netifStopQueue, receipts_onDevice]
  · exact receipts_onDevice s dev rfl
  · rfl

@[simp] theorem receipts_return : (returnBuffer pkt s).receipts = s.receipts := by
  rw [returnBuffer, State.onPriv, receipts_onDevice]
  · rfl
  · rfl

@[simp] theorem receipts_enqueue : (snullEnqueueBuf dev pkt s).receipts = s.receipts := by
  rw [snullEnqueueBuf, State.onPriv, receipts_onDevice]
  · rfl
  · rfl

end Operations

def Receipts.arrive (convert : List UInt8 → List UInt8) (memory : Bool) (dev : Dev) (pkt : Payload) (r : Receipts) :
    Receipts :=
  if memory then r.take dev pkt.datalen (convert (contents pkt)) else r.lose dev

/-- The locked section of a regular handler with any way of receiving a packet. -/
def sectionWith (rx : Addr → State → State) (dev : Dev) (s : State) : Option Addr × State :=
  let statusword := (s.priv dev).status
  let s := setStatus dev 0#32 s
  let (pkt, s) :=
    if raised statusword snullRxIntr then
      match (s.priv dev).rxQueue with
      | none => (none, s)
      | some pkt => (some pkt, rx pkt (unlinkRx dev pkt s))
    else (none, s)
  (pkt, if raised statusword snullTxIntr then transmissionOver dev s else s)

variable {cfg : Config} {convert : List UInt8 → List UInt8} {launch : Dev → Skb → List UInt8 → Transmit}
  {memory : Bool} {s s' : State} {point : Point} {progress : Progress} {dev : Dev} {pkt : Addr} {caller : Caller}

private theorem completed_goods (finished : Bool) :
    (if finished = true then transmissionOver dev s else s).payloads = s.payloads ∧
      (if finished = true then transmissionOver dev s else s).receipts = s.receipts := by
  cases finished with
  | false => exact ⟨rfl, rfl⟩
  | true => exact ⟨congrArg Cargo.payload (cargo_transmissionOver s dev), receipts_transmissionOver s dev⟩

theorem sectionWith_goods {rx : Addr → State → State}
    (receives : ∀ pkt s, (rx pkt s).payloads = s.payloads ∧
      (rx pkt s).receipts = s.receipts.arrive convert memory dev (s.payloads pkt)) :
    (sectionWith rx dev s).2.payloads = s.payloads ∧
      (sectionWith rx dev s).2.receipts =
        (sectionWith rx dev s).1.elim s.receipts fun pkt => s.receipts.arrive convert memory dev (s.payloads pkt) := by
  have calm : (setStatus dev 0#32 s).receipts = s.receipts := receipts_onDevice s dev rfl
  simp only [sectionWith, completed_goods]
  split
  · split
    · exact ⟨rfl, calm⟩
    next pkt _ =>
      obtain ⟨payloads, receipts⟩ := receives pkt (unlinkRx dev pkt (setStatus dev 0#32 s))
      have unlinked : (unlinkRx dev pkt (setStatus dev 0#32 s)).receipts = s.receipts :=
        (receipts_onDevice _ dev rfl).trans calm
      refine ⟨payloads, ?_⟩
      rw [receipts, unlinked]
      rfl
  · exact ⟨rfl, calm⟩

theorem napiSection_goods : (napiSection dev s).payloads = s.payloads ∧ (napiSection dev s).receipts = s.receipts := by
  have calm : (setStatus dev 0#32 s).receipts = s.receipts := receipts_onDevice s dev rfl
  simp only [napiSection, completed_goods]
  split
  · exact ⟨rfl, (receipts_onDevice _ dev rfl).trans calm⟩
  · exact ⟨rfl, calm⟩

private theorem getTxBuffer_goods (taken : snullGetTxBuffer dev s = some (pkt, s')) :
    s'.payloads = s.payloads ∧ s'.receipts = s.receipts := by
  have unlinked (pkt : Addr) : (unlinkPool dev pkt s).receipts = s.receipts := receipts_onDevice s dev rfl
  unfold snullGetTxBuffer at taken
  split at taken
  · cases taken
  · simp only [Option.some.injEq, Prod.mk.injEq] at taken
    obtain ⟨-, rfl⟩ := taken
    split
    · exact ⟨rfl, (receipts_onDevice _ dev rfl).trans (unlinked _)⟩
    · exact ⟨rfl, unlinked _⟩

theorem Handed.section {taken : Option Addr}
    (found : taken = if s.control.Signalled cfg dev then s.control.links.rxQueue dev else none)
    (payloads : s'.payloads = s.payloads)
    (receipts : s'.receipts =
      taken.elim s.receipts fun pkt => s.receipts.arrive convert memory dev (s.payloads pkt)) :
    Handed cfg convert launch s.control s.payloads s.receipts (.interrupt dev caller) (handlerExit caller taken)
      s'.payloads s'.receipts := by
  rw [payloads, receipts]
  cases taken with
  | none => exact .handled fun signalled => by simpa [signalled] using found.symm
  | some pkt =>
    have signalled : s.control.Signalled cfg dev := by
      by_contra silent
      simp [silent] at found
    have head : s.control.links.rxQueue dev = some pkt := by simpa [signalled] using found.symm
    cases memory with
    | true => exact .received signalled head
    | false => exact .lost signalled head

def Point.common : Point → Bool
  | .enterTx _ _ _ | .interrupt _ _ => false
  | _ => true

theorem Point.step_common (stepped : point.step cfg memory s = some (progress, s')) (common : point.common = true)
    (raw : point.poller ≠ none → ∀ bytes, convert bytes = bytes) :
    Handed cfg convert launch s.control s.payloads s.receipts point progress s'.payloads s'.receipts := by
  have kept (payloads : s'.payloads = s.payloads) (receipts : s'.receipts = s.receipts) (calm : point.calm = true) :
      Handed cfg convert launch s.control s.payloads s.receipts point progress s'.payloads s'.receipts := by
    rw [payloads, receipts]
    exact .rested calm
  cases point with
  | enterTx | interrupt => cases common
  | getBuffer tx =>
    obtain ⟨⟨pkt, after⟩, taken, same⟩ := Option.map_eq_some_iff.mp stepped
    cases same
    obtain ⟨payloads, receipts⟩ := getTxBuffer_goods taken
    exact kept payloads receipts rfl
  | fill tx pkt =>
    cases stepped
    have filled : (fillPacket pkt tx.buf s).payloads =
        Function.update s.payloads pkt (fillPayload (s.payloads pkt) tx.buf).value :=
      congrArg Cargo.payload (cargo_fill s pkt tx.buf)
    rw [filled]
    exact .filled
  | enqueue tx pkt => cases stepped; exact kept (congrArg Cargo.payload (cargo_enqueue s tx.dest pkt)) (by simp) rfl
  | release pkt caller => cases stepped; exact kept (congrArg Cargo.payload (cargo_return s pkt)) (by simp) rfl
  | testLockup tx =>
    simp only [Point.step] at stepped
    split at stepped
    · cases stepped
      exact kept rfl (receipts_onDevice s tx.dev rfl) rfl
    · cases stepped
      exact kept rfl rfl rfl
  | pollTest =>
    simp only [Point.step] at stepped
    split at stepped <;>
      · cases stepped
        exact kept rfl rfl rfl
  | pollDone dev npackets quota =>
    obtain ⟨rfl, ⟨_, rfl⟩ | ⟨_, rfl⟩⟩ := Point.pollDone_cases stepped
    · exact kept rfl rfl rfl
    · exact kept rfl rfl rfl
  | pollDequeue dev npackets quota =>
    simp only [Point.step, snullDequeueBuf] at stepped
    split at stepped
    · cases stepped
    next removed =>
      cases stepped
      split at removed
      · cases removed
      · cases removed
        exact kept rfl (receipts_onDevice s dev rfl) rfl
  | pollReceive dev pkt npackets quota =>
    simp only [Point.step] at stepped
    split at stepped
    · cases stepped
      have receipts : (countRx dev (s.heap pkt).payload.datalen (passUp dev (copyOut (s.heap pkt).payload).value.bytes
            (s.touching (copyOut (s.heap pkt).payload).touches))).receipts =
          s.receipts.take dev (s.payloads pkt).datalen (convert (contents (s.payloads pkt))) := by
        rw [receipts_countRx, receipts_passUp, raw (by simp [Point.poller])]
        rfl
      rw [receipts]
      exact .polled
    · cases stepped
      rw [receipts_countRxDropped]
      exact .pollLost
  | testRxInts | testWake => cases stepped; exact kept rfl rfl rfl
  | raiseRx | recordLen | raiseTx | wake | enterTimeout | countError | wakeTimeout | pollEnable =>
    cases stepped
    exact kept rfl (receipts_onDevice s _ rfl) rfl

def convertFrame (cfg : Config) (bytes : List UInt8) : List UInt8 := if cfg.useNapi then bytes else delivered bytes

def launchFrame (cfg : Config) (dev : Dev) (skb : Skb) (beyond : List UInt8) : Transmit := transmit cfg beyond skb dev

theorem snullRx_goods : (snullRx memory dev pkt s).payloads = s.payloads ∧
    (snullRx memory dev pkt s).receipts = s.receipts.arrive delivered memory dev (s.payloads pkt) := by
  cases memory with
  | false => exact ⟨rfl, receipts_countRxDropped s dev⟩
  | true =>
    refine ⟨rfl, ?_⟩
    have frame : (snullRxFrame (s.payloads pkt)).value.bytes = delivered (contents (s.payloads pkt)) :=
      convertEcho_value _
    simp only [Receipts.arrive, Receipts.take, if_true, ← frame, snullRx, receipts_passUp, receipts_countRx, receipts_touching]
    rfl

theorem Point.step_handed (stepped : point.step cfg memory s = some (progress, s'))
    (polls : point.poller ≠ none → cfg.useNapi = true) :
    Handed cfg (convertFrame cfg) (launchFrame cfg) s.control s.payloads s.receipts point progress s'.payloads s'.receipts := by
  cases point with
  | enterTx dev skb beyond =>
    have hauled := Point.step_hauled stepped
    have remembered : (rememberSkb dev skb (s.touching (snullTxData skb.data).touches)).receipts = s.receipts :=
      receipts_onDevice _ dev rfl
    have receipts : s'.receipts = s.receipts := by
      simp only [Point.step] at stepped
      split at stepped
      · cases stepped
        exact remembered
      · cases stepped
        exact remembered
    rw [receipts]
    generalize same : s'.cargo = cargo at hauled
    cases hauled with
    | entered =>
      have payloads : s'.payloads = s.payloads := congrArg Cargo.payload same
      rw [payloads]
      exact .entered
    | rested still => cases still
  | interrupt dev caller =>
    rw [interrupt_step] at stepped
    cases stepped
    have found := (interruptSection_control cfg memory dev s).1
    by_cases napi : cfg.useNapi = true
    · obtain ⟨payloads, receipts⟩ := @napiSection_goods s dev
      have polling : interruptSection cfg memory dev s = (none, napiSection dev s) := by rw [interruptSection, if_pos napi]
      rw [polling] at found ⊢
      exact @Handed.section _ _ _ memory _ _ _ _ _ found payloads receipts
    · obtain ⟨payloads, receipts⟩ :=
        @sectionWith_goods delivered memory s dev (snullRx memory dev) fun _ _ => snullRx_goods
      have regular : interruptSection cfg memory dev s = sectionWith (snullRx memory dev) dev s := by
        rw [interruptSection, if_neg napi]
        rfl
      have converts : convertFrame cfg = delivered := by
        funext bytes
        rw [convertFrame, if_neg napi]
      rw [regular] at found ⊢
      rw [converts]
      exact .section found payloads receipts
  | _ =>
    apply Point.step_common stepped rfl
    intro polled bytes
    rw [convertFrame, if_pos (polls polled)]

/-- The frame that an action hands to the driver, as it is rewritten, and the device it is for. -/
def Action.hands (launch : Dev → Skb → List UInt8 → Transmit) : Action → List Item
  | .startTx dev skb beyond => [((launch dev skb beyond).dest, (launch dev skb beyond).buf.bytes)]
  | _ => []

theorem Accounted.initial {kmalloc : Dev → Nat → Bool} {memory : Addr → Packet} :
    ∃ l, Accounted convert launch (List.range (setUp cfg kmalloc memory).fresh) [] ⟨setUp cfg kmalloc memory, []⟩ l [] [] := by
  obtain ⟨l, stocked⟩ := @setUp_stocked cfg kmalloc memory
  have empty (dev : Dev) : l.rx dev = [] := stocked.quiet dev
  have blank (dev : Dev) : ((setUp cfg kmalloc memory).priv dev).stats = {} := by
    obtain ⟨head, device⟩ := @setUp_device cfg kmalloc memory dev
    rw [State.priv, device]
  refine ⟨l, ⟨stocked.represents, by simpa using stocked.complete⟩, by simp, by simp [empty], ?_, by simp [waiting, empty]⟩
  ext1
  · exact setUp_logs.2.2.2
  all_goals
    funext dev
    simp [State.receipts, blank, Receipts.noted]

theorem Accounted.step {bufs : List Addr} {handed passed dropped : List Item} {m m' : Machine} {l : Lists}
    {action : Action} (distinct : bufs.Nodup)
    (kept : Accounted (convertFrame cfg) (launchFrame cfg) bufs handed m l passed dropped)
    (polls : ∀ point ∈ m.calls, point.poller ≠ none → cfg.useNapi = true) (stepped : m.step cfg action = some m') :
    ∃ l passed dropped, Accounted (convertFrame cfg) (launchFrame cfg) bufs (handed ++ action.hands (launchFrame cfg)) m' l
      passed dropped := by
  cases Machine.step_cases stepped with
  | opened | closed =>
    simp only [Action.hands, List.append_nil]
    exact ⟨l, passed, dropped, kept.same (by simp) rfl (by simp)⟩
  | @mtu dev mtu =>
    simp only [Action.hands, List.append_nil]
    have payloads := congrArg Cargo.payload (cargo_changeMtu m.state dev mtu)
    exact ⟨l, passed, dropped, kept.same (by simp) payloads (by simp)⟩
  | @startedTx dev skb beyond => exact ⟨l, passed, dropped, kept.start (.enterTx dev skb beyond) rfl trivial⟩
  | @startedTimeout dev => exact ⟨l, passed, dropped, kept.start (.enterTimeout dev) rfl trivial⟩
  | @startedInterrupt dev => exact ⟨l, passed, dropped, kept.start (.interrupt dev .hardware) rfl trivial⟩
  | @startedPoll dev budget => exact ⟨l, passed, dropped, kept.start (.pollTest dev 0 budget) rfl trivial⟩
  | @ran index memory before point after progress state found shape taken =>
    have running : point ∈ m.calls := by simp [shape]
    simp only [Action.hands, List.append_nil]
    exact kept.advanced distinct (fun dev skb beyond => transmit_full beyond skb dev) shape (Point.step_advance taken)
      (Point.step_handed taken (polls point running))

private theorem Machine.step_polls {m m' : Machine} {action : Action}
    (polls : ∀ point ∈ m.calls, point.poller ≠ none → cfg.useNapi = true) (stepped : m.step cfg action = some m') :
    ∀ point ∈ m'.calls, point.poller ≠ none → cfg.useNapi = true := by
  cases Machine.step_cases stepped with
  | opened | closed | mtu => exact polls
  | startedTx | startedTimeout | startedInterrupt =>
    exact Interleavings.all_started polls (by simp [Point.poller, Caller.poller])
  | startedPoll napi => exact Interleavings.all_started polls fun _ => napi
  | ran found shape taken =>
    apply Interleavings.all_replaced polls shape
    intro own other rest
    rw [(Point.step_advance taken).poller other rest]
    exact own

/-- In either mode and over any interleaving of any calls, every frame that the kernel has
handed over is in just one place: with the call that transmits it, in a receive queue or
with the poll that took it out, passed up, or dropped. What is passed up is what these
frames become, and the receive counters count them. -/
theorem delivered_once (cfg : Config) (kmalloc : Dev → Nat → Bool) (memory : Addr → Packet) (actions : List Action)
    (m : Machine) (run : Run (Machine.step cfg) (fun _ _ => True) ⟨setUp cfg kmalloc memory, []⟩ actions m) :
    ∃ l passed dropped, Represents m.state.control.links l ∧
      (actions.flatMap (Action.hands (launchFrame cfg))).Perm
        (m.calls.flatMap (Point.carrying (launchFrame cfg) m.state.payloads) ++ waiting m.state.payloads l ++
          (passed ++ dropped)) ∧
      m.state.receipts = .noted (convertFrame cfg) passed dropped := by
  have distinct := List.nodup_range (n := (setUp cfg kmalloc memory).fresh)
  have kept : (∃ l passed dropped, Accounted (convertFrame cfg) (launchFrame cfg) (List.range (setUp cfg kmalloc memory).fresh)
        (actions.flatMap (Action.hands (launchFrame cfg))) m l passed dropped) ∧
      ∀ point ∈ m.calls, point.poller ≠ none → cfg.useNapi = true := by
    induction run with
    | nil =>
      obtain ⟨l, initial⟩ := @Accounted.initial cfg (convertFrame cfg) (launchFrame cfg) kmalloc memory
      exact ⟨⟨l, [], [], initial⟩, by simp⟩
    | snoc _ _ stepped ih =>
      obtain ⟨⟨l, passed, dropped, kept⟩, polls⟩ := ih
      refine ⟨?_, Machine.step_polls polls stepped⟩
      rw [List.flatMap_append, List.flatMap_singleton]
      exact kept.step distinct polls stepped
  obtain ⟨⟨l, passed, dropped, kept⟩, -⟩ := kept
  exact ⟨l, passed, dropped, kept.represents, kept.shared, kept.noted⟩

/-- One frame is received, a second is in the queue of the other device. -/
theorem delivered_once_pair :
    ∃ (actions : List Action) (m : Machine), m.state.passedUp.length = 1 ∧ (m.state.priv .sn1).rxQueue ≠ none ∧
    ∃ l passed dropped, Represents m.state.control.links l ∧
      (actions.flatMap (Action.hands (launchFrame (sample 2 0)))).Perm
        (m.calls.flatMap (Point.carrying (launchFrame (sample 2 0)) m.state.payloads) ++ waiting m.state.payloads l ++
          (passed ++ dropped)) ∧
      m.state.receipts = .noted (convertFrame (sample 2 0)) passed dropped := by
  have reached : ∃ m : Machine, Run (Machine.step (sample 2 0)) (fun _ _ => True)
      ⟨setUp (sample 2 0) (fun _ _ => true) sampleMemory, []⟩
      (.open .sn0 :: .startTx .sn0 ⟨0, samplePing⟩ [] :: List.replicate 13 (.run 0 true) ++
        .startTx .sn0 ⟨1, samplePlain⟩ [] :: List.replicate 4 (.run 0 true)) m ∧
      m.state.passedUp.length = 1 ∧ (m.state.priv .sn1).rxQueue ≠ none := reaches_of_execute (by decide +kernel)
  obtain ⟨m, run, passed, queued⟩ := reached
  exact ⟨_, m, passed, queued, delivered_once _ _ _ _ m run⟩

end DeviceDrivers.Snull
