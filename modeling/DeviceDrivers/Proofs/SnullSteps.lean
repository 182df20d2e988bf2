import DeviceDrivers.Library.Interleavings
import DeviceDrivers.Proofs.SnullControl

/-! What one step of a call, and one action of the system, can do. Every
invariant is proved from these inversions; none unfolds the step function again. -/

namespace DeviceDrivers.Snull

/-- One step of a call as far as the control state shows it. -/
inductive Advance (cfg : Config) (c : Control) : Point → Progress → Control → Prop where
  | tooShort {dev skb beyond} : Advance cfg c (.enterTx dev skb beyond) (.returned 0) c
  | entered {dev skb beyond tx} (sender : tx.dev = dev) :
      Advance cfg c (.enterTx dev skb beyond) (.next (.getBuffer tx)) c
  | gotBuffer {tx pkt} (head : c.links.ppool tx.dev = some pkt) :
      Advance cfg c (.getBuffer tx) (.next (.fill tx pkt))
        { c with
          links := c.links.take tx.dev pkt
          stopped := if c.links.next pkt = none then Function.update c.stopped tx.dev true else c.stopped }
  | filled {tx pkt} : Advance cfg c (.fill tx pkt) (.next (.enqueue tx pkt)) c
  | enqueued {tx pkt} : Advance cfg c (.enqueue tx pkt) (.next (.testRxInts tx))
      { c with links := c.links.enqueue tx.dest pkt }
  | unmasked {tx} (enabled : c.rxIntEnabled tx.dest = true) :
      Advance cfg c (.testRxInts tx) (.next (.raiseRx tx)) c
  | masked {tx} (disabled : c.rxIntEnabled tx.dest = false) :
      Advance cfg c (.testRxInts tx) (.next (.recordLen tx)) c
  | raisedRx {tx} : Advance cfg c (.raiseRx tx) (.next (.interrupt tx.dest (.rxInterrupt tx)))
      { c with status := Function.update c.status tx.dest (c.status tx.dest ||| snullRxIntr) }
  | recorded {tx} : Advance cfg c (.recordLen tx) (.next (.raiseTx tx)) c
  | raisedTx {tx} : Advance cfg c (.raiseTx tx) (.next (.testLockup tx))
      { c with status := Function.update c.status tx.dev (c.status tx.dev ||| snullTxIntr) }
  | lockedUp {tx} : Advance cfg c (.testLockup tx) (.returned 0)
      { c with stopped := Function.update c.stopped tx.dev true }
  | notLockedUp {tx} :
      Advance cfg c (.testLockup tx) (.next (.interrupt tx.dev (.txInterrupt tx))) c
  | received {dev caller pkt} (signalled : c.Signalled cfg dev) (head : c.links.rxQueue dev = some pkt) :
      Advance cfg c (.interrupt dev caller) (.next (.release pkt caller))
        { c with
          links := c.links.dequeue dev pkt
          status := Function.update c.status dev 0#32 }
  | handled {dev caller} (nothing : c.Signalled cfg dev → c.links.rxQueue dev = none) :
      Advance cfg c (.interrupt dev caller) caller.resume
        { c with
          status := Function.update c.status dev 0#32
          rxIntEnabled :=
            if cfg.useNapi = true ∧ raised (c.status dev) snullRxIntr = true then
              Function.update c.rxIntEnabled dev false
            else c.rxIntEnabled }
  | released {pkt caller} : Advance cfg c (.release pkt caller) (.next (.testWake pkt caller))
      { c with links := c.links.give pkt }
  | wakeWanted {pkt caller} (stopped : c.stopped (c.links.dev pkt) = true)
      (only : c.links.next pkt = none) :
      Advance cfg c (.testWake pkt caller) (.next (.wake (c.links.dev pkt) caller)) c
  | wakeUnwanted {pkt caller} : Advance cfg c (.testWake pkt caller) caller.resume c
  | woken {dev caller} : Advance cfg c (.wake dev caller) caller.resume
      { c with stopped := Function.update c.stopped dev false }
  | timedOut {dev} : Advance cfg c (.enterTimeout dev) (.next (.interrupt dev (.timeout dev)))
      { c with status := Function.update c.status dev snullTxIntr }
  | counted {dev} : Advance cfg c (.countError dev) (.next (.wakeTimeout dev)) c
  | timeoutWoken {dev} : Advance cfg c (.wakeTimeout dev) (.returned 0)
      { c with stopped := Function.update c.stopped dev false }
  | pollContinues {dev npackets quota} (within : npackets < quota) (waiting : c.links.rxQueue dev ≠ none) :
      Advance cfg c (.pollTest dev npackets quota) (.next (.pollDequeue dev npackets quota)) c
  | pollStops {dev npackets quota} (enough : ¬ (npackets < quota ∧ c.links.rxQueue dev ≠ none)) :
      Advance cfg c (.pollTest dev npackets quota) (.next (.pollDone dev npackets quota)) c
  | dequeued {dev npackets quota pkt} (head : c.links.rxQueue dev = some pkt) :
      Advance cfg c (.pollDequeue dev npackets quota) (.next (.pollReceive dev pkt npackets quota))
        { c with links := c.links.dequeue dev pkt }
  | polled {dev npackets quota pkt count} :
      Advance cfg c (.pollReceive dev pkt npackets quota) (.next (.release pkt (.poll dev count quota))) c
  | pollEmpty {dev npackets quota} (empty : c.links.rxQueue dev = none) :
      Advance cfg c (.pollDone dev npackets quota) (.next (.pollEnable dev)) c
  | pollMore {dev npackets quota} (more : c.links.rxQueue dev ≠ none) :
      Advance cfg c (.pollDone dev npackets quota) (.returned 1) c
  | pollEnabled {dev} : Advance cfg c (.pollEnable dev) (.returned 0)
      { c with rxIntEnabled := Function.update c.rxIntEnabled dev true }

def handlerExit (caller : Caller) (taken : Option Addr) : Progress :=
  taken.elim caller.resume fun pkt => .next (.release pkt caller)

/-- The end of a poll, if it gets past `napi_disable`. -/
theorem Point.pollDone_cases {cfg : Config} {memory : Bool} {s s' : State} {dev : Dev} {npackets quota : Nat}
    {progress : Progress} (stepped : (Point.pollDone dev npackets quota).step cfg memory s = some (progress, s')) :
    s' = s ∧ ((s.priv dev).rxQueue = none ∧ progress = .next (.pollEnable dev) ∨
      (s.priv dev).rxQueue ≠ none ∧ progress = .returned 1) := by
  simp only [Point.step] at stepped
  split at stepped
  next empty =>
    obtain ⟨driver, waited, same⟩ := Option.map_eq_some_iff.mp stepped
    cases same
    exact ⟨(Option.some.inj (Option.ite_none_left_eq_some.mp waited).2).symm, .inl ⟨empty, rfl⟩⟩
  next more =>
    cases stepped
    exact ⟨rfl, .inr ⟨more, rfl⟩⟩

theorem interrupt_step {cfg : Config} {memory : Bool} {s : State} (dev : Dev) (caller : Caller) :
    (Point.interrupt dev caller).step cfg memory s =
      some (handlerExit caller (interruptSection cfg memory dev s).1, (interruptSection cfg memory dev s).2) := by
  simp only [Point.step]
  split
  next found => rw [found]; rfl
  next found => rw [found]; rfl

theorem Point.step_advance {cfg : Config} {memory : Bool} {s s' : State} {point : Point}
    {progress : Progress} (stepped : point.step cfg memory s = some (progress, s')) :
    Advance cfg s.control point progress s'.control := by
  cases point with
  | enterTx dev skb beyond =>
    simp only [Point.step] at stepped
    split at stepped
    · cases stepped
      simpa using Advance.tooShort
    · cases stepped
      simp only [control_touching, control_remember]
      exact .entered rfl
  | getBuffer tx =>
    obtain ⟨⟨pkt, after⟩, taken, same⟩ := Option.map_eq_some_iff.mp stepped
    cases same
    obtain ⟨head, control⟩ := control_getTxBuffer taken
    exact control ▸ .gotBuffer head
  | fill tx pkt => cases stepped; simpa using Advance.filled
  | enqueue tx pkt => cases stepped; simpa using Advance.enqueued
  | testRxInts tx =>
    cases stepped
    split
    next enabled => exact .unmasked enabled
    next disabled => exact .masked (Bool.eq_false_iff.mpr disabled)
  | raiseRx tx => cases stepped; simpa using Advance.raisedRx
  | recordLen tx => cases stepped; simpa using Advance.recorded
  | raiseTx tx => cases stepped; simpa using Advance.raisedTx
  | testLockup tx =>
    simp only [Point.step] at stepped
    split at stepped
    · cases stepped
      simpa using Advance.lockedUp
    · cases stepped
      exact .notLockedUp
  | interrupt dev caller =>
    obtain ⟨taken, control⟩ := interruptSection_control cfg memory dev s
    simp only [Point.step] at stepped
    split at stepped
    next pkt after found =>
      cases stepped
      obtain ⟨signalled, head⟩ := interruptSection_some found
      have regular : ¬ (cfg.useNapi = true ∧ raised (s.control.status dev) snullRxIntr = true) := by
        simp [signalled.1]
      simp only [found, Option.elim_some] at control
      rw [control, if_neg regular]
      exact .received signalled head
    next after found =>
      cases stepped
      simp only [found, Option.elim_none] at taken control
      rw [control]
      exact .handled fun signalled => by simpa [signalled] using taken.symm
  | release pkt caller => cases stepped; simpa using Advance.released
  | testWake pkt caller =>
    cases stepped
    split
    next wanted =>
      simp only [Snull.wakeWanted, Bool.and_eq_true, Option.isNone_iff_eq_none] at wanted
      exact .wakeWanted wanted.1 wanted.2
    next => exact .wakeUnwanted
  | wake dev caller => cases stepped; simpa using Advance.woken
  | enterTimeout dev => cases stepped; simpa using Advance.timedOut
  | countError dev => cases stepped; simpa using Advance.counted
  | wakeTimeout dev => cases stepped; simpa using Advance.timeoutWoken
  | pollTest dev npackets quota =>
    simp only [Point.step] at stepped
    split at stepped
    next more => cases stepped; exact .pollContinues more.1 more.2
    next enough => cases stepped; exact .pollStops enough
  | pollDequeue dev npackets quota =>
    simp only [Point.step] at stepped
    split at stepped
    · cases stepped
    next pkt after removed =>
      cases stepped
      obtain ⟨head, control⟩ := control_dequeueBuf removed
      exact control ▸ .dequeued head
  | pollReceive dev pkt npackets quota =>
    simp only [Point.step] at stepped
    split at stepped <;>
      · cases stepped
        simpa using Advance.polled
  | pollDone dev npackets quota =>
    obtain ⟨rfl, ⟨empty, rfl⟩ | ⟨more, rfl⟩⟩ := Point.pollDone_cases stepped
    · exact .pollEmpty empty
    · exact .pollMore more
  | pollEnable dev => cases stepped; simpa using Advance.pollEnabled

section Identity
variable {cfg : Config} {c c' : Control} {point : Point} {progress : Progress}

private theorem resume_poller (caller : Caller) : ∀ next ∈ caller.resume.points, next.poller = caller.poller := by
  cases caller <;> simp [Caller.resume, Point.poller, Caller.poller]

private theorem resume_sender (caller : Caller) : ∀ next ∈ caller.resume.points, next.sender = caller.sender := by
  cases caller <;> simp [Caller.resume, Point.sender, Caller.sender]

theorem Advance.poller (advance : Advance cfg c point progress c') :
    ∀ next ∈ progress.points, next.poller = point.poller := by
  cases advance with
  | tooShort | lockedUp | timeoutWoken | pollMore | pollEnabled => simp
  | handled | wakeUnwanted | woken => exact resume_poller _
  | _ =>
    intro next member
    rw [List.mem_singleton.mp member]
    rfl

theorem Advance.sender (advance : Advance cfg c point progress c') :
    ∀ next ∈ progress.points, next.sender = point.sender := by
  cases advance with
  | tooShort | lockedUp | timeoutWoken | pollMore | pollEnabled => simp
  | handled | wakeUnwanted | woken => exact resume_sender _
  | entered sender =>
    intro next member
    rw [List.mem_singleton.mp member, ← sender]
    rfl
  | _ =>
    intro next member
    rw [List.mem_singleton.mp member]
    rfl

end Identity

inductive Stepped (cfg : Config) (m : Machine) : Action → Machine → Prop where
  | opened {dev} : Stepped cfg m (.open dev) { m with state := snullOpen dev m.state }
  | closed {dev} : Stepped cfg m (.release dev) { m with state := snullRelease dev m.state }
  | mtu {dev mtu} : Stepped cfg m (.changeMtu dev mtu) { m with state := (snullChangeMtu dev mtu m.state).2 }
  | startedTx {dev skb beyond} (idle : ∀ point ∈ m.calls, point.sender ≠ some dev) :
      Stepped cfg m (.startTx dev skb beyond) (m.start (.enterTx dev skb beyond))
  | startedTimeout {dev} : Stepped cfg m (.startTimeout dev) (m.start (.enterTimeout dev))
  | startedInterrupt {dev} : Stepped cfg m (.startInterrupt dev) (m.start (.interrupt dev .hardware))
  | startedPoll {dev budget} (napi : cfg.useNapi = true) (idle : ∀ point ∈ m.calls, point.poller ≠ some dev) :
      Stepped cfg m (.startPoll dev budget) (m.start (.pollTest dev 0 budget))
  | ran {index memory before point after progress state} (found : m.calls[index]? = some point)
      (shape : m.calls = before ++ point :: after)
      (stepped : point.step cfg memory m.state = some (progress, state)) :
      Stepped cfg m (.run index memory) ⟨state, before ++ progress.points ++ after⟩

theorem Machine.step_cases {cfg : Config} {m m' : Machine} {action : Action} (stepped : m.step cfg action = some m') :
    Stepped cfg m action m' := by
  cases action with
  | «open» dev => cases stepped; exact .opened
  | release dev => cases stepped; exact .closed
  | changeMtu dev mtu => cases stepped; exact .mtu
  | startTx dev skb beyond =>
    simp only [Machine.step] at stepped
    split at stepped
    · cases stepped
    next idle =>
      cases stepped
      exact .startedTx fun point member same => idle ⟨point, member, same⟩
  | startTimeout dev => cases stepped; exact .startedTimeout
  | startInterrupt dev => cases stepped; exact .startedInterrupt
  | startPoll dev budget =>
    simp only [Machine.step] at stepped
    split at stepped
    · cases stepped
    next free =>
      cases stepped
      rw [not_or] at free
      exact .startedPoll (by simpa using free.1) fun point member same => free.2 ⟨point, member, same⟩
  | run index memory =>
    simp only [Machine.step] at stepped
    split at stepped
    · cases stepped
    next point found =>
      obtain ⟨⟨progress, state⟩, taken, same⟩ := Option.map_eq_some_iff.mp stepped
      cases same
      obtain ⟨inside, here⟩ := List.getElem?_eq_some_iff.mp found
      exact .ran found (by rw [← here, List.getElem_cons_drop, List.take_append_drop]) taken

end DeviceDrivers.Snull
