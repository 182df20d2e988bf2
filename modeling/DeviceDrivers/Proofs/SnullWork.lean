import DeviceDrivers.Proofs.SnullOwnership

/-! How long the calls take. However they are interleaved, each has so many steps to make
and no more. A round of a poll is paid for by the packet that it takes off the queue, so
neither budgets nor failing allocations count. -/

namespace DeviceDrivers.Snull
open Runs
open Interleavings (mem_replaced other_mem all_started all_replaced)

def Caller.rank : Caller → Nat
  | .rxInterrupt _ => 7
  | .txInterrupt _ | .hardware => 0
  | .timeout _ => 2
  | .poll _ _ _ => 3

/-- The steps that a call still has to make, at most, and until its packet is queued the
six of a poll's round. Between the dequeueing and the next test these are the poll's. -/
def Point.rank : Point → Nat
  | .enterTx _ _ _ => 23
  | .getBuffer _ => 22
  | .fill _ _ => 21
  | .enqueue _ _ => 20
  | .testRxInts _ => 13
  | .raiseRx _ => 12
  | .recordLen _ => 7
  | .raiseTx _ => 6
  | .testLockup _ => 5
  | .interrupt _ caller => caller.rank + 4
  | .release _ caller => caller.rank + 3
  | .testWake _ caller => caller.rank + 2
  | .wake _ caller => caller.rank + 1
  | .enterTimeout _ => 7
  | .countError _ => 2
  | .wakeTimeout _ => 1
  | .pollTest _ _ _ => 3
  | .pollDequeue _ _ _ => 2
  | .pollReceive _ _ _ _ => 7
  | .pollDone _ _ _ => 2
  | .pollEnable _ => 1

namespace Lists
variable {l : Lists} {dev : Dev} {pkt : Addr} {rest : List Addr}

def queued (l : Lists) : Nat := (l.rx .sn0).length + (l.rx .sn1).length

theorem queued_enqueue : (l.enqueue dev pkt).queued = l.queued + 1 := by
  cases dev <;> simp [queued, enqueue] <;> omega

theorem queued_dequeue (front : l.rx dev = pkt :: rest) : (l.dequeue dev).queued + 1 = l.queued := by
  cases dev <;> simp [queued, dequeue, front] <;> omega

theorem queued_dequeue_le : (l.dequeue dev).queued ≤ l.queued := by
  cases dev <;> simp [queued, dequeue]

end Lists

variable {cfg : Config} {memory : Bool} {s s' : State} {c c' : Control} {l : Lists} {bufs : List Addr} {point : Point}
  {progress : Progress} {dev : Dev}

@[simp] theorem resume_rank (caller : Caller) : load Point.rank caller.resume.points = caller.rank := by
  cases caller <;> rfl

/-- A packet in a queue is worth a round. -/
private theorem Advance.rank (advance : Advance cfg c point progress c') (holds : Represents c.links l) :
    load Point.rank progress.points + 6 * (point.effect cfg c l).queued < point.rank + 6 * l.queued := by
  cases advance with
  | gotBuffer => simp [Point.rank, Lists.queued, Lists.take]
  | enqueued =>
    simp only [Progress.points_next, load_cons, load_nil, Point.rank, Point.effect, Lists.queued_enqueue]
    omega
  | @received dev caller pkt signalled =>
    have fewer := @Lists.queued_dequeue_le l dev
    simp only [Progress.points_next, load_cons, load_nil, Point.rank, Point.effect, if_pos signalled]
    omega
  | @handled dev caller nothing =>
    have unchanged : (if c.Signalled cfg dev then l.dequeue dev else l).queued ≤ l.queued := by
      split
      next => exact Lists.queued_dequeue_le
      next => exact Nat.le_refl _
    simp only [resume_rank, Point.rank, Point.effect]
    omega
  | released => simp [Point.rank, Lists.queued, Lists.give]
  | dequeued head =>
    obtain ⟨_, front, _⟩ := holds.rx_front head
    have fewer := Lists.queued_dequeue front
    simp only [Progress.points_next, load_cons, load_nil, Point.rank, Point.effect]
    omega
  | wakeUnwanted | woken => simp [Point.rank]
  | _ => simp [Point.rank, Caller.rank]

def Action.cost : Action → Nat
  | .startTx _ _ _ => 23
  | .startTimeout _ => 7
  | .startInterrupt _ => 4
  | .startPoll _ _ => 3
  | _ => 0

def Action.steps : Action → Nat
  | .run _ _ => 1
  | _ => 0

private theorem Conserved.budget {m m' : Machine} {action : Action} (kept : Conserved bufs m l)
    (stepped : m.step cfg action = some m') :
    action.steps + (load Point.rank m'.calls + 6 * (action.effect cfg m l).queued) ≤
      load Point.rank m.calls + 6 * l.queued + action.cost := by
  cases Machine.step_cases stepped with
  | opened | closed | mtu => simp [Action.steps, Action.cost, Action.effect]
  | startedTx | startedTimeout | startedInterrupt | startedPoll =>
    simp only [Machine.start, Action.steps, Action.cost, Action.effect, load_append, load_cons, load_nil, Point.rank,
      Caller.rank]
    omega
  | ran found shape taken =>
    have nearer := (Point.step_advance taken).rank kept.represents
    simp only [Action.effect, found]
    simp only [shape, load_append, load_cons, Action.steps, Action.cost]
    omega

/-- The poll has worked its queue off, and waits in `napi_disable` for itself. -/
def Point.Disables (cfg : Config) (s : State) (point : Point) : Prop :=
  ∃ dev npackets quota, point = .pollDone dev npackets quota ∧ (s.priv dev).rxQueue = none ∧ cfg.napiReturns = false

/-- A call can fail to go on in three places. In two of them it would follow a NULL pointer. -/
private theorem Point.step_none (stuck : point.step cfg memory s = none) :
    (∃ tx, point = .getBuffer tx ∧ s.control.links.ppool tx.dev = none) ∨
      (∃ dev npackets quota, point = .pollDequeue dev npackets quota ∧ s.control.links.rxQueue dev = none) ∨
      point.Disables cfg s := by
  cases point with
  | getBuffer tx =>
    refine .inl ⟨tx, rfl, ?_⟩
    have none_taken := Option.map_eq_none_iff.mp stuck
    unfold snullGetTxBuffer at none_taken
    split at none_taken
    next empty => exact empty
    next => cases none_taken
  | pollDequeue dev npackets quota =>
    refine .inr (.inl ⟨dev, npackets, quota, rfl, ?_⟩)
    simp only [Point.step, snullDequeueBuf] at stuck
    split at stuck
    next removed =>
      split at removed
      next empty => exact empty
      next => cases removed
    next => cases stuck
  | pollDone dev npackets quota =>
    simp only [Point.step] at stuck
    split at stuck
    next empty =>
      have waits := Option.map_eq_none_iff.mp stuck
      refine .inr (.inr ⟨dev, npackets, quota, rfl, empty, ?_⟩)
      simpa [Config.napiDisable] using waits
    next => cases stuck
  | interrupt dev caller =>
    rw [interrupt_step] at stuck
    cases stuck
  | enterTx | testLockup | pollTest | pollReceive =>
    simp only [Point.step] at stuck
    split at stuck <;> cases stuck
  | _ => cases stuck

/-- Only polls take frames in polling mode, one at a time for each device, and each that is
going to take one has seen that it is there. -/
structure Fed (cfg : Config) (m : Machine) : Prop where
  polls : ∀ point ∈ m.calls, point.poller ≠ none → cfg.useNapi = true
  alone : ∀ dev, m.calls.countP (fun point => point.poller = some dev) ≤ 1
  fed : ∀ dev npackets quota, .pollDequeue dev npackets quota ∈ m.calls → m.state.control.links.rxQueue dev ≠ none

private theorem Advance.feeds (advance : Advance cfg c point progress c') (napi : cfg.useNapi = true)
    (apart : point.poller ≠ some dev) (queued : c.links.rxQueue dev ≠ none) : c'.links.rxQueue dev ≠ none := by
  cases advance with
  | @enqueued tx pkt =>
    by_cases same : dev = tx.dest
    · simp [Links.enqueue, same]
    · simpa [Links.enqueue, same] using queued
  | received signalled =>
    have regular := signalled.1
    rw [napi] at regular
    cases regular
  | @dequeued other =>
    have different : dev ≠ other := by
      rintro rfl
      exact apart rfl
    simpa [Links.dequeue, different] using queued
  | _ => exact queued

private theorem resume_tests (caller : Caller) {npackets quota : Nat} :
    .pollDequeue dev npackets quota ∉ caller.resume.points := by
  cases caller <;> simp [Caller.resume]

theorem Advance.tested (advance : Advance cfg c point progress c') {npackets quota : Nat}
    (next : .pollDequeue dev npackets quota ∈ progress.points) : c'.links.rxQueue dev ≠ none := by
  cases advance with
  | pollContinues within waiting =>
    cases List.mem_singleton.mp next
    exact waiting
  | handled | wakeUnwanted | woken => exact absurd next (resume_tests _)
  | _ => simp at next

private theorem Fed.start {m : Machine} {entry : Point} (kept : Fed cfg m)
    (polls : entry.poller ≠ none → cfg.useNapi = true)
    (alone : ∀ dev, entry.poller = some dev → ∀ point ∈ m.calls, point.poller ≠ some dev)
    (untested : ∀ dev npackets quota, entry ≠ .pollDequeue dev npackets quota) : Fed cfg (m.start entry) := by
  refine ⟨all_started kept.polls polls, fun dev => ?_, fun dev npackets quota member => ?_⟩
  · have before := kept.alone dev
    by_cases poller : entry.poller = some dev
    · have none : m.calls.countP (fun point => point.poller = some dev) = 0 := by
        simpa [List.countP_eq_zero] using alone dev poller
      simp [Machine.start, none, poller]
    · simpa [Machine.start, poller] using before
  · rcases List.mem_append.mp member with member | member
    · exact kept.fed dev npackets quota member
    · exact absurd (List.mem_singleton.mp member).symm (untested dev npackets quota)

theorem Fed.step {m m' : Machine} {action : Action} (kept : Fed cfg m) (stepped : m.step cfg action = some m') :
    Fed cfg m' := by
  cases Machine.step_cases stepped with
  | opened | closed | mtu => exact ⟨kept.polls, kept.alone, by simpa using kept.fed⟩
  | startedTx | startedTimeout | startedInterrupt =>
    exact kept.start (by simp [Point.poller, Caller.poller]) (by simp [Point.poller, Caller.poller]) (by simp)
  | startedPoll napi idle =>
    refine kept.start (fun _ => napi) ?_ (by simp)
    intro other same
    cases same
    exact idle
  | @ran index memory before point after progress state found shape taken =>
    have advance := Point.step_advance taken
    refine ⟨?_, fun dev => ?_, fun dev npackets quota member => ?_⟩
    · apply all_replaced kept.polls shape
      intro own other rest
      rw [advance.poller other rest]
      exact own
    · have whole := kept.alone dev
      have here : progress.points.countP (fun point => point.poller = some dev) ≤
          [point].countP (fun point => point.poller = some dev) := by
        cases progress with
        | returned value => simp
        | next next => simp [advance.poller next (by simp)]
      simp only [shape, List.countP_append, List.countP_cons, List.countP_nil] at whole here ⊢
      omega
    · rcases mem_replaced.mp member with rest | elsewhere
      · exact advance.tested rest
      · have there := other_mem shape elsewhere
        have napi := kept.polls _ there (by simp [Point.poller])
        refine advance.feeds napi ?_ (kept.fed dev npackets quota there)
        intro same
        have other : 0 < (before ++ after).countP (fun point => point.poller = some dev) :=
          List.countP_pos_iff.mpr ⟨_, elsewhere, by simp [Point.poller]⟩
        have whole := kept.alone dev
        simp only [shape, List.countP_append, List.countP_cons, same, decide_true, if_true] at whole other
        omega

/-- Over any interleaving of any calls, from any state reached: the calls in progress and those
started have so many steps to make and no more, with six for each packet that waits in a
queue. Where no call can go on, all have returned, but for those that want a packet from an
empty pool and those that wait in `napi_disable` for themselves. -/
theorem calls_end (cfg : Config) (kmalloc : Dev → Nat → Bool) (contents : Addr → Packet) (earlier actions : List Action)
    (m m' : Machine) (reached : Run (Machine.step cfg) (fun _ _ => True) ⟨setUp cfg kmalloc contents, []⟩ earlier m)
    (run : Run (Machine.step cfg) (fun _ _ => True) m actions m') :
    (∃ l l', Represents m.state.control.links l ∧ Represents m'.state.control.links l' ∧
      load Action.steps actions + (load Point.rank m'.calls + 6 * l'.queued) ≤
        load Point.rank m.calls + 6 * l.queued + load Action.cost actions) ∧
      ((∀ index memory, m'.step cfg (.run index memory) = none) →
        ∀ point ∈ m'.calls, (∃ tx, point = .getBuffer tx ∧ (m'.state.priv tx.dev).ppool = none) ∨
          point.Disables cfg m'.state) := by
  constructor
  · have distinct := List.nodup_range (n := (setUp cfg kmalloc contents).fresh)
    obtain ⟨l, before⟩ := Conserved.run distinct Conserved.initial reached
    obtain ⟨l', after, bound⟩ := run.budgeted_along (Conserved (List.range (setUp cfg kmalloc contents).fresh))
      (fun m l => load Point.rank m.calls + 6 * l.queued) Action.steps Action.cost l before
      fun _ _ _ _ kept _ stepped => ⟨_, kept.step distinct stepped, kept.budget stepped⟩
    exact ⟨l, l', before.represents, after.represents, bound⟩
  · have fed : Fed cfg m' := by
      apply (reached.append run).invariant (Fed cfg)
      · exact ⟨by simp, by simp, by simp⟩
      · exact fun _ _ _ kept _ stepped => kept.step stepped
    intro stopped point member
    obtain ⟨index, found⟩ := List.mem_iff_getElem?.mp member
    have stuck : point.step cfg true m'.state = none := by
      have here := stopped index true
      simpa [Machine.step, found] using here
    rcases Point.step_none stuck with wanting | ⟨dev, npackets, quota, rfl, empty⟩ | disables
    · exact .inl wanting
    · exact absurd empty (fed.fed dev npackets quota member)
    · exact .inr disables

/-- A ping takes thirteen of its steps, and leaves none. -/
theorem calls_end_ping : ∃ m : Machine, m.calls = [] ∧ ∃ l l', Represents
      (setUp (sample 2 0) (fun _ _ => true) sampleMemory).control.links l ∧ Represents m.state.control.links l' ∧
    load Action.steps (.open .sn0 :: .startTx .sn0 ⟨0, samplePing⟩ [] :: List.replicate 13 (.run 0 true)) +
        (load Point.rank m.calls + 6 * l'.queued) ≤
      0 + 6 * l.queued +
        load Action.cost (.open .sn0 :: .startTx .sn0 ⟨0, samplePing⟩ [] :: List.replicate 13 (.run 0 true)) := by
  have reached : ∃ m : Machine, Run (Machine.step (sample 2 0)) (fun _ _ => True)
      ⟨setUp (sample 2 0) (fun _ _ => true) sampleMemory, []⟩
      (.open .sn0 :: .startTx .sn0 ⟨0, samplePing⟩ [] :: List.replicate 13 (.run 0 true)) m ∧ m.calls.length = 0 :=
    reaches_of_execute (by decide +kernel)
  obtain ⟨m, run, idle⟩ := reached
  exact ⟨m, List.length_eq_zero_iff.mp idle, (calls_end _ _ _ [] _ _ m .nil run).1⟩

end DeviceDrivers.Snull
