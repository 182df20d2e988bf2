import DeviceDrivers.Proofs.SnullOwnership

/-! One status bit announces any number of waiting frames, and the regular
handler takes one frame for it. A bit that is set again or overwritten before
the handler has seen it leaves a frame behind for good. -/

namespace DeviceDrivers.Snull
open Runs
open Interleavings (all_started all_replaced)

@[simp] def Point.announcing (dev : Dev) : Point → Bool
  | .testRxInts tx | .raiseRx tx => tx.dest = dev
  | _ => false

def announcements (dev : Dev) (calls : List Point) : Nat := calls.countP (Point.announcing dev)

/-- The announcement the handler has not yet seen, if there is one. -/
def signal (word : BitVec 32) : Nat := (raised word snullRxIntr).toNat

/-- The announcements for `dev` a step of a call wipes out. -/
@[simp] def Point.lost (c : Control) (dev : Dev) : Point → Nat
  | .raiseRx tx => if tx.dest = dev then signal (c.status dev) else 0
  | .enterTimeout other => if other = dev then signal (c.status dev) else 0
  | _ => 0

@[simp] theorem announcements_nil (dev : Dev) : announcements dev [] = 0 := rfl

@[simp] theorem announcements_append (dev : Dev) (first last : List Point) :
    announcements dev (first ++ last) = announcements dev first + announcements dev last :=
  List.countP_append

@[simp] theorem announcements_cons (dev : Dev) (point : Point) (calls : List Point) :
    announcements dev (point :: calls) = (point.announcing dev).toNat + announcements dev calls := by
  rw [announcements, List.countP_cons, Nat.add_comm]
  cases point.announcing dev <;> rfl

@[simp] theorem announcements_resume (dev : Dev) (caller : Caller) :
    announcements dev caller.resume.points = 0 := by
  cases caller <;> rfl

@[simp] theorem signal_zero : signal 0#32 = 0 := by simp [signal]
@[simp] theorem signal_tx : signal snullTxIntr = 0 := by simp [signal]
@[simp] theorem signal_or_rx (word : BitVec 32) : signal (word ||| snullRxIntr) = 1 := by simp [signal, raised_or]
@[simp] theorem signal_or_tx (word : BitVec 32) : signal (word ||| snullTxIntr) = signal word := by
  simp [signal, raised_or]

private theorem signal_le (word : BitVec 32) : signal word ≤ 1 := Bool.toNat_le _

private theorem signal_pos {word : BitVec 32} : raised word snullRxIntr = true ↔ signal word = 1 := by
  cases h : raised word snullRxIntr <;> simp [signal, h]

variable {cfg : Config} {l : Lists} {c c' : Control} {point : Point} {progress : Progress}

/-- The regular handler with receive interrupts on: a step of a call that
queues a frame owes one announcement for it, and one that consumes a frame has
consumed an announcement. Only a lost announcement makes a difference. -/
theorem Advance.balance (advance : Advance cfg c point progress c') (holds : Represents c.links l)
    (regular : cfg.useNapi = false) (dev : Dev) (enabled : c.rxIntEnabled dev = true)
    (covered : signal (c.status dev) ≤ (l.rx dev).length) (unpolled : point.poller = none) :
    ((point.effect cfg c l).rx dev).length + (announcements dev [point] + signal (c.status dev)) =
      (l.rx dev).length + (announcements dev progress.points + signal (c'.status dev)) + point.lost c dev := by
  cases advance with
  | @enqueued tx pkt =>
    by_cases same : tx.dest = dev
    · subst same
      simp [Lists.enqueue]
      omega
    · simp [Lists.enqueue, same, Ne.symm same]
  | @masked tx disabled =>
    have other : tx.dest ≠ dev := by
      rintro rfl
      simp [enabled] at disabled
    simp [other]
  | @raisedRx tx =>
    by_cases same : tx.dest = dev
    · subst same
      simp
      omega
    · simp [same, Ne.symm same]
  | @raisedTx tx =>
    by_cases same : tx.dev = dev
    · subst same
      simp
    · simp [Ne.symm same]
  | @received other caller pkt signalled head =>
    obtain ⟨rest, front, _⟩ := holds.rx_front head
    simp only [Point.effect, signalled, if_true]
    by_cases same : other = dev
    · subst same
      simp [Lists.dequeue, front, signal_pos.mp signalled.2]
    · simp [Lists.dequeue, Ne.symm same]
  | @handled other caller nothing =>
    have unchanged : (if c.Signalled cfg other then l.dequeue other else l) = l := by
      split
      next signalled => exact Lists.dequeue_empty (holds.rx_nil.mpr (nothing signalled))
      next => rfl
    simp only [Point.effect, unchanged]
    by_cases same : other = dev
    · subst same
      have silent : signal (c.status other) = 0 := by
        by_contra some
        have one : signal (c.status other) = 1 := by
          have := signal_le (c.status other)
          omega
        have empty := holds.rx_nil.mpr (nothing ⟨regular, signal_pos.mpr one⟩)
        simp [empty, one] at covered
      simp [silent]
    · simp [Ne.symm same]
  | @timedOut other =>
    by_cases same : other = dev
    · subst same
      simp
    · simp [same, Ne.symm same]
  | dequeued | pollContinues | pollStops | polled | pollEmpty | pollMore | pollEnabled =>
    cases unpolled
  | _ => simp [Lists.take, Lists.give]

/-- Only the polling handler masks receive interrupts, and only on a received frame. -/
theorem Advance.enabled (advance : Advance cfg c point progress c')
    (unseen : ∀ dev caller, point = .interrupt dev caller →
      ¬ (cfg.useNapi = true ∧ raised (c.status dev) snullRxIntr = true))
    (enabled : ∀ dev, c.rxIntEnabled dev = true) : ∀ dev, c'.rxIntEnabled dev = true := by
  intro dev
  cases advance with
  | handled nothing =>
    rw [if_neg (unseen _ _ rfl)]
    exact enabled dev
  | pollEnabled =>
    simp only [Function.update_apply]
    split
    · rfl
    · exact enabled dev
  | _ => exact enabled dev

/-- Whoever sets the receive bit enters the handler next, and whoever runs the handler clears it. -/
theorem Advance.answered (advance : Advance cfg c point progress c') {dev : Dev}
    (set : raised (c'.status dev) snullRxIntr = true) :
    (∃ caller, .interrupt dev caller ∈ progress.points) ∨
      (raised (c.status dev) snullRxIntr = true ∧ ∀ caller, point ≠ .interrupt dev caller) := by
  cases advance with
  | @raisedRx tx =>
    by_cases same : tx.dest = dev
    · subst same
      exact .inl ⟨.rxInterrupt tx, by simp⟩
    · exact .inr ⟨by simpa [Ne.symm same] using set, by simp⟩
  | @raisedTx tx =>
    refine .inr ⟨?_, by simp⟩
    by_cases same : tx.dev = dev
    · subst same
      simpa [raised_or] using set
    · simpa [Ne.symm same] using set
  | @received other caller | @handled other caller =>
    have different : other ≠ dev := by
      rintro rfl
      simp at set
    exact .inr ⟨by simpa [Ne.symm different] using set, by simp [different]⟩
  | @timedOut other =>
    have different : other ≠ dev := by
      rintro rfl
      simp at set
    exact .inr ⟨by simpa [Ne.symm different] using set, by simp⟩
  | _ => exact .inr ⟨set, by simp⟩

/-- What every run of the regular mode keeps. The last field is the reason no
frame may be forgotten about: all announcements not yet seen have their frame. -/
structure Announced (bufs : List Addr) (m : Machine) (l : Lists) : Prop extends Conserved bufs m l where
  unpolled : ∀ point ∈ m.calls, point.poller = none
  enabled : ∀ dev, m.state.control.rxIntEnabled dev = true
  answered : ∀ dev, raised (m.state.control.status dev) snullRxIntr = true →
    ∃ caller, .interrupt dev caller ∈ m.calls
  covered : ∀ dev,
    announcements dev m.calls + signal (m.state.control.status dev) ≤ (l.rx dev).length

def Action.lost (m : Machine) (dev : Dev) : Action → Nat
  | .run index _ =>
    match m.calls[index]? with
    | some point => point.lost m.state.control dev
    | none => 0
  | _ => 0

private theorem Announced.start {bufs : List Addr} {m : Machine} {entry : Point}
    (kept : Announced bufs m l) (conserved : Conserved bufs (m.start entry) l)
    (unpolled : entry.poller = none) (silent : ∀ dev, announcements dev [entry] = 0) :
    Announced bufs (m.start entry) l ∧ ∀ dev,
      announcements dev (m.start entry).calls = announcements dev m.calls := by
  have same (dev : Dev) : announcements dev (m.start entry).calls = announcements dev m.calls := by
    rw [Machine.start, announcements_append, silent, Nat.add_zero]
  refine ⟨⟨conserved, ?_, kept.enabled, ?_, ?_⟩, same⟩
  · exact all_started kept.unpolled unpolled
  · intro dev set
    obtain ⟨caller, running⟩ := kept.answered dev set
    exact ⟨caller, List.mem_append_left _ running⟩
  · intro dev
    rw [same]
    exact kept.covered dev

theorem Announced.step {bufs : List Addr} {m m' : Machine} {action : Action} (distinct : bufs.Nodup)
    (regular : cfg.useNapi = false) (kept : Announced bufs m l) (stepped : m.step cfg action = some m') :
    Announced bufs m' (action.effect cfg m l) ∧ ∀ dev,
      ((action.effect cfg m l).rx dev).length +
          (announcements dev m.calls + signal (m.state.control.status dev)) =
        (l.rx dev).length + (announcements dev m'.calls + signal (m'.state.control.status dev)) +
          action.lost m dev := by
  have conserved := kept.toConserved.step distinct stepped
  have answered := kept.answered
  have covered := kept.covered
  cases Machine.step_cases stepped with
  | opened | closed | mtu =>
    refine ⟨⟨conserved, kept.unpolled, ?_, ?_, ?_⟩, ?_⟩
    · simpa using kept.enabled
    · simpa using answered
    · simpa [Action.effect] using covered
    · simp [Action.effect, Action.lost]
  | startedTx | startedTimeout | startedInterrupt =>
    obtain ⟨kept, same⟩ := kept.start conserved rfl (fun _ => rfl)
    refine ⟨kept, fun dev => ?_⟩
    rw [same]
    simp [Action.effect, Action.lost, Machine.start]
  | startedPoll napi => simp [regular] at napi
  | @ran index memory before point after progress state found shape taken =>
    have running : point ∈ m.calls := by simp [shape]
    have advance := Point.step_advance taken
    have balance (dev : Dev) := advance.balance kept.represents regular dev (kept.enabled dev)
      (by have := covered dev; omega) (kept.unpolled point running)
    have counted (dev : Dev) : announcements dev m.calls =
        announcements dev before + announcements dev [point] + announcements dev after := by
      simp [shape, Nat.add_assoc]
    simp only [Action.effect, Action.lost, found] at conserved ⊢
    refine ⟨⟨conserved, ?_, advance.enabled (by simp [regular]) kept.enabled, ?_, ?_⟩, ?_⟩
    · apply all_replaced kept.unpolled shape
      intro unpolled other rest
      rw [advance.poller other rest, unpolled]
    · intro dev set
      rcases advance.answered set with ⟨caller, entered⟩ | ⟨before, elsewhere⟩
      · exact ⟨caller, by simp [entered]⟩
      · obtain ⟨caller, member⟩ := answered dev before
        have := elsewhere caller
        simp only [shape, List.mem_append, List.mem_cons] at member ⊢
        exact ⟨caller, by tauto⟩
    · intro dev
      have := balance dev
      have := covered dev
      have := counted dev
      simp only [announcements_append]
      omega
    · intro dev
      have := balance dev
      have := counted dev
      simp only [announcements_append]
      omega

/-- No announcement is wiped out: the receive bit is set only where it was
clear, and the watchdog does not overwrite it. -/
def Action.KeepsSignals (m : Machine) : Action → Prop
  | .run index _ =>
    match m.calls[index]? with
    | some (.raiseRx tx) => raised (m.state.priv tx.dest).status snullRxIntr = false
    | some (.enterTimeout dev) => raised (m.state.priv dev).status snullRxIntr = false
    | _ => True
  | _ => True

private theorem keepsSignals_iff {m : Machine} {action : Action} :
    action.KeepsSignals m ↔ ∀ dev, action.lost m dev = 0 := by
  have word (dev : Dev) : (m.state.priv dev).status = m.state.control.status dev := rfl
  cases action with
  | run index memory =>
    simp only [Action.KeepsSignals, Action.lost]
    cases m.calls[index]? with
    | none => simp
    | some point => cases point <;> simp [signal, word]
  | _ => simp [Action.KeepsSignals, Action.lost]

/-- All frames in the receive queues are still going to be announced or have been. -/
def Machine.Balanced (m : Machine) (l : Lists) : Prop :=
  ∀ dev, announcements dev m.calls + signal (m.state.control.status dev) = (l.rx dev).length

theorem Announced.initial {kmalloc : Dev → Nat → Bool} {contents : Addr → Packet} :
    ∃ l, Announced (List.range (setUp cfg kmalloc contents).fresh) ⟨setUp cfg kmalloc contents, []⟩ l ∧
      Machine.Balanced ⟨setUp cfg kmalloc contents, []⟩ l := by
  obtain ⟨l, stocked⟩ := @setUp_stocked cfg kmalloc contents
  have fresh (dev : Dev) : (setUp cfg kmalloc contents).control.status dev = 0#32 ∧
      (setUp cfg kmalloc contents).control.rxIntEnabled dev = true := by
    obtain ⟨head, device⟩ := @setUp_device cfg kmalloc contents dev
    simp [State.control, State.priv, device]
  have conserved : Conserved _ ⟨setUp cfg kmalloc contents, []⟩ l :=
    ⟨stocked.represents, by simpa using stocked.complete⟩
  refine ⟨l, ⟨conserved, by simp, fun dev => (fresh dev).2, ?_, ?_⟩, ?_⟩
  · simp [fresh]
  · simp [fresh]
  · simp [Machine.Balanced, fresh, stocked.quiet]

theorem Announced.run {bufs : List Addr} {m m' : Machine} {allowed : Machine → Action → Prop} {actions : List Action}
    (distinct : bufs.Nodup) (regular : cfg.useNapi = false) (kept : ∃ l, Announced bufs m l)
    (run : Run (Machine.step cfg) allowed m actions m') : ∃ l, Announced bufs m' l :=
  run.invariant (fun m => ∃ l, Announced bufs m l) kept
    fun _ _ _ ⟨_, held⟩ _ stepped => ⟨_, (held.step distinct regular stepped).1⟩

/-- With no call left, the receive queues hold as many frames as announcements were lost. -/
theorem Announced.idle {bufs : List Addr} {m : Machine} (kept : Announced bufs m l) (idle : m.calls = []) :
    (∀ dev, (m.state.priv dev).rxQueue = none) ↔ m.Balanced l := by
  have silent (dev : Dev) : signal (m.state.control.status dev) = 0 := by
    by_contra some
    have bounded := signal_le (m.state.control.status dev)
    obtain ⟨caller, running⟩ := kept.answered dev (signal_pos.mpr (by omega))
    simp [idle] at running
  apply forall_congr'
  intro dev
  rw [idle, announcements_nil, silent]
  constructor
  · intro empty
    simp [kept.represents.rx_nil.mpr empty]
  · intro none
    exact kept.represents.rx_nil.mp (List.length_eq_zero_iff.mp none.symm)

/-- Regular mode, from the set-up devices and over any interleaving of any
calls: when no call is in progress, the receive queues are empty exactly if no
step on the way wiped out an announcement that was still to be handled. -/
theorem queues_empty_iff_signals_kept (cfg : Config) (kmalloc : Dev → Nat → Bool) (contents : Addr → Packet)
    (regular : cfg.useNapi = false) (actions : List Action) (m : Machine)
    (run : Run (Machine.step cfg) (fun _ _ => True) ⟨setUp cfg kmalloc contents, []⟩ actions m)
    (idle : m.calls = []) :
    (∀ dev, (m.state.priv dev).rxQueue = none) ↔
      Run (Machine.step cfg) Action.KeepsSignals ⟨setUp cfg kmalloc contents, []⟩ actions m := by
  have distinct := List.nodup_range (n := (setUp cfg kmalloc contents).fresh)
  obtain ⟨l, initial, balanced⟩ := @Announced.initial cfg kmalloc contents
  constructor
  · intro empty
    let bufs := List.range (setUp cfg kmalloc contents).fresh
    have settled : Run _ (Both _ Action.KeepsSignals) _ actions m ∨ _ :=
      run.good_or_debt (fun m => ∃ l, Announced bufs m l)
        (fun m => ∃ l, Announced bufs m l ∧
          ∃ dev, announcements dev m.calls + signal (m.state.control.status dev) < (l.rx dev).length)
        ⟨l, initial⟩ ?_ ?_ ?_
    · rcases settled with good | ⟨l, kept, dev, short⟩
      · exact good.mono fun _ _ both => both.2
      · have := (kept.idle idle).mp empty dev
        omega
    · intro m action m' ⟨l, kept⟩ _ stepped
      exact ⟨_, (kept.step distinct regular stepped).1⟩
    · intro m action m' ⟨l, kept⟩ _ stepped bad
      obtain ⟨kept', balance⟩ := kept.step distinct regular stepped
      rw [keepsSignals_iff, not_forall] at bad
      obtain ⟨dev, lost⟩ := bad
      have := balance dev
      have := kept.covered dev
      exact ⟨_, kept', dev, by omega⟩
    · intro m action m' _ ⟨l, kept, dev, short⟩ _ stepped
      obtain ⟨kept', balance⟩ := kept.step distinct regular stepped
      have := balance dev
      exact ⟨_, kept', dev, by omega⟩
  · intro good
    have settled := good.invariant
      (fun m => ∃ l, Announced (List.range (setUp cfg kmalloc contents).fresh) m l ∧ m.Balanced l)
      ⟨l, initial, balanced⟩ ?_
    · obtain ⟨l, kept, balanced⟩ := settled
      exact (kept.idle idle).mpr balanced
    · intro m action m' ⟨l, kept, balanced⟩ undisturbed stepped
      obtain ⟨kept', balance⟩ := kept.step distinct regular stepped
      refine ⟨_, kept', fun dev => ?_⟩
      have := balance dev
      have := balanced dev
      have := keepsSignals_iff.mp undisturbed dev
      omega

/-- One undisturbed ping: it leaves no frame behind, so no announcement was lost. -/
theorem queues_empty_iff_signals_kept_ping : ∃ actions m,
    m.calls = [] ∧ (∀ dev, (m.state.priv dev).rxQueue = none) ∧
      Run (Machine.step (sample 2 0)) Action.KeepsSignals
        ⟨setUp (sample 2 0) (fun _ _ => true) sampleMemory, []⟩ actions m := by
  have reached : ∃ m : Machine, Run (Machine.step (sample 2 0)) (fun _ _ => True)
      ⟨setUp (sample 2 0) (fun _ _ => true) sampleMemory, []⟩
      (.open .sn0 :: .startTx .sn0 ⟨0, samplePing⟩ [] :: List.replicate 13 (.run 0 true)) m ∧
      m.calls = [] ∧ (m.state.priv .sn0).rxQueue = none ∧ (m.state.priv .sn1).rxQueue = none :=
    reaches_of_execute (by decide +kernel)
  obtain ⟨m, run, idle, first, second⟩ := reached
  have empty (dev : Dev) : (m.state.priv dev).rxQueue = none := by
    cases dev
    · exact first
    · exact second
  exact ⟨_, m, idle, empty, (queues_empty_iff_signals_kept _ _ _ rfl _ m run idle).mp empty⟩

def Action.Transmits (m : Machine) : Action → Prop
  | .startTx dev _ _ => (m.state.device dev).stopped = false
  | .startTimeout dev => (m.state.device dev).stopped = true
  | .run _ _ => True
  | _ => False

instance (m : Machine) (action : Action) : Decidable (action.Transmits m) :=
  match action with
  | .startTx _ _ _ | .startTimeout _ => inferInstanceAs (Decidable (_ = _))
  | .run _ _ => inferInstanceAs (Decidable True)
  | .open _ | .release _ | .changeMtu _ _ | .startInterrupt _ | .startPoll _ _ =>
    inferInstanceAs (Decidable False)

/-- A ping of sn0 to itself and a frame from sn1 are queued before either is
announced. The first handler run takes one frame and clears the bit for both. -/
theorem frame_stranded : ¬ ∀ (cfg : Config) (kmalloc : Dev → Nat → Bool) (contents : Addr → Packet)
    (actions : List Action) (m : Machine), cfg.useNapi = false →
    Run (Machine.step cfg) Action.Transmits ⟨opened cfg kmalloc contents, []⟩ actions m →
    m.calls = [] → ∀ dev, (m.state.priv dev).rxQueue = none := by
  intro claim
  have reached : ∃ m : Machine, Run (Machine.step (sample 2 0)) Action.Transmits
      ⟨opened (sample 2 0) (fun _ _ => true) sampleMemory, []⟩
      (.startTx .sn0 ⟨0, samplePing⟩ [] :: List.replicate 5 (.run 0 true) ++
        .startTx .sn1 ⟨1, samplePlain⟩ [] :: List.replicate 5 (.run 1 true) ++
        .run 0 true :: .run 1 true :: List.replicate 12 (.run 0 true)) m ∧
      m.calls = [] ∧ (m.state.priv .sn0).rxQueue = some 1 :=
    reaches_of_execute (by decide +kernel)
  obtain ⟨m, run, idle, queued⟩ := reached
  have empty := claim _ _ _ _ m rfl run idle .sn0
  simp [queued] at empty

end DeviceDrivers.Snull
