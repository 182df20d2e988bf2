import DeviceDrivers.SlpyProc.Driver

/-! How many reads one write lets through. Reads that leave their wait while another
is about to reset the flag see its event too, and a write that comes in between loses
its event; otherwise each read consumes an event of its own. -/

namespace DeviceDrivers.SlpyProc
open Runs Interleavings

variable {s s' : State} {m m' : Machine} {point : Point} {progress : Progress Point}

inductive Advance (s : State) : Point → Progress Point → State → Prop where
  | passed (present : s.dataPresent = 1) : Advance s .wait (.next (.testWakeOne s.events))
      { s with inside := s.inside + 1, passes := s.passes ++ [⟨s.events, 0 < s.inside⟩] }
  | interrupted {value} : Advance s .wait (.returned value) s
  | kept {event} (off : s.wakeOne = 0) : Advance s (.testWakeOne event) (.returned 0)
      { s with inside := s.inside - 1, completed := s.completed + 1 }
  | tested {event} (on : s.wakeOne ≠ 0) : Advance s (.testWakeOne event) (.next (.reset event)) s
  | reset {event} : Advance s (.reset event) (.returned 0)
      { s with
        dataPresent := 0
        inside := s.inside - 1
        completed := s.completed + 1
        cleared := if s.dataPresent = 0 then s.cleared else s.cleared ++ [(event, s.events)] }
  | raised {count} :
      Advance s (.setPresent count) (.next (.wakeUp count)) { s with dataPresent := 1, events := s.events + 1 }
  | woken {count} : Advance s (.wakeUp count) (.returned count) s

theorem Point.step_advance (stepped : point.step s = some (progress, s')) : Advance s point progress s' := by
  cases point with
  | wait =>
    obtain ⟨present, same⟩ := Option.ite_none_right_eq_some.mp stepped
    cases same
    exact .passed present
  | testWakeOne event =>
    simp only [Point.step] at stepped
    split at stepped
    next off => cases stepped; exact .kept off
    next on => cases stepped; exact .tested on
  | reset event => cases stepped; exact .reset
  | setPresent count => cases stepped; exact .raised
  | wakeUp count => cases stepped; exact .woken

private theorem Point.interrupt_wait (stepped : point.interrupt s = some (progress, s')) : point = .wait := by
  cases point with
  | wait => rfl
  | _ => cases stepped

theorem Point.interrupt_advance (stepped : point.interrupt s = some (progress, s')) :
    Advance s point progress s' := by
  obtain rfl := Point.interrupt_wait stepped
  cases stepped
  exact .interrupted

inductive Stepped (m : Machine) : Action → Machine → Prop where
  | read : Stepped m .read (m.start .wait)
  | wrote {count} : Stepped m (.write count)
      { m.start (.setPresent count) with shared := { m.shared with started := m.shared.started + 1 } }
  | ran {action before point after progress s} (shape : m.calls = before ++ point :: after)
      (which : point = .wait ∨ ∃ index, action = .run index ∧ m.calls[index]? = some point)
      (advance : Advance m.shared point progress s) : Stepped m action ⟨s, before ++ progress.calls ++ after⟩

theorem Machine.step_cases {action : Action} (stepped : m.step action = some m') : Stepped m action m' := by
  cases action with
  | read => cases stepped; exact .read
  | write count => cases stepped; exact .wrote
  | signal index =>
    obtain ⟨_, shape, _, taken⟩ := System.run_cases stepped
    have waits := Point.interrupt_wait taken
    exact .ran shape (.inl waits) (Point.interrupt_advance taken)
  | run index =>
    obtain ⟨found, shape, _, taken⟩ := System.run_cases stepped
    exact .ran shape (.inr ⟨index, rfl, found⟩) (Point.step_advance taken)

@[simp] def Point.holds : Point → Bool
  | .testWakeOne _ | .reset _ => true
  | _ => false

@[simp] def Point.raises : Point → Bool
  | .setPresent _ => true
  | _ => false

/-- A pass that does not overlap another finds a later event than all before it, and
there are no more completed reads than writes started and overlapping passes. -/
structure Consumed (s : State) : Prop where
  ordered : s.passes.Pairwise fun earlier later => later.overlapped = false → earlier.event < later.event
  completed : s.completed ≤ s.started + s.passes.countP (·.overlapped)

/-- What holds of the flag and the history between any two steps. -/
structure Counted (s : State) : Prop where
  ordered : s.passes.Pairwise fun earlier later => later.overlapped = false → earlier.event < later.event
  bounded : ∀ pass ∈ s.passes, pass.event ≤ s.events
  fresh : s.dataPresent = 1 → s.inside = 0 → ∀ pass ∈ s.passes, pass.event < s.events
  apart : s.passes.countP (!·.overlapped) + (if s.dataPresent = 1 ∧ s.inside = 0 then 1 else 0) ≤ s.events
  finished : s.completed + s.inside = s.passes.length

structure Binary (m : Machine) : Prop where
  wakeOne : m.shared.wakeOne ≠ 0
  counted : Counted m.shared
  inside : m.shared.inside = m.calls.countP Point.holds
  started : m.shared.events + m.calls.countP Point.raises = m.shared.started

theorem Binary.consumed (binary : Binary m) : Consumed m.shared := by
  refine ⟨binary.counted.ordered, ?_⟩
  have started := binary.started
  have apart := binary.counted.apart
  have finished := binary.counted.finished
  have passes := List.length_eq_countP_add_countP (fun pass : Pass => pass.overlapped) (l := m.shared.passes)
  simp only [Bool.not_eq_true, Bool.decide_eq_false] at passes
  omega

theorem Counted.passed (counted : Counted s) (present : s.dataPresent = 1) :
    Counted { s with inside := s.inside + 1, passes := s.passes ++ [⟨s.events, 0 < s.inside⟩] } := by
  obtain ⟨ordered, bounded, fresh, apart, finished⟩ := counted
  refine ⟨?_, ?_, by simp, ?_, ?_⟩
  · refine List.pairwise_append.mpr ⟨ordered, by simp, ?_⟩
    simp only [List.mem_singleton, forall_eq, decide_eq_false_iff_not]
    intro pass member alone
    exact fresh present (by omega) pass member
  · exact List.forall_mem_append.mpr ⟨bounded, List.forall_mem_singleton.mpr (Nat.le_refl _)⟩
  · simp only [List.countP_append, List.countP_singleton]
    by_cases alone : s.inside = 0
    · simpa [present, alone] using apart
    · simp only [present, alone, and_false, if_false] at apart
      simpa [Nat.pos_of_ne_zero alone] using apart
  · simp only [List.length_append, List.length_singleton]
    omega

theorem Counted.reset {event : Nat} (counted : Counted s) (holding : 0 < s.inside) :
    Counted { s with
      dataPresent := 0
      inside := s.inside - 1
      completed := s.completed + 1
      cleared := if s.dataPresent = 0 then s.cleared else s.cleared ++ [(event, s.events)] } := by
  obtain ⟨ordered, bounded, fresh, apart, finished⟩ := counted
  refine ⟨ordered, bounded, by simp, ?_, ?_⟩
  · simp only [Int.reduceEq, false_and, if_false]
    omega
  · change s.completed + 1 + (s.inside - 1) = s.passes.length
    omega

theorem Counted.raised (counted : Counted s) : Counted { s with dataPresent := 1, events := s.events + 1 } := by
  obtain ⟨ordered, bounded, fresh, apart, finished⟩ := counted
  refine ⟨ordered, ?_, ?_, ?_, finished⟩
  · exact fun pass member => Nat.le_succ_of_le (bounded pass member)
  · exact fun _ _ pass member => Nat.lt_succ_of_le (bounded pass member)
  · simp only [true_and]
    split <;> split at apart <;> omega

theorem Advance.wakeOne (advance : Advance s point progress s') : s'.wakeOne = s.wakeOne := by
  cases advance <;> rfl

theorem Advance.counted (advance : Advance s point progress s') (on : s.wakeOne ≠ 0)
    (holding : point.holds = true → 0 < s.inside) (counted : Counted s) : Counted s' := by
  cases advance with
  | passed present => exact counted.passed present
  | kept off => exact absurd off on
  | reset => exact counted.reset (holding rfl)
  | raised => exact counted.raised
  | interrupted | tested | woken => exact counted

theorem Advance.inside (advance : Advance s point progress s') (on : s.wakeOne ≠ 0)
    (holding : point.holds = true → 0 < s.inside) :
    s'.inside + [point].countP Point.holds = s.inside + progress.calls.countP Point.holds := by
  cases advance with
  | kept off => exact absurd off on
  | reset =>
    have := holding rfl
    simp only [Point.holds, List.countP_singleton, if_true, calls_returned, List.countP_nil]
    omega
  | _ => simp

theorem Advance.started (advance : Advance s point progress s') :
    s'.events + progress.calls.countP Point.raises = s.events + [point].countP Point.raises ∧
      s'.started = s.started := by
  cases advance <;> simp

theorem Binary.step {action : Action} (binary : Binary m) (stepped : m.step action = some m') : Binary m' := by
  obtain ⟨wakeOne, counted, inside, started⟩ := binary
  cases Machine.step_cases stepped with
  | read => exact ⟨wakeOne, counted, by simpa using inside, by simpa using started⟩
  | wrote =>
    refine ⟨wakeOne, { counted with }, by simpa using inside, ?_⟩
    simp only [System.start_calls, List.countP_append, Point.raises, List.countP_singleton, if_true]
    omega
  | @ran action before point after progress s shape _ advance =>
    have holding : point.holds = true → 0 < m.shared.inside := by
      intro holds
      rw [inside]
      exact count_pos (by simp [shape]) holds
    have entered := advance.inside wakeOne holding
    have raised := advance.started
    have held := count_replaced Point.holds before after progress.calls point
    have raises := count_replaced Point.raises before after progress.calls point
    rw [← shape] at held raises
    refine ⟨advance.wakeOne ▸ wakeOne, advance.counted wakeOne holding counted, ?_, ?_⟩
    · change s.inside = (before ++ progress.calls ++ after).countP Point.holds
      omega
    · change s.events + (before ++ progress.calls ++ after).countP Point.raises = s.started
      omega

/-- No write raises the flag while a read is between its wait and its reset. -/
def Action.Apart (m : Machine) : Action → Prop
  | .run index => ∀ point ∈ m.calls[index]?, point.raises = true → m.shared.inside = 0
  | _ => True

instance (m : Machine) (action : Action) : Decidable (action.Apart m) := by
  cases action with
  | run index => exact inferInstanceAs (Decidable (∀ point ∈ m.calls[index]?, point.raises = true → m.shared.inside = 0))
  | _ => exact inferInstanceAs (Decidable True)

/-- The event that a read past its wait has found is still the latest. -/
def Point.Current (s : State) : Point → Prop
  | .testWakeOne event | .reset event => event = s.events
  | _ => True

structure Undisturbed (m : Machine) : Prop extends Binary m where
  current : Asserted Point.Current m
  own : ∀ item ∈ m.shared.cleared, item.2 = item.1

theorem Undisturbed.step {action : Action} (undisturbed : Undisturbed m) (apart : action.Apart m)
    (stepped : m.step action = some m') : Undisturbed m' := by
  have binary := undisturbed.toBinary.step stepped
  cases Machine.step_cases stepped with
  | read | wrote => exact ⟨binary, undisturbed.current.start trivial, undisturbed.own⟩
  | @ran action before point after progress s shape which advance =>
    have running : point ∈ m.calls := by simp [shape]
    have nobody (raises : point.raises = true) : ∀ other ∈ m.calls, other.holds = false := by
      have alone : m.shared.inside = 0 := by
        rcases which with rfl | ⟨index, rfl, found⟩
        · cases raises
        · exact apart point found raises
      rw [undisturbed.inside, List.countP_eq_zero] at alone
      simpa using alone
    refine ⟨binary, undisturbed.current.replaced shape ?_ ?_, ?_⟩
    · intro current
      cases advance with
      | tested => exact List.forall_mem_singleton.mpr current
      | _ => simp [Point.Current]
    · intro other member current
      cases advance with
      | raised =>
        have outside := nobody rfl other (other_mem shape member)
        cases other with
        | testWakeOne | reset => cases outside
        | _ => trivial
      | _ => exact current
    · have current := undisturbed.current point running
      cases advance with
      | reset =>
        change ∀ item ∈ if m.shared.dataPresent = 0 then _ else _, _
        split
        next => exact undisturbed.own
        next => exact List.forall_mem_append.mpr ⟨undisturbed.own, List.forall_mem_singleton.mpr current.symm⟩
      | _ => exact undisturbed.own

/-- With `wake_one` set there are never more completed reads than writes started and
reads that left their wait while another was past its own, and a pass that overlaps
no other finds an event of its own. Where no write comes between the wait and the
reset of a read, the event cleared is the one found. -/
theorem consumed_once (actions : List Action) (m : Machine) :
    (Run Machine.step (fun _ _ => True) (loaded 1) actions m → Consumed m.shared) ∧
      (Run Machine.step Action.Apart (loaded 1) actions m → ∀ item ∈ m.shared.cleared, item.2 = item.1) := by
  have initial : Binary (loaded 1) := by
    refine ⟨?_, ⟨.nil, ?_, ?_, ?_, ?_⟩, ?_, ?_⟩ <;> simp [loaded]
  constructor
  · intro run
    exact (run.invariant Binary initial fun _ _ _ binary _ stepped => binary.step stepped).consumed
  · intro run
    have start : Undisturbed (loaded 1) := ⟨initial, by simp [Asserted, loaded], by simp [loaded]⟩
    exact (run.invariant Undisturbed start fun _ _ _ kept apart stepped => kept.step apart stepped).own

/-- Two writes and two reads that take turns. -/
theorem consumed_once_turns : ∃ actions m, Run Machine.step Action.Apart (loaded 1) actions m ∧
    m.shared.cleared = [(1, 1), (2, 2)] ∧ Consumed m.shared ∧ ∀ item ∈ m.shared.cleared, item.2 = item.1 := by
  have reached : ∃ m : Machine, Run Machine.step Action.Apart (loaded 1)
      [.read, .write 5, .run 1, .run 1, .run 0, .run 0, .run 0, .write 5, .run 0, .read, .run 1, .run 1, .run 1] m ∧
      m.shared.cleared = [(1, 1), (2, 2)] := reaches_of_execute (by decide +kernel)
  obtain ⟨m, run, cleared⟩ := reached
  have consumed := (consumed_once _ m).1 (run.mono fun _ _ _ => trivial)
  exact ⟨_, m, run, cleared, consumed, (consumed_once _ m).2 run⟩

/-- One write lets two reads through. -/
theorem shared_event_run : ¬ ∀ (actions : List Action) (m : Machine),
    Run Machine.step (fun _ _ => True) (loaded 1) actions m →
      m.shared.completed ≤ m.shared.started ∧ ∀ item ∈ m.shared.cleared, item.2 = item.1 := by
  intro claim
  have reached : ∃ m : Machine, Run Machine.step (fun _ _ => True) (loaded 1)
      [.write 1, .run 0, .run 0, .read, .read, .run 0, .run 1, .run 0, .run 1, .run 0, .run 0] m ∧
      m.shared.completed = 2 ∧ m.shared.started = 1 := reaches_of_execute (by decide +kernel)
  obtain ⟨m, run, completed, started⟩ := reached
  have := (claim _ m run).1
  omega

end DeviceDrivers.SlpyProc
