import DeviceDrivers.SlpyWq.Driver

/-! How often the timer of the work queue device is armed. Every execution of the work
arms it once more, and the timer never stops: it is pending, or its handler is about
to arm it again. -/

namespace DeviceDrivers.SlpyWq
open Runs Interleavings

variable {s s' : State} {m m' : Machine} {point : Point} {progress : Progress Point}

inductive Advance (s : State) : Point → Progress Point → State → Prop where
  | left {value} : Advance s .wait (.returned value) s
  | scheduled {count} : Advance s (.schedule count) (.next (.setPresent count)) { s with workPending := true }
  | presented {count} : Advance s (.setPresent count) (.next (.wakeUp count)) { s with dataPresent := 1 }
  | woken {count} : Advance s (.wakeUp count) (.returned count) s
  | armed {callback} : Advance s (.addTimer callback) (.returned 0) s.addTimer
  | deleted : Advance s .delTimerSync (.next .flushScheduledWork) { s with timerPending := false }
  | flushed : Advance s .flushScheduledWork (.next .unregister) s
  | unregistered : Advance s .unregister (.returned 0) { s with presence := .gone }

theorem Point.step_advance (stepped : point.step s = some (progress, s')) : Advance s point progress s' := by
  cases point with
  | wait =>
    obtain ⟨_, same⟩ := Option.ite_none_right_eq_some.mp stepped
    cases same
    exact .left
  | schedule count => cases stepped; exact .scheduled
  | setPresent count => cases stepped; exact .presented
  | wakeUp count => cases stepped; exact .woken
  | addTimer callback => cases stepped; exact .armed
  | delTimerSync => cases stepped; exact .deleted
  | flushScheduledWork => cases stepped; exact .flushed
  | unregister => cases stepped; exact .unregistered

theorem Point.interrupt_advance (stepped : point.interrupt s = some (progress, s')) :
    Advance s point progress s' := by
  cases point with
  | wait => cases stepped; exact .left
  | _ => cases stepped

inductive Stepped (m : Machine) : Action → Machine → Prop where
  | called {action call} (other : action ≠ .work) (method : call.method = true) (live : m.shared.presence = .live) :
      Stepped m action (m.start call)
  | worked (pending : m.shared.workPending = true) :
      Stepped m .work { m.start (.addTimer .wqFunc) with shared := { m.shared with workPending := false } }
  | expired (pending : m.shared.timerPending = true) :
      Stepped m .expire { m.start (.addTimer .whee) with shared := { m.shared with timerPending := false } }
  | unloading (live : m.shared.presence = .live) (unused : ∀ call ∈ m.calls, call.method = false) :
      Stepped m .unload { m.start .delTimerSync with shared := { m.shared with presence := .going } }
  | ran {action before point after progress s} (other : action ≠ .work) (shape : m.calls = before ++ point :: after)
      (which : point = .wait ∨ ∃ index, action = .run index ∧ m.calls[index]? = some point ∧ point.waits m = false)
      (advance : Advance m.shared point progress s) : Stepped m action ⟨s, before ++ progress.calls ++ after⟩

theorem Machine.step_cases {action : Action} (stepped : m.step action = some m') : Stepped m action m' := by
  cases action with
  | read =>
    obtain ⟨live, same⟩ := Option.ite_none_right_eq_some.mp stepped
    cases same
    exact .called (by simp) rfl live
  | write count =>
    obtain ⟨live, same⟩ := Option.ite_none_right_eq_some.mp stepped
    cases same
    exact .called (by simp) rfl live
  | signal index =>
    obtain ⟨_, shape, _, taken⟩ := System.run_cases stepped
    refine .ran (by simp) shape (.inl ?_) (Point.interrupt_advance taken)
    unfold Point.interrupt at taken
    split at taken
    next => rfl
    next => cases taken
  | work =>
    obtain ⟨pending, same⟩ := Option.ite_none_right_eq_some.mp stepped
    cases same
    exact .worked pending
  | expire =>
    obtain ⟨pending, same⟩ := Option.ite_none_right_eq_some.mp stepped
    cases same
    exact .expired pending
  | unload =>
    obtain ⟨⟨live, unused⟩, same⟩ := Option.ite_none_right_eq_some.mp stepped
    cases same
    exact .unloading live unused
  | run index =>
    obtain ⟨ready, stepped⟩ := Option.ite_none_left_eq_some.mp stepped
    obtain ⟨found, shape, _, taken⟩ := System.run_cases stepped
    rw [found, Option.any_some, Bool.not_eq_true] at ready
    exact .ran (by simp) shape (.inr ⟨index, rfl, found, ready⟩) (Point.step_advance taken)

def Point.unloads : Point → Bool
  | .delTimerSync | .flushScheduledWork | .unregister => true
  | _ => false

private theorem Point.method_runs {callback : Callback} (method : point.method = true) :
    point.runs callback = false := by
  cases point <;> first | rfl | cases method

theorem Point.method_unloads (method : point.method = true) : point.unloads = false := by
  cases point <;> first | rfl | cases method

def Machine.count (m : Machine) (callback : Callback) : Nat := m.calls.countP (Point.runs callback)

/-- Each execution of the work accounts for a callback in progress, the timer pending,
or a call of `add_timer` that should not have been made. -/
structure Ledger (m : Machine) (executions : Nat) : Prop where
  stays : ∀ call ∈ m.calls, call.unloads = false
  balance : m.shared.timerPending.toNat + m.count .whee + m.count .wqFunc + m.shared.misused = executions
  survives : 0 < m.shared.misused → 0 < m.shared.timerPending.toNat + m.count .whee

theorem Ledger.armed {before after : List Point} {callback : Callback} {executions : Nat} (ledger : Ledger m executions)
    (shape : m.calls = before ++ .addTimer callback :: after) :
    Ledger ⟨m.shared.addTimer, before ++ after⟩ executions := by
  obtain ⟨inside, balance, survives⟩ := ledger
  have counted (other : Callback) : m.count other =
      (before ++ after).countP (Point.runs other) + if callback = other then 1 else 0 := by
    simp only [Machine.count, shape, List.countP_append, List.countP_cons, Point.runs, decide_eq_true_eq]
    omega
  refine ⟨?_, ?_, ?_⟩
  · exact fun call member => inside call (other_mem shape member)
  · rw [counted .whee, counted .wqFunc] at balance
    simp only [Machine.count, State.addTimer]
    cases pending : m.shared.timerPending <;> cases callback <;> simp [pending] at balance ⊢ <;> omega
  · exact fun _ => Nat.add_pos_left Nat.one_pos _

theorem Ledger.step {action : Action} {executions : Nat} (ledger : Ledger m executions) (stays : action ≠ .unload)
    (stepped : m.step action = some m') : Ledger m' (executions + [action].count .work) := by
  obtain ⟨inside, balance, survives⟩ := ledger
  cases Machine.step_cases stepped with
  | @called _ call other method live =>
    have same (callback : Callback) : Machine.count (m.start call) callback = m.count callback := by
      simp [Machine.count, Point.method_runs method]
    rw [List.count_singleton, if_neg (by simpa using other)]
    refine ⟨?_, ?_, ?_⟩
    · exact List.forall_mem_append.mpr ⟨inside, List.forall_mem_singleton.mpr (Point.method_unloads method)⟩
    · rw [same, same]
      exact balance
    · rw [same]
      exact survives
  | worked pending =>
    refine ⟨?_, ?_, ?_⟩
    · exact List.forall_mem_append.mpr ⟨inside, List.forall_mem_singleton.mpr rfl⟩
    · simp [Machine.count, Point.runs] at balance ⊢
      omega
    · simpa [Machine.count, Point.runs] using survives
  | expired pending =>
    refine ⟨?_, ?_, ?_⟩
    · exact List.forall_mem_append.mpr ⟨inside, List.forall_mem_singleton.mpr rfl⟩
    · simp [Machine.count, Point.runs, pending] at balance ⊢
      omega
    · simp [Machine.count, Point.runs]
  | unloading => exact absurd rfl stays
  | @ran action before point after progress s other shape which advance =>
    rw [List.count_singleton, if_neg (by simpa using other)]
    have loaded := inside point (by simp [shape])
    cases advance with
    | armed => simpa using Ledger.armed ⟨inside, balance, survives⟩ shape
    | deleted | flushed | unregistered => cases loaded
    | _ =>
      refine ⟨?_, ?_, ?_⟩
      · simpa [shape, or_imp, forall_and, Point.unloads] using inside
      · simpa [Machine.count, shape, Point.runs] using balance
      · simpa [Machine.count, shape, Point.runs] using survives

theorem Ledger.run {actions : List Action}
    (run : Run Machine.step (fun _ action => action ≠ .unload) loaded actions m) :
    Ledger m (actions.count .work) := by
  induction run with
  | nil => exact ⟨by simp [loaded], rfl, by simp [loaded]⟩
  | snoc _ stays stepped ih =>
    rw [List.count_append]
    exact ih.step stays stepped

/-- The timer is never armed while it is pending if the work is executed at most once,
and only then where no callback is in progress. -/
theorem armed_once_iff (actions : List Action) (m : Machine)
    (run : Run Machine.step (fun _ action => action ≠ .unload) loaded actions m) :
    (actions.count .work ≤ 1 → m.shared.misused = 0) ∧
      ((∀ callback, m.running callback = false) → m.shared.misused = 0 → actions.count .work ≤ 1) := by
  obtain ⟨_, balance, survives⟩ := Ledger.run run
  constructor
  · intro once
    by_contra misused
    have := survives (by omega)
    omega
  · intro quiet proper
    have none (callback : Callback) : m.count callback = 0 := by
      rw [Machine.count, List.countP_eq_zero]
      simpa [Machine.running] using quiet callback
    have := none .whee
    have := none .wqFunc
    have := Bool.toNat_le m.shared.timerPending
    omega

/-- Two writes while the work is still pending, and the timer expires twice. -/
theorem armed_once_iff_expired : ∃ actions m,
    Run Machine.step (fun _ action => action ≠ .unload) loaded actions m ∧ m.shared.timerPending = true ∧
      m.shared.misused = 0 := by
  have reached : ∃ m : Machine, Run Machine.step (fun _ action => action ≠ .unload) loaded
      [.write 1, .write 1, .run 0, .run 1, .work, .run 2, .expire, .run 2, .expire, .run 2] m ∧
      m.shared.timerPending = true := reaches_of_execute (by decide +kernel)
  obtain ⟨m, run, pending⟩ := reached
  exact ⟨_, m, run, pending, (armed_once_iff _ m run).1 (by decide)⟩

/-- A second write, after the work of the first has armed the timer. -/
theorem armed_twice_run : ¬ ∀ (actions : List Action) (m : Machine),
    Run Machine.step (fun _ action => action ≠ .unload) loaded actions m → m.shared.misused = 0 := by
  intro claim
  have reached : ∃ m : Machine, Run Machine.step (fun _ action => action ≠ .unload) loaded
      [.write 1, .run 0, .run 0, .run 0, .work, .run 0, .write 1, .run 0, .run 0, .run 0, .work, .run 0] m ∧
      m.shared.misused = 1 := reaches_of_execute (by decide +kernel)
  obtain ⟨m, run, misused⟩ := reached
  rw [claim _ m run] at misused
  cases misused

end DeviceDrivers.SlpyWq
