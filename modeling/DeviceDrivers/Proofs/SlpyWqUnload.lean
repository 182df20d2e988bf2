import DeviceDrivers.Proofs.SlpyWqTimer

/-! What is left of the work queue device when it has been unloaded. The cleanup first
removes the timer and then lets the queued work run, which arms the timer again. -/

namespace DeviceDrivers.SlpyWq
open Runs Interleavings

variable {s s' : State} {m m' : Machine} {point : Point} {progress : Progress Point}

/-- Neither the work nor the timer is pending or running. -/
structure Clean (m : Machine) : Prop where
  work : m.shared.workPending = false
  timer : m.shared.timerPending = false
  idle : ∀ callback, m.running callback = false

def Alive (m : Machine) : Prop := m.shared.timerPending = true ∨ m.running .whee = true

def Due (m : Machine) : Prop := m.shared.workPending = true ∨ m.running .wqFunc = true

def Action.Idle (m : Machine) : Action → Prop
  | .run index => m.calls[index]? = some .delTimerSync → ¬ Due m
  | _ => True

instance (m : Machine) : Decidable (Due m) := inferInstanceAs (Decidable (_ ∨ _))

instance (m : Machine) (action : Action) : Decidable (action.Idle m) := by
  cases action with
  | run index => exact inferInstanceAs (Decidable (m.calls[index]? = some .delTimerSync → ¬ Due m))
  | _ => exact inferInstanceAs (Decidable True)

/-- The cleanup is the only call of its kind, and no file method runs beside it or after it. -/
structure Orderly (m : Machine) : Prop where
  single : m.calls.countP Point.unloads = if m.shared.presence = .going then 1 else 0
  closed : m.shared.presence ≠ .live → ∀ call ∈ m.calls, call.method = false

theorem Advance.unloads (advance : Advance s point progress s') :
    progress.calls.countP Point.unloads + (if point = .unregister then 1 else 0) = [point].countP Point.unloads := by
  cases advance <;> rfl

theorem Advance.method (advance : Advance s point progress s') (outside : point.method = false) :
    ∀ next ∈ progress.calls, next.method = false := by
  cases advance with
  | deleted | flushed => simp [Point.method]
  | scheduled | presented => cases outside
  | _ => simp

theorem Advance.presence (advance : Advance s point progress s') :
    s'.presence = if point = .unregister then .gone else s.presence := by
  cases advance <;> rfl

theorem Orderly.going (orderly : Orderly m) (running : point ∈ m.calls) (unloads : point.unloads = true) :
    m.shared.presence = .going := by
  have some := count_pos running unloads
  rw [orderly.single] at some
  split at some
  next going => exact going
  next => cases some

theorem Orderly.step {action : Action} (orderly : Orderly m) (stepped : m.step action = some m') : Orderly m' := by
  have ⟨single, closed⟩ := orderly
  cases Machine.step_cases stepped with
  | @called _ call _ method live =>
    refine ⟨?_, fun other => absurd live other⟩
    rw [System.start_calls, List.countP_append, List.countP_singleton, Point.method_unloads method]
    exact single
  | worked | expired =>
    refine ⟨?_, fun away => List.forall_mem_append.mpr ⟨closed away, List.forall_mem_singleton.mpr rfl⟩⟩
    change (m.calls ++ [_]).countP Point.unloads = if m.shared.presence = .going then 1 else 0
    rw [List.countP_append]
    exact single
  | unloading live unused =>
    refine ⟨?_, fun _ => List.forall_mem_append.mpr ⟨unused, List.forall_mem_singleton.mpr rfl⟩⟩
    rw [live] at single
    simpa [Point.unloads] using single
  | @ran _ before point after progress s _ shape _ advance =>
    have running : point ∈ m.calls := by simp [shape]
    have counted := count_replaced Point.unloads before after progress.calls point
    have unloads := advance.unloads
    have presence := advance.presence
    rw [← shape, single] at counted
    have kept (away : m.shared.presence ≠ .live) :
        ∀ call ∈ before ++ progress.calls ++ after, call.method = false := by
      have none := closed away
      rw [shape] at none
      simp only [List.forall_mem_append, List.forall_mem_cons] at none ⊢
      exact ⟨⟨none.1, advance.method none.2.1⟩, none.2.2⟩
    by_cases last : point = .unregister
    · have going := orderly.going running (last ▸ rfl)
      rw [going, if_pos rfl] at counted
      rw [if_pos last] at presence unloads
      refine ⟨?_, fun _ => kept (by simp [going])⟩
      change (before ++ progress.calls ++ after).countP Point.unloads = if s.presence = .going then 1 else 0
      rw [presence, if_neg (by decide)]
      omega
    · rw [if_neg last] at presence unloads
      refine ⟨?_, fun away => kept (presence ▸ away)⟩
      change (before ++ progress.calls ++ after).countP Point.unloads = if s.presence = .going then 1 else 0
      rw [presence]
      omega

def Deleted (m : Machine) : Prop :=
  m.shared.presence = .gone ∨ .flushScheduledWork ∈ m.calls ∨ .unregister ∈ m.calls

/-- After `del_timer_sync` work that was not idle is still due, or has armed the timer. -/
structure Debt (m : Machine) : Prop where
  deleted : Deleted m
  owed : Alive m ∨ .flushScheduledWork ∈ m.calls ∧ Due m

structure Quiet (m : Machine) : Prop extends Orderly m where
  clean : Deleted m → Clean m

private theorem runs_replaced {before after : List Point} {callback : Callback}
    (shape : m.calls = before ++ point :: after) (running : m.running callback = true) :
    point.runs callback = true ∨
      (before ++ progress.calls ++ after).any (Point.runs callback) = true := by
  simp only [Machine.running, shape, List.any_append, List.any_cons, Bool.or_eq_true] at running ⊢
  tauto

theorem Alive.step {action : Action} (alive : Alive m) (stepped : m.step action = some m')
    (keeps : .delTimerSync ∉ m.calls) : Alive m' := by
  cases Machine.step_cases stepped with
  | called | worked | unloading =>
    refine alive.imp id fun running => ?_
    simp only [Machine.running, System.start_calls, List.any_append, Bool.or_eq_true] at running ⊢
    exact .inl running
  | expired => exact .inr (by simp [Machine.running, Point.runs])
  | @ran _ before point after progress s _ shape which advance =>
    cases advance with
    | armed => exact .inl rfl
    | deleted => exact absurd (by simp [shape]) keeps
    | _ =>
      refine alive.imp id fun running => ?_
      rcases runs_replaced shape running with own | others
      · cases own
      · exact others

theorem Due.step {action : Action} (due : Due m) (stepped : m.step action = some m') : Due m' ∨ Alive m' := by
  cases Machine.step_cases stepped with
  | called | expired | unloading =>
    refine .inl (due.imp id fun running => ?_)
    simp only [Machine.running, System.start_calls, List.any_append, Bool.or_eq_true] at running ⊢
    exact .inl running
  | worked => exact .inl (.inr (by simp [Machine.running, Point.runs]))
  | @ran _ before point after progress s _ shape which advance =>
    cases advance with
    | armed => exact .inr (.inl rfl)
    | scheduled => exact .inl (.inl rfl)
    | _ =>
      refine .inl (due.imp id fun running => ?_)
      rcases runs_replaced shape running with own | others
      · cases own
      · exact others

private theorem Orderly.deleted_once (orderly : Orderly m) (deleted : Deleted m) : .delTimerSync ∉ m.calls := by
  intro running
  have going := orderly.going running rfl
  have single := orderly.single
  rw [going, if_pos rfl] at single
  rcases deleted with gone | flushing | unregistering
  · rw [going] at gone
    cases gone
  · cases count_one single running rfl flushing rfl
  · cases count_one single running rfl unregistering rfl

theorem Deleted.step {action : Action} (deleted : Deleted m) (orderly : Orderly m)
    (stepped : m.step action = some m') : Deleted m' := by
  cases Machine.step_cases stepped with
  | called | worked | expired =>
    refine deleted.imp id (Or.imp ?_ ?_) <;> exact fun member => List.mem_append_left _ member
  | unloading live unused =>
    refine deleted.imp ?_ (Or.imp ?_ ?_)
    · exact fun gone => absurd (live.symm.trans gone) (by decide)
    all_goals exact fun member => List.mem_append_left _ member
  | @ran _ before point after progress s _ shape which advance =>
    cases advance with
    | deleted => exact absurd (by simp [shape]) (orderly.deleted_once deleted)
    | flushed => exact .inr (.inr (by simp))
    | unregistered => exact .inl rfl
    | _ =>
      refine deleted.imp id (Or.imp ?_ ?_) <;> exact fun member => by simpa [shape] using member

private theorem flushing_kept {action : Action} (flushing : .flushScheduledWork ∈ m.calls) (due : Due m)
    (stepped : m.step action = some m') : .flushScheduledWork ∈ m'.calls := by
  cases Machine.step_cases stepped with
  | called | worked | expired | unloading => exact List.mem_append_left _ flushing
  | @ran _ before point after progress s _ shape which advance =>
    have other : point ≠ .flushScheduledWork := by
      rintro rfl
      rcases which with waits | ⟨_, _, _, ready⟩
      · cases waits
      · simp only [Point.waits, Bool.or_eq_false_iff] at ready
        rcases due with pending | running
        · simp [ready] at pending
        · simp [ready] at running
    have elsewhere : .flushScheduledWork ∈ before ++ after := by
      simpa [shape, other.symm] using flushing
    exact mem_replaced.mpr (.inr elsewhere)

theorem Debt.step {action : Action} (debt : Debt m) (orderly : Orderly m) (stepped : m.step action = some m') :
    Debt m' := by
  have deleted := debt.deleted.step orderly stepped
  rcases debt.owed with alive | ⟨flushing, due⟩
  · exact ⟨deleted, .inl (alive.step stepped (orderly.deleted_once debt.deleted))⟩
  · rcases due.step stepped with still | alive
    · exact ⟨deleted, .inr ⟨flushing_kept flushing due stepped, still⟩⟩
    · exact ⟨deleted, .inl alive⟩

/-- Removing the timer before the work has armed it leaves a debt. -/
theorem Debt.violated {action : Action} (busy : ¬ action.Idle m) (stepped : m.step action = some m') : Debt m' := by
  cases action with
  | run index =>
    simp only [Action.Idle, Classical.not_imp, not_not] at busy
    obtain ⟨found, due⟩ := busy
    have flushing : .flushScheduledWork ∈ m'.calls := by
      obtain ⟨_, ran⟩ := Option.ite_none_left_eq_some.mp stepped
      rw [System.run_next found rfl] at ran
      cases ran
      exact List.mem_set (List.getElem?_eq_some_iff.mp found).1 _
    rcases due.step stepped with still | alive
    · exact ⟨.inr (.inl flushing), .inr ⟨flushing, still⟩⟩
    · exact ⟨.inr (.inl flushing), .inl alive⟩
  | _ => exact absurd trivial busy

private theorem Debt.not_clean (debt : Debt m) (gone : m.shared.presence = .gone) (orderly : Orderly m) :
    ¬ Clean m := by
  intro clean
  rcases debt.owed with (pending | running) | ⟨flushing, _⟩
  · rw [clean.timer] at pending
    cases pending
  · rw [clean.idle] at running
    cases running
  · have going := orderly.going flushing rfl
    rw [gone] at going
    cases going

private theorem Deleted.not_live (deleted : Deleted m) (orderly : Orderly m) : m.shared.presence ≠ .live := by
  rcases deleted with gone | flushing | unregistering
  · simp [gone]
  · simp [orderly.going flushing rfl]
  · simp [orderly.going unregistering rfl]

theorem Advance.runs {callback : Callback} (advance : Advance s point progress s') :
    progress.calls.any (Point.runs callback) = false := by
  cases advance <;> rfl

private theorem idle_replaced {before after : List Point} {callback : Callback}
    (shape : m.calls = before ++ point :: after)
    (advance : Advance m.shared point progress s') (idle : m.running callback = false) :
    Machine.running ⟨s', before ++ progress.calls ++ after⟩ callback = false := by
  have none : progress.calls.any (Point.runs callback) = false := advance.runs
  simp only [Machine.running, shape, List.any_append, List.any_cons, Bool.or_eq_false_iff] at idle none ⊢
  tauto

theorem Clean.step {action : Action} (clean : Clean m) (deleted : Deleted m) (orderly : Orderly m)
    (stepped : m.step action = some m') : Clean m' := by
  have away := deleted.not_live orderly
  obtain ⟨work, timer, idle⟩ := clean
  cases Machine.step_cases stepped with
  | called _ _ live | unloading live => exact absurd live away
  | worked pending =>
    rw [work] at pending
    cases pending
  | expired pending =>
    rw [timer] at pending
    cases pending
  | @ran _ before point after progress s _ shape which advance =>
    have running : point ∈ m.calls := by simp [shape]
    have outside := orderly.closed away point running
    have still (callback : Callback) := idle_replaced shape advance (idle callback)
    cases advance with
    | scheduled => cases outside
    | @armed callback =>
      have here : m.running callback = true := List.any_eq_true.mpr ⟨_, running, by simp [Point.runs]⟩
      rw [idle callback] at here
      cases here
    | deleted => exact ⟨work, rfl, still⟩
    | _ => exact ⟨work, timer, still⟩

private theorem Deleted.of_start (deleted : Deleted m') (call : Point)
    (presence : m'.shared.presence = .gone → m.shared.presence = .gone) (calls : m'.calls = m.calls ++ [call])
    (apart : call ≠ .flushScheduledWork ∧ call ≠ .unregister) : Deleted m := by
  simp only [Deleted, calls, List.mem_append, List.mem_singleton] at deleted ⊢
  refine deleted.imp presence (Or.imp ?_ ?_)
  · exact fun member => member.resolve_right apart.1.symm
  · exact fun member => member.resolve_right apart.2.symm

theorem Deleted.earlier {action : Action} (deleted : Deleted m') (stepped : m.step action = some m') :
    Deleted m ∨ ∃ index before after, action = .run index ∧ m.calls[index]? = some .delTimerSync ∧
      m.calls = before ++ .delTimerSync :: after ∧ m.running .whee = false ∧
      m' = ⟨{ m.shared with timerPending := false }, before ++ [.flushScheduledWork] ++ after⟩ := by
  cases Machine.step_cases stepped with
  | @called _ call _ method =>
    refine .inl (deleted.of_start call id rfl ⟨?_, ?_⟩) <;> rintro rfl <;> cases method
  | worked => exact .inl (deleted.of_start (.addTimer .wqFunc) id rfl (by simp))
  | expired => exact .inl (deleted.of_start (.addTimer .whee) id rfl (by simp))
  | unloading => exact .inl (deleted.of_start .delTimerSync (by simp) rfl (by simp))
  | @ran _ before point after progress s _ shape which advance =>
    cases advance with
    | deleted =>
      rcases which with waits | ⟨index, same, found, ready⟩
      · cases waits
      · exact .inr ⟨index, before, after, same, found, shape, ready, rfl⟩
    | flushed => exact .inl (.inr (.inl (by simp [shape])))
    | unregistered => exact .inl (.inr (.inr (by simp [shape])))
    | _ =>
      left
      refine deleted.imp id (Or.imp ?_ ?_) <;> exact fun member => by simpa [shape] using member

/-- With the work idle, nothing is left once the timer has been removed. -/
theorem Quiet.step {action : Action} (quiet : Quiet m) (idle : action.Idle m) (stepped : m.step action = some m') :
    Quiet m' := by
  refine ⟨quiet.toOrderly.step stepped, fun deleted => ?_⟩
  rcases deleted.earlier stepped with before | ⟨index, before, after, rfl, found, shape, handled, rfl⟩
  · exact (quiet.clean before).step before quiet.toOrderly stepped
  · have rest : ¬ Due m := idle found
    simp only [Due, not_or, Bool.not_eq_true] at rest
    refine ⟨rest.1, rfl, fun callback => ?_⟩
    have still (none : m.running callback = false) := idle_replaced shape .deleted none
    cases callback with
    | wqFunc => exact still rest.2
    | whee => exact still handled

/-- When the cleanup has returned, the module leaves nothing behind if and only if the
work was neither pending nor running when `del_timer_sync` removed the timer. -/
theorem clean_iff_idle (actions : List Action) (m : Machine)
    (run : Run Machine.step (fun _ _ => True) loaded actions m) (gone : m.shared.presence = .gone) :
    Clean m ↔ Run Machine.step (Both (fun _ _ => True) Action.Idle) loaded actions m := by
  have initial : Orderly loaded := ⟨rfl, by simp [loaded]⟩
  constructor
  · intro clean
    have settled : Run Machine.step (Both (fun _ _ => True) Action.Idle) loaded actions m ∨ Debt m :=
      run.good_or_debt Orderly Debt initial (fun _ _ _ orderly _ stepped => orderly.step stepped)
        (fun _ _ _ _ _ stepped busy => .violated busy stepped)
        (fun _ _ _ orderly debt _ stepped => debt.step orderly stepped)
    have orderly := run.invariant Orderly initial fun _ _ _ orderly _ stepped => orderly.step stepped
    exact settled.resolve_right fun debt => debt.not_clean gone orderly clean
  · intro guarded
    have start : Quiet loaded := ⟨initial, by simp [Deleted, loaded]⟩
    have quiet := guarded.invariant Quiet start fun _ _ _ quiet both stepped => quiet.step both.2 stepped
    exact quiet.clean (.inl gone)

/-- The work has armed the timer before the module is unloaded. -/
theorem clean_iff_idle_armed : ∃ actions m, Run Machine.step (fun _ _ => True) loaded actions m ∧
    m.shared.presence = .gone ∧ Clean m := by
  have reached : ∃ m : Machine, Run Machine.step (Both (fun _ _ => True) Action.Idle) loaded
      [.write 1, .run 0, .run 0, .run 0, .work, .run 0, .unload, .run 0, .run 0, .run 0] m ∧
      m.shared.presence = .gone := reaches_of_execute (by decide +kernel)
  obtain ⟨m, run, gone⟩ := reached
  have any : Run Machine.step (fun _ _ => True) loaded _ m := run.mono fun _ _ _ => trivial
  exact ⟨_, m, any, gone, (clean_iff_idle _ m any gone).mpr run⟩

/-- The work is still queued when the module is unloaded. -/
theorem armed_after_unload_run : ¬ ∀ (actions : List Action) (m : Machine),
    Run Machine.step (fun _ _ => True) loaded actions m → m.shared.presence = .gone → Clean m := by
  intro claim
  have reached : ∃ m : Machine, Run Machine.step (fun _ _ => True) loaded
      [.write 1, .run 0, .run 0, .run 0, .unload, .run 0, .work, .run 1, .run 0, .run 0] m ∧
      m.shared.presence = .gone ∧ m.shared.timerPending = true := reaches_of_execute (by decide +kernel)
  obtain ⟨m, run, gone, pending⟩ := reached
  have removed := (claim _ m run gone).timer
  rw [pending] at removed
  cases removed

end DeviceDrivers.SlpyWq
