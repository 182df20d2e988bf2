import DeviceDrivers.KernelThreads.Drivers

/-! Unloading a module that keeps a kernel thread. `my_exit` returns once the thread has
left the module, which takes a bounded number of steps, but may take the timeout too. -/

namespace DeviceDrivers.KernelThreads
open Runs

variable {driver : Driver} {s s' : State} {action : Action}

inductive Stepped (driver : Driver) (s : State) : Action → State → Prop where
  | started (here : s.thread = .start) : Stepped driver s .thread { s with thread := if s.stop then .leave else .print }
  | printed (here : s.thread = .print) :
      Stepped driver s .thread { s with thread := .setState, messages := s.messages + 1 }
  | dozed (here : s.thread = .setState) : Stepped driver s .thread { s with thread := .armTimer, task := .interruptible }
  | armed (here : s.thread = .armTimer) : Stepped driver s .thread { s with thread := .sleep, timer := true }
  | woke (here : s.thread = .sleep) (up : s.task = .running) : Stepped driver s .thread { s with thread := .delTimer }
  | disarmed (here : s.thread = .delTimer) :
      Stepped driver s .thread { s with thread := if driver = .kt then .schedule else .shouldStop, timer := false }
  | scheduled (here : s.thread = .schedule) (up : s.task = .running) :
      Stepped driver s .thread { s with thread := .shouldStop }
  | tested (here : s.thread = .shouldStop) :
      Stepped driver s .thread { s with thread := if s.stop then .leave else .print }
  | left (here : s.thread = .leave) : Stepped driver s .thread { s with thread := .exited }
  | unloaded (idle : s.exit = .notCalled) : Stepped driver s .unload { s with exit := .setStop }
  | told (calling : s.exit = .setStop) : Stepped driver s .exit { s with exit := .wakeUp, stop := true }
  | woken (calling : s.exit = .wakeUp) : Stepped driver s .exit { s with exit := .wait, task := .running }
  | returned (calling : s.exit = .wait) (gone : s.thread = .exited) : Stepped driver s .exit { s with exit := .returned }
  | expired (pending : s.timer = true) : Stepped driver s .expire { s with timer := false, task := .running }

theorem step_cases (stepped : s.step driver action = some s') : Stepped driver s action s' := by
  cases action with
  | thread =>
    change mySenderThread driver s = some s' at stepped
    rw [mySenderThread] at stepped
    cases here : s.thread with
    | exited =>
      rw [here] at stepped
      cases stepped
    | sleep =>
      rw [here] at stepped
      obtain ⟨up, same⟩ := Option.ite_none_right_eq_some.mp stepped
      cases same
      exact .woke here up
    | schedule =>
      rw [here] at stepped
      obtain ⟨up, same⟩ := Option.ite_none_right_eq_some.mp stepped
      cases same
      exact .scheduled here up
    | shouldStop =>
      rw [here] at stepped
      cases stepped
      exact .tested here
    | _ =>
      rw [here] at stepped
      cases stepped
      constructor
      exact here
  | unload =>
    obtain ⟨idle, same⟩ := Option.ite_none_right_eq_some.mp stepped
    cases same
    exact .unloaded idle
  | exit =>
    change myExit s = some s' at stepped
    rw [myExit] at stepped
    cases calling : s.exit with
    | notCalled | returned =>
      rw [calling] at stepped
      cases stepped
    | setStop =>
      rw [calling] at stepped
      cases stepped
      exact .told calling
    | wakeUp =>
      rw [calling] at stepped
      cases stepped
      exact .woken calling
    | wait =>
      rw [calling] at stepped
      obtain ⟨gone, same⟩ := Option.ite_none_right_eq_some.mp stepped
      cases same
      exact .returned calling gone
  | expire =>
    obtain ⟨pending, same⟩ := Option.ite_none_right_eq_some.mp stepped
    cases same
    exact .expired pending

/-- A thread that has gone to sleep has its timer running. -/
structure Valid (s : State) : Prop where
  told : s.stop = true ↔ s.exit = .wakeUp ∨ s.exit = .wait ∨ s.exit = .returned
  gone : s.exit = .returned → s.thread = .exited
  pending : s.timer = true → s.thread = .sleep ∨ s.thread = .delTimer
  dozing : s.task = .interruptible → s.thread = .armTimer ∨ s.thread = .sleep
  timed : s.thread = .sleep → s.task = .interruptible → s.timer = true

theorem Valid.step (valid : Valid s) (stepped : Stepped driver s action s') : Valid s' := by
  obtain ⟨told, gone, pending, dozing, timed⟩ := valid
  cases stepped with
  | started here | tested here =>
    refine ⟨told, ?_, ?_, ?_, ?_⟩
    · simp [here] at gone
      simp [gone]
    · simp [here] at pending
      simp [pending]
    · simp [here] at dozing
      simp [dozing]
    · change (if s.stop then ThreadPoint.leave else .print) = .sleep → _
      split <;> simp
  | _ => constructor <;> simp_all

private theorem valid_run {start : State} {actions : List Action} (loaded : myInit true = some start)
    (run : Run (State.step driver) (fun _ _ => True) start actions s) : Valid s := by
  cases loaded
  apply run.invariant Valid
  · constructor <;> simp
  · exact fun _ _ _ valid _ stepped => valid.step (step_cases stepped)

def ThreadPoint.rank : ThreadPoint → Nat
  | .print => 9
  | .setState => 8
  | .armTimer => 7
  | .sleep => 5
  | .delTimer => 4
  | .schedule => 3
  | .start | .shouldStop => 2
  | .leave => 1
  | .exited => 0

def Exit.rank : Exit → Nat
  | .notCalled => 4
  | .setStop => 3
  | .wakeUp => 2
  | .wait => 1
  | .returned => 0

/-- The steps left once the thread has been told to stop, its timer's expiry counted. -/
def rank (s : State) : Nat := s.thread.rank + s.exit.rank + s.timer.toNat

/-- Another message comes only from a thread that is past its test. -/
def budget (s : State) : Nat := s.messages + if s.thread = .print then 1 else 0

private theorem Stepped.stopping (stepped : Stepped driver s action s') (valid : Valid s) (stop : s.stop = true) :
    s'.stop = true ∧ rank s' < rank s ∧ budget s' ≤ budget s := by
  have exit := valid.told.mp stop
  have pending := valid.pending
  cases stepped with
  | started here | tested here => simp [rank, budget, here, stop, ThreadPoint.rank]
  | printed here | dozed here | left here => simp [rank, budget, here, stop, ThreadPoint.rank]
  | armed here =>
    have off : s.timer = false := by simpa [here] using pending
    simp [rank, budget, here, stop, off, ThreadPoint.rank]
    omega
  | woke here | scheduled here => simp [rank, budget, here, stop, ThreadPoint.rank]
  | disarmed here =>
    refine ⟨stop, ?_, ?_⟩
    · cases driver <;> simp [rank, here, ThreadPoint.rank] <;> omega
    · cases driver <;> simp [budget, here]
  | unloaded idle => simp [idle] at exit
  | told calling => simp [calling] at exit
  | woken calling | returned calling => simp [rank, budget, calling, stop, Exit.rank]
  | expired on => simp [rank, budget, stop, on]

private theorem thread_goes_on (valid : Valid s) (here : s.thread ≠ .exited)
    (up : s.thread = .sleep → s.task = .running) : (s.step driver .thread).isSome = true := by
  change (mySenderThread driver s).isSome = true
  rw [mySenderThread]
  cases point : s.thread with
  | sleep => simp [up point]
  | schedule =>
    cases task : s.task with
    | running => rfl
    | interruptible => simpa [point] using valid.dozing task
  | exited => exact absurd point here
  | _ => rfl

theorem goes_on (valid : Valid s) (stop : s.stop = true) :
    s.exit = .returned ∨ ∃ action, (s.step driver action).isSome = true := by
  by_cases gone : s.thread = .exited
  · rcases valid.told.mp stop with calling | calling | done
    · exact .inr ⟨.exit, by simp [State.step, myExit, calling]⟩
    · exact .inr ⟨.exit, by simp [State.step, myExit, calling, gone]⟩
    · exact .inl done
  · by_cases asleep : s.thread = .sleep ∧ s.task = .interruptible
    · exact .inr ⟨.expire, by simp [State.step, valid.timed asleep.1 asleep.2]⟩
    · refine .inr ⟨.thread, thread_goes_on valid gone fun here => ?_⟩
      cases task : s.task with
      | running => rfl
      | interruptible => exact absurd ⟨here, task⟩ asleep

/-- The wake-up found the thread past its test and not yet dozing, and was lost. -/
structure Missed (s : State) : Prop where
  exit : s.exit = .wait
  thread : s.thread = .print ∨ s.thread = .setState ∨
    (s.thread = .armTimer ∨ s.thread = .sleep) ∧ s.task = .interruptible

/-- Nothing that the thread waits for is left but the end of its function. -/
structure Roused (s : State) : Prop where
  valid : Valid s
  exit : s.exit = .wait ∨ s.exit = .returned
  thread : s.thread ≠ .print ∧ s.thread ≠ .setState
  task : s.task = .running

theorem Missed.step (missed : Missed s) (stepped : Stepped driver s action s') (untimed : action ≠ .expire) :
    Missed s' := by
  obtain ⟨exit, thread⟩ := missed
  cases stepped with
  | printed here => exact ⟨exit, .inr (.inl rfl)⟩
  | dozed here => exact ⟨exit, .inr (.inr ⟨.inl rfl, rfl⟩)⟩
  | armed here =>
    simp [here] at thread
    exact ⟨exit, .inr (.inr ⟨.inr rfl, thread⟩)⟩
  | woke here up => simp [here, up] at thread
  | expired => exact absurd rfl untimed
  | started here | disarmed here | scheduled here | tested here | left here => simp [here] at thread
  | unloaded calling | told calling | woken calling => simp [calling] at exit
  | returned _ gone => simp [gone] at thread

theorem Roused.step (roused : Roused s) (stepped : Stepped driver s action s') (untimed : action ≠ .expire) :
    Roused s' := by
  obtain ⟨valid, exit, thread, task⟩ := roused
  have stop : s.stop = true := valid.told.mpr (.inr exit)
  have still := valid.step stepped
  cases stepped with
  | started here | tested here => exact ⟨still, exit, by simp [stop], task⟩
  | printed here => exact absurd here thread.1
  | dozed here => exact absurd here thread.2
  | armed here | woke here | scheduled here | left here => exact ⟨still, exit, by simp, task⟩
  | disarmed here => exact ⟨still, exit, by cases driver <;> simp, task⟩
  | unloaded calling | told calling | woken calling => simp [calling] at exit
  | returned calling => exact ⟨still, .inr rfl, thread, task⟩
  | expired => exact absurd rfl untimed

/-- Unloading can do without the timeout unless the wake-up comes while the thread is
past its test and has not set its state yet. -/
theorem timeout_needed_iff (driver : Driver) (start : State) (loaded : myInit true = some start) (actions : List Action)
    (s s' : State) (run : Run (State.step driver) (fun _ _ => True) start actions s) (waking : s.exit = .wakeUp)
    (woken : s.step driver .exit = some s') :
    (∃ more final, Run (State.step driver) (fun _ action => action ≠ .expire) s' more final ∧ final.exit = .returned) ↔
      s.thread ≠ .print ∧ s.thread ≠ .setState := by
  have valid := valid_run loaded run
  obtain rfl : { s with exit := .wait, task := .running } = s' := by
    simpa [State.step, myExit, waking] using woken
  have after := valid.step (step_cases woken)
  constructor
  · rintro ⟨more, final, further, done⟩
    by_contra lost
    have missed : Missed { s with exit := .wait, task := .running } := by
      refine ⟨rfl, ?_⟩
      by_cases here : s.thread = .print
      · exact .inl here
      · exact .inr (.inl (by_contra fun elsewhere => lost ⟨here, elsewhere⟩))
    have still := further.invariant Missed missed fun _ _ _ missed untimed stepped => missed.step (step_cases stepped) untimed
    simp [still.exit] at done
  · intro caught
    have roused : Roused { s with exit := .wait, task := .running } := ⟨after, .inl rfl, caught, rfl⟩
    apply Run.completes Roused (fun final => final.exit = .returned) rank roused
    · intro state action next roused untimed stepped
      have stop := roused.valid.told.mpr (.inr roused.exit)
      exact ⟨roused.step (step_cases stepped) untimed, ((step_cases stepped).stopping roused.valid stop).2.1⟩
    · intro state roused
      rcases roused.exit with calling | done
      · refine .inr ?_
        by_cases gone : state.thread = .exited
        · have returns : (state.step driver .exit).isSome = true := by simp [State.step, myExit, calling, gone]
          obtain ⟨next, stepped⟩ := Option.isSome_iff_exists.mp returns
          exact ⟨.exit, next, by simp, stepped⟩
        · obtain ⟨next, stepped⟩ := Option.isSome_iff_exists.mp
            (@thread_goes_on driver state roused.valid gone fun _ => roused.task)
          exact ⟨.thread, next, by simp, stepped⟩
      · exact .inl done

/-- In the same place the wake-up is lost, and only the timeout lets the module go. -/
theorem timeout_needed_iff_late :
    ∃ s s', Run (State.step .kt) (fun _ _ => True) {} [.thread, .thread, .unload, .exit] s ∧
    s.step .kt .exit = some s' ∧ ¬ ∃ more final,
      Run (State.step .kt) (fun _ action => action ≠ .expire) s' more final ∧ final.exit = .returned := by
  have reached : ∃ s, Run (State.step .kt) (fun _ _ => True) {} [.thread, .thread, .unload, .exit] s ∧
      s.exit = .wakeUp ∧ s.thread = .setState := reaches_of_execute (by decide)
  obtain ⟨s, run, waking, late⟩ := reached
  have woken : s.step .kt .exit = some { s with exit := .wait, task := .running } := by
    simp [State.step, myExit, waking]
  refine ⟨s, _, run, woken, fun free => ?_⟩
  exact ((timeout_needed_iff .kt {} rfl _ s _ run waking woken).mp free).2 late

end DeviceDrivers.KernelThreads
