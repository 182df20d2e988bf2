import DeviceDrivers.BottomHalves.Drivers
import DeviceDrivers.Library.Requests

/-! What is left of the three modules when their exit functions return. No handler is, but
its tasklet may still be due, and so may the end of the timer's function. -/

namespace DeviceDrivers.BottomHalves
open Runs Requests PortIo

variable {demo : Demo} {s s' : State} {action : Action}

inductive Stepped (demo : Demo) (s : State) : Action → State → Prop where
  | interrupted (irq : s.irq = true) (idle : s.handler = none) :
      Stepped demo s .interrupt { s with handler := some demo.handler }
  | counted {rest} (next : s.handler = some (.count :: rest)) :
      Stepped demo s (.isr .count) { s with counter := s.counter + 1, handler := some rest }
  | scheduled {rest} (next : s.handler = some (.taskletSchedule :: rest)) :
      Stepped demo s (.isr .taskletSchedule) { s with scheduled := true, handler := some rest }
  | handled (last : s.handler = some []) : Stepped demo s .handled { s with handler := none }
  | started (due : s.scheduled = true) : Stepped demo s .startTasklet { s with scheduled := false, tasklet := true }
  | ended : Stepped demo s .taskletEnd { s with tasklet := false }
  | expired (pending : s.timerPending = true) : Stepped demo s .expire { s with timerPending := false, timer := true }
  | timerEnded : Stepped demo s .timerEnd { s with timer := false }
  | unloaded (live : s.exit = .notCalled) : Stepped demo s .unload { s with exit := .running demo.exit }
  | freed {rest} (next : s.exit = .running (.freeIrq :: rest)) :
      Stepped demo s .exit { s with irq := false, exit := .running (.synchronizeIrq :: rest) }
  | waited {rest} (next : s.exit = .running (.synchronizeIrq :: rest)) (idle : s.handler = none) :
      Stepped demo s .exit { s with exit := .running rest }
  | deleted {rest} (next : s.exit = .running (.delTimer :: rest)) :
      Stepped demo s .exit { s with timerPending := false, exit := .running rest }
  | passed {statement rest} (next : s.exit = .running (statement :: rest))
      (other : statement = .unregisterChrdev ∨ statement = .outb ∨ statement = .releaseRegion) :
      Stepped demo s .exit { s with exit := .running rest }
  | returned (last : s.exit = .running []) : Stepped demo s .exit { s with exit := .returned }

private theorem exitStep_cases {statement : ExitStatement} {rest : List ExitStatement}
    (next : s.exit = .running (statement :: rest)) (stepped : s.exitStep statement rest = some s') :
    Stepped demo s .exit s' := by
  cases statement with
  | freeIrq => cases stepped; exact .freed next
  | synchronizeIrq =>
    obtain ⟨idle, same⟩ := Option.ite_none_right_eq_some.mp stepped
    cases same
    exact .waited next idle
  | delTimer => cases stepped; exact .deleted next
  | unregisterChrdev | outb | releaseRegion => cases stepped; exact .passed next (by simp)

theorem Demo.step_cases (stepped : demo.step s action = some s') : Stepped demo s action s' := by
  obtain ⟨-, stepped⟩ := Option.ite_none_left_eq_some.mp stepped
  cases action with
  | interrupt =>
    obtain ⟨⟨irq, idle⟩, same⟩ := Option.ite_none_right_eq_some.mp stepped
    cases same
    exact .interrupted irq idle
  | isr statement =>
    dsimp only at stepped
    split at stepped
    next first rest next =>
      obtain ⟨rfl, same⟩ := Option.ite_none_right_eq_some.mp stepped
      cases same
      cases statement with
      | count => exact .counted next
      | taskletSchedule => exact .scheduled next
    next => cases stepped
  | handled =>
    obtain ⟨last, same⟩ := Option.ite_none_right_eq_some.mp stepped
    cases same
    exact .handled last
  | startTasklet =>
    obtain ⟨⟨due, -⟩, same⟩ := Option.ite_none_right_eq_some.mp stepped
    cases same
    exact .started due
  | taskletEnd =>
    obtain ⟨-, same⟩ := Option.ite_none_right_eq_some.mp stepped
    cases same
    exact .ended
  | expire =>
    obtain ⟨pending, same⟩ := Option.ite_none_right_eq_some.mp stepped
    cases same
    exact .expired pending
  | timerEnd =>
    obtain ⟨-, same⟩ := Option.ite_none_right_eq_some.mp stepped
    cases same
    exact .timerEnded
  | unload =>
    obtain ⟨live, same⟩ := Option.ite_none_right_eq_some.mp stepped
    cases same
    exact .unloaded live
  | exit =>
    dsimp only at stepped
    split at stepped
    next statement rest next => exact exitStep_cases next stepped
    next last => cases stepped; exact .returned last
    next => cases stepped

def State.remaining (demo : Demo) (s : State) : List ExitStatement :=
  match s.exit with
  | .notCalled => demo.exit
  | .running rest => rest
  | .returned => []

/-- What the kernel still holds for the module is given back by a statement that remains. -/
structure Guarded (demo : Demo) (s : State) : Prop where
  timer : s.timerPending = true → .delTimer ∈ s.remaining demo
  irq : s.irq = true → .freeIrq ∈ s.remaining demo
  handler : s.handler ≠ none → s.irq = true ∨ .synchronizeIrq ∈ s.remaining demo

private theorem remaining_running {rest : List ExitStatement} (next : s.exit = .running rest) :
    s.remaining demo = rest := by
  rw [State.remaining, next]

theorem Guarded.step (guarded : Guarded demo s) (stepped : demo.step s action = some s') : Guarded demo s' := by
  obtain ⟨timer, irq, handler⟩ := guarded
  cases Demo.step_cases stepped with
  | interrupted on => exact ⟨timer, irq, fun _ => .inl on⟩
  | counted next | scheduled next => exact ⟨timer, irq, fun _ => handler (by simp [next])⟩
  | handled => exact ⟨timer, irq, fun running => absurd rfl running⟩
  | started | ended | timerEnded => exact ⟨timer, irq, handler⟩
  | expired => exact ⟨nofun, irq, handler⟩
  | unloaded live =>
    have same : s.remaining demo = demo.exit := by rw [State.remaining, live]
    rw [same] at timer irq handler
    exact ⟨timer, irq, handler⟩
  | freed next =>
    rw [remaining_running next] at timer
    refine ⟨fun pending => ?_, nofun, fun _ => .inr (List.mem_cons_self ..)⟩
    exact List.mem_cons_of_mem _ (List.mem_of_ne_of_mem (by simp) (timer pending))
  | waited next idle =>
    rw [remaining_running next] at timer irq
    refine ⟨fun pending => ?_, fun on => ?_, fun running => absurd idle running⟩
    · exact List.mem_of_ne_of_mem (by simp) (timer pending)
    · exact List.mem_of_ne_of_mem (by simp) (irq on)
  | deleted next =>
    rw [remaining_running next] at irq handler
    refine ⟨nofun, fun on => ?_, fun running => (handler running).imp id ?_⟩
    · exact List.mem_of_ne_of_mem (by simp) (irq on)
    · exact List.mem_of_ne_of_mem (by simp)
  | @passed statement rest next other =>
    rw [remaining_running next] at timer irq handler
    have apart : .delTimer ≠ statement ∧ .freeIrq ≠ statement ∧ .synchronizeIrq ≠ statement := by
      rcases other with rfl | rfl | rfl <;> decide
    refine ⟨fun pending => ?_, fun on => ?_, fun running => (handler running).imp id ?_⟩
    · exact List.mem_of_ne_of_mem apart.1 (timer pending)
    · exact List.mem_of_ne_of_mem apart.2.1 (irq on)
    · exact List.mem_of_ne_of_mem apart.2.2
  | returned last =>
    rw [remaining_running last] at timer irq handler
    exact ⟨timer, irq, handler⟩

structure Loaded (demo : Demo) (s : State) : Prop extends Guarded demo s where
  unscheduled : s.scheduled = false
  tasklet : s.tasklet = false
  untimed : s.timer = false

structure Clean (s : State) : Prop where
  unscheduled : s.scheduled = false
  tasklet : s.tasklet = false
  removed : s.timerPending = false
  untimed : s.timer = false

section Unload
variable {outcomes : Outcomes} {start : State} {actions : List Action}

end Unload

end DeviceDrivers.BottomHalves
