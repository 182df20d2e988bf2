import DeviceDrivers.SlpyProc.Waiting
import DeviceDrivers.Library.WakeUps
import DeviceDrivers.Proofs.SlpyProcControl

/-! The sleepy device over its wait queue. Whatever was shown of the waits as single
steps holds of it, and no reader sleeps through a wake-up. -/

namespace DeviceDrivers.SlpyProc
open Runs Interleavings WaitQueues Refinements Kernel

variable {s s' : State} {point : Point} {rest : Progress Point}

def Method.OfDevice : Method → Prop
  | .procWrite _ _ _ => False
  | _ => True

theorem step_cases (stepped : program.step s point = some (rest, s')) : Advance s point rest s' :=
  Point.step_advance stepped

private theorem interrupt_same (s : State) (point : Point) : program.interrupt s point = point.interrupt s := by
  cases point <;> rfl

/-- One step of the driver with its waits in one piece is a step of the device or of the proc entry. -/
def counterpart : WaitQueues.Action Method → Operation
  | .enter .read => .device .read
  | .enter (.write count) => .device (.write count)
  | .enter (.procWrite stack user count) => .procWrite stack user count
  | .signal index => .device (.signal index)
  | .run index => .device (.run index)

private theorem atomic_operates {m m' : Machine} {action : WaitQueues.Action Method}
    (stepped : program.atomic m action = some m') : m.operate (counterpart action) = some m' := by
  cases action with
  | enter method =>
    cases method with
    | read | write => exact stepped
    | procWrite stack user count =>
      cases stepped
      simp [counterpart, Machine.operate]
  | signal index =>
    change m.run program.interrupt index = some m' at stepped
    rw [show program.interrupt = fun s point => point.interrupt s from funext₂ interrupt_same] at stepped
    exact stepped
  | run index => exact stepped

theorem Binary.atomic {m m' : Machine} {action : WaitQueues.Action Method} (binary : Binary m)
    (device : only Method.OfDevice m action) (stepped : program.atomic m action = some m') : Binary m' := by
  have operated := atomic_operates stepped
  cases action with
  | enter method =>
    cases method with
    | procWrite => exact device.elim
    | read => exact binary.step (show m.step .read = some m' from operated)
    | write count => exact binary.step (show m.step (.write count) = some m' from operated)
  | signal index => exact binary.step (show m.step (.signal index) = some m' from operated)
  | run index => exact binary.step (show m.step (.run index) = some m' from operated)

private theorem binary_loaded {wakeOne : Int} (on : wakeOne ≠ 0) : Binary (loaded wakeOne) := by
  refine ⟨on, ⟨.nil, ?_, ?_, ?_, ?_⟩, ?_, ?_⟩ <;> simp [loaded]

/-- The calls that an operation of the driver with its waits in one piece makes. -/
def Operation.methods : Operation → List Method
  | .device .read => [.read]
  | .device (.write count) => [.write count]
  | .procWrite stack user count => [.procWrite stack user count]
  | _ => []

private theorem counterpart_methods (action : WaitQueues.Action Method) :
    (counterpart action).methods = entered action := by
  cases action with
  | enter method => cases method <;> rfl
  | signal | run => rfl

/-- What the driver does over its wait queue, it does with waits of one step as well, called
in the same order. So with `wake_one` set and the proc entry left alone, its reads are bounded by its
writes just as theirs. -/
theorem queue_refined (wakeOne : Int) (actions : List (WaitQueues.Action Method)) (m : Program.Machine State Point)
    (run : Run program.machine free (WaitQueues.loaded { wakeOne := wakeOne }) actions m) :
    (∃ operations, Run Machine.operate (fun _ _ => True) (loaded wakeOne) operations (projected m) ∧
        operations.flatMap Operation.methods = actions.flatMap entered) ∧
      (wakeOne ≠ 0 → (∀ stack user count, .enter (.procWrite stack user count) ∉ actions) → Consumed m.shared.driver) := by
  constructor
  · have permitted : Run program.machine (only fun _ => True) (WaitQueues.loaded { wakeOne := wakeOne }) actions m := by
      apply run.mono
      intro _ action _
      cases action <;> trivial
    obtain ⟨answer, _, atomic, same, rfl⟩ := (simulates program fun _ => True).run rfl permitted
    refine ⟨answer.map counterpart, ?_, by simpa only [List.flatMap_map, counterpart_methods] using same⟩
    exact run_mapped id counterpart atomic fun _ _ _ _ stepped => ⟨trivial, atomic_operates stepped⟩
  · intro on alone
    have device : ∀ action ∈ actions, only Method.OfDevice () action := by
      intro action member
      cases action with
      | enter method =>
        cases method with
        | procWrite stack user count => exact absurd member (alone stack user count)
        | read | write => trivial
      | signal | run => trivial
    have permitted : Run program.machine (only Method.OfDevice) (WaitQueues.loaded { wakeOne := wakeOne }) actions m := by
      apply (run.restrict device).mono
      intro _ action met
      cases action <;> exact met.2
    obtain ⟨answer, _, atomic, _, rfl⟩ := (simulates program Method.OfDevice).run rfl permitted
    have binary := atomic.invariant Binary (binary_loaded on) fun _ _ _ kept met stepped => kept.atomic met stepped
    exact binary.consumed

theorem diligent : Diligent program program.wakes := by
  refine ⟨?_, ?_, ?_⟩
  · intro point wakes
    cases point with
    | wakeUp => rfl
    | _ => cases wakes
  · intro s method calls s' entered ready
    cases method with
    | read | write => cases entered; exact ready
    | procWrite stack user count =>
      cases entered
      rcases procWrite_cases stack s user count with ⟨-, commanded⟩ | ⟨same, -⟩
      · generalize (writeWakeOne stack s user count).value.2 = lowered at commanded ready
        cases commanded with
        | zero | one => exact ready
        | two => cases ready
      · rwa [same] at ready
  · intro s point rest s' stepped working due
    cases step_cases stepped with
    | raised => exact ⟨_, List.mem_singleton_self _, rfl⟩
    | woken => cases working
    | reset =>
      rcases due with wakes | ⟨_, ready⟩
      · cases wakes
      · cases ready
    | passed | interrupted | kept | tested =>
      rcases due with wakes | ⟨unready, ready⟩
      · cases wakes
      · exact absurd ready (Bool.eq_false_iff.mp unready)

theorem enabled : program.Enabled := by
  intro s point free
  cases point with
  | wait => exact Option.isSome_iff_exists.mpr ⟨_, if_pos (of_decide_eq_true (free rfl))⟩
  | testWakeOne event =>
    change (Point.step s (.testWakeOne event)).isSome = true
    rw [Point.step]
    split <;> rfl
  | _ => rfl

/-- While data is present, whoever sleeps on the queue has a writer that is about to
wake it, and the calls in progress can only stop by having returned. Where they stop
otherwise, all of them are reads asleep on the queue. -/
theorem sleepers_attended (wakeOne : Int) (actions : List (WaitQueues.Action Method)) (m : Program.Machine State Point)
    (run : Run program.machine free (WaitQueues.loaded { wakeOne := wakeOne }) actions m) :
    (m.shared.driver.dataPresent = 1 → (∃ thread ∈ m.calls, thread.asleep m.shared.queue = true) →
        ∃ writer ∈ m.calls, ∃ count, writer.calls = [.wakeUp count]) ∧
      ((∀ index, program.machine m (.run index) = none) →
        (∀ thread ∈ m.calls, thread.asleep m.shared.queue = true) ∧ (m.shared.driver.dataPresent = 1 → m.calls = [])) := by
  have attended := attended_run diligent run
  refine ⟨fun present sleeper => ?_, fun blocked => ?_⟩
  · obtain ⟨⟨stage, signalled⟩, member, owes⟩ := attended.attended (decide_eq_true present) sleeper
    refine ⟨_, member, ?_⟩
    have waking (point : Point) (wakes : program.wakes point = true) : ∃ count, point = .wakeUp count := by
      cases point with
      | wakeUp count => exact ⟨count, rfl⟩
      | _ => cases wakes
    cases stage with
    | active call =>
      obtain ⟨count, rfl⟩ := waking call owes
      exact ⟨count, rfl⟩
    | finish rest entry =>
      cases rest with
      | next call =>
        obtain ⟨count, rfl⟩ := waking call (by simpa [Thread.owes] using owes)
        exact ⟨count, rfl⟩
      | returned value => cases owes
    | _ => cases owes
  · obtain ⟨asleep, none_left⟩ := stopped enabled attended blocked
    exact ⟨asleep, fun present => none_left (decide_eq_true present)⟩

/-- Two readers asleep, one writer between its assignment and its wake-up, and a signal for a reader. -/
theorem sleepers_attended_two : ∃ actions m,
    Run program.machine free (WaitQueues.loaded { wakeOne := 1 }) actions m ∧
      m.calls.countP (·.asleep m.shared.queue) = 2 ∧ ∃ writer ∈ m.calls, ∃ count, writer.calls = [.wakeUp count] := by
  have reached : ∃ m, Run program.machine free (WaitQueues.loaded { wakeOne := 1 })
      [.enter .read, .enter .read, .run 0, .run 0, .run 0, .run 1, .run 1, .run 1, .enter (.write 3), .run 2] m ∧
      m.shared.driver.dataPresent = 1 ∧ m.calls.countP (·.asleep m.shared.queue) = 2 :=
    reaches_of_execute (by decide +kernel)
  obtain ⟨m, run, present, asleep⟩ := reached
  have sleeper : 0 < m.calls.countP (·.asleep m.shared.queue) := by omega
  exact ⟨_, m, run, asleep, (sleepers_attended 1 _ m run).1 present (List.countP_pos_iff.mp sleeper)⟩

/-- One write wakes two sleeping readers, of which one finds the flag lowered again. -/
theorem queue_refined_two : ∃ actions m,
    Run program.machine free (WaitQueues.loaded { wakeOne := 1 }) actions m ∧ m.shared.driver.completed = 1 ∧
      m.calls.countP (·.asleep m.shared.queue) = 1 ∧ Consumed m.shared.driver := by
  have reached : ∃ m, Run program.machine free (WaitQueues.loaded { wakeOne := 1 })
      ([.enter .read, .enter .read, .run 0, .run 0, .run 0, .run 1, .run 1, .run 1, .enter (.write 3), .run 2, .run 2] ++
        [.run 0, .run 0, .run 0, .run 0, .run 0, .run 0, .run 0, .run 0, .run 0]) m ∧
      m.shared.driver.completed = 1 ∧ m.calls.countP (·.asleep m.shared.queue) = 1 :=
    reaches_of_execute (by decide +kernel)
  obtain ⟨m, run, completed, asleep⟩ := reached
  refine ⟨_, m, run, completed, asleep, (queue_refined 1 _ m run).2 (by decide) ?_⟩
  simp

end DeviceDrivers.SlpyProc
