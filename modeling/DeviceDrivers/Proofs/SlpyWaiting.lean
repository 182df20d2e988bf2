import DeviceDrivers.Slpy.Driver
import DeviceDrivers.Library.WakeUps

/-! Readers of the sleepy device return after the first write and not before it. -/

namespace DeviceDrivers.Slpy
open Runs Interleavings WaitQueues

variable {s s' : State} {point : Point} {rest : Progress Point} {m m' : Program.Machine State Point}

inductive Advance (s : State) : Point → Progress Point → State → Prop where
  | empty (absent : s.dataPresent = 0) : Advance s .test (.next .wait) s
  | present (present : s.dataPresent ≠ 0) : Advance s .test (.returned 0) s
  | passed (present : s.dataPresent = 1) : Advance s .wait (.returned 0) s
  | raised {len} : Advance s (.setPresent len) (.next (.wakeUp len)) { s with dataPresent := 1 }
  | woken {len} : Advance s (.wakeUp len) (.returned len) s

theorem step_cases (stepped : program.step s point = some (rest, s')) : Advance s point rest s' := by
  change point.step s = some (rest, s') at stepped
  cases point with
  | test =>
    by_cases absent : s.dataPresent = 0
    · rw [Point.step, if_pos absent] at stepped
      cases stepped
      exact .empty absent
    · rw [Point.step, if_neg absent] at stepped
      cases stepped
      exact .present absent
  | wait =>
    obtain ⟨present, same⟩ := Option.ite_none_right_eq_some.mp stepped
    cases same
    exact .passed present
  | setPresent len => cases stepped; exact .raised
  | wakeUp len => cases stepped; exact .woken

def Point.rank : Point → Nat
  | .test | .setPresent _ => 1
  | .wait | .wakeUp _ => 0

theorem diligent : Diligent program program.wakes := by
  refine ⟨?_, ?_, ?_⟩
  · intro point wakes
    cases point with
    | wakeUp len => rfl
    | _ => cases wakes
  · rintro s (_ | _) calls s' entered ready
    all_goals
      cases entered
      exact ready
  · rintro s point rest s' stepped working due
    cases step_cases stepped with
    | raised => exact ⟨_, List.mem_singleton_self _, rfl⟩
    | woken => cases working
    | empty | present | passed =>
      rcases due with wakes | ⟨unready, ready⟩
      · cases wakes
      · exact absurd ready (Bool.eq_false_iff.mp unready)

theorem latched : Latched program Point.rank := by
  refine ⟨?_, ?_⟩
  · intro s point rest s' ready stepped
    cases step_cases stepped with
    | raised => rfl
    | _ => exact ready
  · intro s point rest s' ready stepped
    cases step_cases stepped with
    | empty absent => exact absurd absent (by simp [of_decide_eq_true ready])
    | raised => simp [Point.rank]
    | _ => simp

theorem enabled : program.Enabled := by
  rintro s (_ | _ | _ | _) free
  case wait => exact (Option.isSome_iff_exists).mpr ⟨_, if_pos (of_decide_eq_true (free rfl))⟩
  all_goals rfl

def Reading (thread : Thread Point) : Prop :=
  match thread.stage with
  | .active call | .prepare call _ | .test call _ | .schedule call _ => call = .test ∨ call = .wait
  | .finish _ _ => False

def Raising (thread : Thread Point) : Prop := ∃ len, thread.stage = .active (.setPresent len)

structure Unwritten (reads : Nat) (m : Program.Machine State Point) : Prop where
  absent : m.shared.driver.dataPresent = 0
  reading : ∀ thread ∈ m.calls, Reading thread
  all : m.calls.length = reads

def Written (m : Program.Machine State Point) : Prop :=
  m.shared.driver.dataPresent = 1 ∨ ∃ thread ∈ m.calls, Raising thread

private theorem reading_step {q q' : Queued State} {thread : Thread Point} {progress : Progress (Thread Point)}
    (advance : WaitQueues.Advance program q thread progress q') (absent : q.driver.dataPresent = 0)
    (reading : Reading thread) : q'.driver.dataPresent = 0 ∧ ∃ next, progress = .next next ∧ Reading next := by
  have unready : program.ready q.driver ≠ true := by simp [program, absent]
  cases advance with
  | @acted call signalled rest driver free stepped =>
    rcases reading with rfl | rfl
    · cases step_cases stepped with
      | empty => exact ⟨absent, _, rfl, .inr rfl⟩
      | present present => exact absurd absent present
    · exact absurd (free rfl) unready
  | passed ready => exact absurd ready unready
  | interrupted _ ends => cases ends
  | finished => exact reading.elim
  | missed | prepared | slept | awoken => exact ⟨absent, _, rfl, reading⟩

theorem Unwritten.step {reads : Nat} {action : WaitQueues.Action Method} (unwritten : Unwritten reads m)
    (stepped : Stepped program m action m') (read : ∀ len, action ≠ .enter (.write len)) :
    Unwritten (reads + if action = .enter .read then 1 else 0) m' := by
  obtain ⟨absent, reading, all⟩ := unwritten
  cases stepped with
  | @entered call calls driver enters =>
    cases call with
    | read =>
      cases enters
      refine ⟨absent, ?_, by simp [all]⟩
      exact List.forall_mem_append.mpr ⟨reading, List.forall_mem_singleton.mpr (.inl rfl)⟩
    | write len => exact absurd rfl (read len)
  | signalled shape =>
    refine ⟨absent, ?_, by simp [← all, shape]⟩
    exact all_replaced reading shape fun own => List.forall_mem_singleton.mpr own
  | @ran index before thread after progress q shape advance =>
    obtain ⟨still, next, rfl, further⟩ := reading_step advance absent (reading thread (by simp [shape]))
    refine ⟨still, ?_, by simp [← all, shape]⟩
    exact all_replaced reading shape fun _ => List.forall_mem_singleton.mpr further

private theorem present_step {q q' : Queued State} {thread : Thread Point} {progress : Progress (Thread Point)}
    (advance : WaitQueues.Advance program q thread progress q')
    (due : q.driver.dataPresent = 1 ∨ Raising thread) : q'.driver.dataPresent = 1 := by
  have kept (present : q.driver.dataPresent = 1) : q'.driver.dataPresent = 1 := by
    have ready : program.ready q.driver = true := decide_eq_true present
    exact of_decide_eq_true (advance.work latched ready).1
  rcases due with present | ⟨len, raising⟩
  · exact kept present
  · cases advance with
    | acted _ stepped =>
      cases raising
      cases step_cases stepped
      rfl
    | missed waits =>
      cases raising
      cases waits
    | _ => cases raising

theorem Written.step {action : WaitQueues.Action Method} (written : Written m) (stepped : Stepped program m action m') :
    Written m' := by
  cases stepped with
  | @entered call calls driver enters =>
    have same : driver = m.shared.driver := by
      cases call
      all_goals
        cases enters
        rfl
    rcases written with present | ⟨thread, member, raising⟩
    · exact .inl (same ▸ present)
    · exact .inr ⟨thread, List.mem_append_left _ member, raising⟩
  | @signalled index before stage signalled after shape =>
    rcases written with present | ⟨thread, member, raising⟩
    · exact .inl present
    · rw [shape, List.mem_append, List.mem_cons] at member
      rcases member with member | rfl | member
      · exact .inr ⟨thread, by simp [member], raising⟩
      · exact .inr ⟨⟨stage, true⟩, by simp, raising⟩
      · exact .inr ⟨thread, by simp [member], raising⟩
  | @ran index before thread after progress q shape advance =>
    rcases written with present | ⟨other, member, raising⟩
    · exact .inl (present_step advance (.inl present))
    · rw [shape, List.mem_append, List.mem_cons] at member
      rcases member with member | rfl | member
      · exact .inr ⟨other, by simp [member], raising⟩
      · exact .inl (present_step advance (.inr raising))
      · exact .inr ⟨other, by simp [member], raising⟩

private theorem unwritten_run {actions : List (WaitQueues.Action Method)}
    (run : Run program.machine free (loaded {}) actions m)
    (read : ∀ len, .enter (.write len) ∉ actions) : Unwritten (actions.count (.enter .read)) m := by
  induction run with
  | nil => exact ⟨rfl, by simp [loaded], rfl⟩
  | @snoc actions before action after _ _ stepped ih =>
    have earlier : ∀ len, .enter (.write len) ∉ actions := fun len member => read len (List.mem_append_left _ member)
    have last : ∀ len, action ≠ .enter (.write len) := by
      rintro len rfl
      exact read len (by simp)
    rw [List.count_append, List.count_singleton]
    simpa using (ih earlier).step (machine_cases stepped) last

private theorem written_run {actions : List (WaitQueues.Action Method)}
    (run : Run program.machine free (loaded {}) actions m)
    (wrote : ∃ len, .enter (.write len) ∈ actions) : Written m := by
  induction run with
  | nil => simp at wrote
  | @snoc actions before action after _ _ stepped ih =>
    have cases := machine_cases stepped
    by_cases earlier : ∃ len, .enter (.write len) ∈ actions
    · exact (ih earlier).step cases
    · obtain ⟨len, member⟩ := wrote
      obtain rfl : .enter (.write len) = action := by
        rcases List.mem_append.mp member with member | member
        · exact absurd ⟨len, member⟩ earlier
        · exact List.mem_singleton.mp member
      cases cases with
      | entered enters =>
        cases enters
        exact .inr ⟨⟨.active (.setPresent len), false⟩, by simp, len, rfl⟩

/-- No read returns before the first write. Once one was started, calls in progress can
only stop by having returned, all of them, and from the time the flag is up the number
of steps they take is bounded. -/
theorem reads_return (actions : List (WaitQueues.Action Method)) (m : Program.Machine State Point)
    (run : Run program.machine free (loaded {}) actions m) :
    ((∀ len, .enter (.write len) ∉ actions) → m.calls.length = actions.count (.enter .read)) ∧
      ((∃ len, .enter (.write len) ∈ actions) → (∀ index, program.machine m (.run index) = none) → m.calls = []) ∧
      (m.shared.driver.dataPresent = 1 → ∀ more m', Run program.machine Action.Runs m more m' →
        more.length + work Point.rank m'.calls ≤ work Point.rank m.calls) := by
  refine ⟨fun read => (unwritten_run run read).all, fun wrote blocked => ?_, fun present more m' further => ?_⟩
  · obtain ⟨asleep, none_left⟩ := stopped enabled (attended_run diligent run) blocked
    rcases written_run run wrote with present | ⟨thread, member, len, raising⟩
    · exact none_left (decide_eq_true present)
    · have sleeping := asleep thread member
      rw [Thread.asleep, raising] at sleeping
      cases sleeping
  · exact (settles latched (decide_eq_true present) further).2

/-- Two readers asleep while a write has raised the flag and not woken them yet. -/
theorem reads_return_two : ∃ actions m, Run program.machine free (loaded {}) actions m ∧
    m.calls.countP (·.asleep m.shared.queue) = 2 ∧
    ∀ more m', Run program.machine Action.Runs m more m' → more.length + work Point.rank m'.calls ≤ 9 := by
  have reached : ∃ m, Run program.machine free (loaded {})
      [.enter .read, .enter .read, .run 0, .run 0, .run 0, .run 0, .run 1, .run 1, .run 1, .run 1,
        .enter (.write 3), .run 2] m ∧
      m.shared.driver.dataPresent = 1 ∧ m.calls.countP (·.asleep m.shared.queue) = 2 ∧ work Point.rank m.calls = 9 :=
    reaches_of_execute (by decide +kernel)
  obtain ⟨m, run, present, asleep, ahead⟩ := reached
  exact ⟨_, m, run, asleep, ahead ▸ (reads_return _ m run).2.2 present⟩

end DeviceDrivers.Slpy
