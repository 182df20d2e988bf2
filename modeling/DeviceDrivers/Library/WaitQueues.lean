import DeviceDrivers.Library.Interleavings
import DeviceDrivers.Library.Refinements

/-! Calls that sleep on a wait queue. A program says where its calls wait and which
of their statements wake the queue. Its waits are spelled out here: the condition is
tested again after the caller has put itself on the queue, and a wake-up takes
everybody off it, whether asleep yet or not. -/

namespace DeviceDrivers.WaitQueues
open Runs Interleavings Refinements

universe u v w

/-- Calls that share one queue and wait there for one condition. At a wait, `step` is
what happens once the condition was found true. A wait that no signal ends has no
value to return then. -/
structure Program (σ : Type u) (κ : Type v) (α : Type w) where
  enter : σ → α → Option (List κ × σ)
  step : Step σ κ
  ready : σ → Bool
  waits : κ → Bool
  wakes : κ → Bool
  interrupted : κ → Option Int

/-- A wait, from the test that failed to `finish_wait`. The entry is the caller's own. -/
inductive Stage (κ : Type v) where
  | active (call : κ)
  | prepare (call : κ) (entry : Nat)
  | test (call : κ) (entry : Nat)
  | schedule (call : κ) (entry : Nat)
  | finish (rest : Progress κ) (entry : Nat)

structure Thread (κ : Type v) where
  stage : Stage κ
  signalled : Bool := false

/-- The driver's own state, and the entries on the queue. -/
structure Queued (σ : Type u) where
  driver : σ
  queue : List Nat := []
  issued : Nat := 0

inductive Action (α : Type w) where
  | enter (call : α)
  | signal (index : Nat)
  | run (index : Nat)
  deriving DecidableEq, Repr

variable {σ : Type u} {κ : Type v} {α : Type w}

namespace Thread

def reach (thread : Thread κ) : Progress κ → Progress (Thread κ)
  | .next call => .next { thread with stage := .active call }
  | .returned value => .returned value

def calls (thread : Thread κ) : List κ :=
  match thread.stage with
  | .active call | .prepare call _ | .test call _ | .schedule call _ => [call]
  | .finish rest _ => rest.calls

def entry (thread : Thread κ) : Option Nat :=
  match thread.stage with
  | .active _ => none
  | .prepare _ entry | .test _ entry | .schedule _ entry | .finish _ entry => some entry

def signal (s : Queued σ) (thread : Thread κ) : Option (Progress (Thread κ) × Queued σ) :=
  some (.next { thread with signalled := true }, s)

/-- It has called `schedule`, and only a wake-up or a signal lets it go on. -/
def asleep (queue : List Nat) (thread : Thread κ) : Bool :=
  match thread.stage with
  | .schedule _ entry => entry ∈ queue
  | _ => false

end Thread

namespace Program

variable (p : Program σ κ α)

def act (s : Queued σ) (thread : Thread κ) (call : κ) : Option (Progress (Thread κ) × Queued σ) :=
  (p.step s.driver call).map fun (rest, driver) =>
    (thread.reach rest, { s with driver, queue := if p.wakes call then [] else s.queue })

/-- The condition is tested before anything else, then after each `prepare_to_wait`,
which adds the entry unless it is there. A pending signal counts only where the
condition is false. -/
def advance (s : Queued σ) (thread : Thread κ) : Option (Progress (Thread κ) × Queued σ) :=
  match thread.stage with
  | .active call =>
    if p.waits call && !p.ready s.driver then
      some (.next { thread with stage := .prepare call s.issued }, { s with issued := s.issued + 1 })
    else p.act s thread call
  | .prepare call entry =>
    some (.next { thread with stage := .test call entry },
      { s with queue := if entry ∈ s.queue then s.queue else entry :: s.queue })
  | .test call entry =>
    if p.ready s.driver then
      (p.step s.driver call).map fun (rest, driver) =>
        (.next { thread with stage := .finish rest entry }, { s with driver })
    else
      match if thread.signalled then p.interrupted call else none with
      | some value => some (.next { thread with stage := .finish (.returned value) entry }, s)
      | none => some (.next { thread with stage := .schedule call entry }, s)
  | .schedule call entry =>
    if entry ∉ s.queue ∨ thread.signalled ∧ (p.interrupted call).isSome then
      some (.next { thread with stage := .prepare call entry }, s)
    else none
  | .finish rest entry => some (thread.reach rest, { s with queue := s.queue.erase entry })

abbrev Machine (σ : Type u) (κ : Type v) := System (Queued σ) (Thread κ)

def machine (m : Machine σ κ) : Action α → Option (Machine σ κ)
  | .enter call => (p.enter m.shared.driver call).map fun (calls, driver) =>
    ⟨{ m.shared with driver }, m.calls ++ calls.map fun call => { stage := .active call }⟩
  | .signal index => m.run Thread.signal index
  | .run index => m.run p.advance index

def interrupt (s : σ) (call : κ) : Option (Progress κ × σ) :=
  (p.interrupted call).map fun value => (.returned value, s)

/-- The same calls with every wait one step, possible while the condition is true. -/
def atomic (m : System σ κ) : Action α → Option (System σ κ)
  | .enter call => (p.enter m.shared call).map fun (calls, driver) => ⟨driver, m.calls ++ calls⟩
  | .signal index => m.run p.interrupt index
  | .run index => m.run p.step index

end Program

def loaded (driver : σ) : Program.Machine σ κ := ⟨{ driver }, []⟩

def projected (m : Program.Machine σ κ) : System σ κ := ⟨m.shared.driver, m.calls.flatMap Thread.calls⟩

variable {p : Program σ κ α} {s s' : Queued σ} {m m' : Program.Machine σ κ} {thread : Thread κ}
  {progress : Progress (Thread κ)}

/-- Everything one step of a thread can be. -/
inductive Advance (p : Program σ κ α) (s : Queued σ) : Thread κ → Progress (Thread κ) → Queued σ → Prop where
  | acted {call signalled rest driver} (free : p.waits call = true → p.ready s.driver = true)
      (stepped : p.step s.driver call = some (rest, driver)) :
      Advance p s ⟨.active call, signalled⟩ (Thread.reach ⟨.active call, signalled⟩ rest)
        { s with driver, queue := if p.wakes call then [] else s.queue }
  | missed {call signalled} (waits : p.waits call = true) (unready : p.ready s.driver = false) :
      Advance p s ⟨.active call, signalled⟩ (.next ⟨.prepare call s.issued, signalled⟩) { s with issued := s.issued + 1 }
  | prepared {call entry signalled} :
      Advance p s ⟨.prepare call entry, signalled⟩ (.next ⟨.test call entry, signalled⟩)
        { s with queue := if entry ∈ s.queue then s.queue else entry :: s.queue }
  | passed {call entry signalled rest driver} (ready : p.ready s.driver = true)
      (stepped : p.step s.driver call = some (rest, driver)) :
      Advance p s ⟨.test call entry, signalled⟩ (.next ⟨.finish rest entry, signalled⟩) { s with driver }
  | interrupted {call entry value} (unready : p.ready s.driver = false) (ends : p.interrupted call = some value) :
      Advance p s ⟨.test call entry, true⟩ (.next ⟨.finish (.returned value) entry, true⟩) s
  | slept {call entry signalled} (unready : p.ready s.driver = false) :
      Advance p s ⟨.test call entry, signalled⟩ (.next ⟨.schedule call entry, signalled⟩) s
  | awoken {call entry signalled} :
      Advance p s ⟨.schedule call entry, signalled⟩ (.next ⟨.prepare call entry, signalled⟩) s
  | finished {rest entry signalled} :
      Advance p s ⟨.finish rest entry, signalled⟩ (Thread.reach ⟨.finish rest entry, signalled⟩ rest)
        { s with queue := s.queue.erase entry }

theorem advance_cases (stepped : p.advance s thread = some (progress, s')) : Advance p s thread progress s' := by
  obtain ⟨stage, signalled⟩ := thread
  cases stage with
  | active call =>
    simp only [Program.advance] at stepped
    split at stepped
    next missing =>
      simp only [Bool.and_eq_true, Bool.not_eq_true'] at missing
      cases stepped
      exact .missed missing.1 missing.2
    next free =>
      simp only [Bool.and_eq_true, Bool.not_eq_true', not_and, Bool.not_eq_false] at free
      obtain ⟨⟨rest, driver⟩, taken, same⟩ := Option.map_eq_some_iff.mp stepped
      cases same
      exact .acted free taken
  | prepare call entry => cases stepped; exact .prepared
  | test call entry =>
    simp only [Program.advance] at stepped
    split at stepped
    next ready =>
      obtain ⟨⟨rest, driver⟩, taken, same⟩ := Option.map_eq_some_iff.mp stepped
      cases same
      exact .passed ready taken
    next unready =>
      rw [Bool.not_eq_true] at unready
      split at stepped
      next value ends =>
        cases stepped
        obtain ⟨rfl, ends⟩ := Option.ite_none_right_eq_some.mp ends
        exact .interrupted unready ends
      next => cases stepped; exact .slept unready
  | schedule call entry =>
    obtain ⟨_, same⟩ := Option.ite_none_right_eq_some.mp stepped
    cases same
    exact .awoken
  | finish rest entry => cases stepped; exact .finished

inductive Stepped (p : Program σ κ α) (m : Program.Machine σ κ) : Action α → Program.Machine σ κ → Prop where
  | entered {call calls driver} (enters : p.enter m.shared.driver call = some (calls, driver)) :
      Stepped p m (.enter call) ⟨{ m.shared with driver }, m.calls ++ calls.map fun call => { stage := .active call }⟩
  | signalled {index before stage signalled after} (shape : m.calls = before ++ ⟨stage, signalled⟩ :: after) :
      Stepped p m (.signal index) ⟨m.shared, before ++ [⟨stage, true⟩] ++ after⟩
  | ran {index before thread after progress s} (shape : m.calls = before ++ thread :: after)
      (advance : Advance p m.shared thread progress s) :
      Stepped p m (.run index) ⟨s, before ++ progress.calls ++ after⟩

theorem machine_cases {action : Action α} (stepped : p.machine m action = some m') : Stepped p m action m' := by
  cases action with
  | enter call =>
    obtain ⟨⟨calls, driver⟩, enters, same⟩ := Option.map_eq_some_iff.mp stepped
    cases same
    exact .entered enters
  | signal index =>
    change m.run Thread.signal index = some m' at stepped
    cases System.run_cases stepped with
    | intro _ shape _ taken => cases taken; exact .signalled shape
  | run index =>
    change m.run p.advance index = some m' at stepped
    cases System.run_cases stepped with
    | intro _ shape _ taken => exact .ran shape (advance_cases taken)

theorem reached_calls (thread : Thread κ) (rest : Progress κ) :
    (thread.reach rest).calls.flatMap Thread.calls = rest.calls := by
  cases rest <;> rfl

/-- A step of a thread is the program's own, or a signal's end of the wait, or the
program does not see it. -/
theorem Advance.program (advance : Advance p s thread progress s') :
    (∃ call rest, thread.calls = [call] ∧ progress.calls.flatMap Thread.calls = rest.calls ∧
      (p.step s.driver call = some (rest, s'.driver) ∨ p.interrupt s.driver call = some (rest, s'.driver))) ∨
    progress.calls.flatMap Thread.calls = thread.calls ∧ s'.driver = s.driver := by
  cases advance with
  | @acted call signalled rest driver _ stepped =>
    exact .inl ⟨call, rest, rfl, reached_calls _ rest, .inl stepped⟩
  | @passed call entry signalled rest driver _ stepped =>
    exact .inl ⟨call, rest, rfl, List.append_nil _, .inl stepped⟩
  | @interrupted call entry value _ ends =>
    exact .inl ⟨call, .returned value, rfl, rfl, .inr (by simp [Program.interrupt, ends])⟩
  | missed | prepared | slept | awoken => exact .inr ⟨rfl, rfl⟩
  | finished => exact .inr ⟨reached_calls _ _, rfl⟩

/-- All that is asked of a step is that a call it starts is among those permitted. -/
def only {σ : Type u} {α : Type v} (permits : α → Prop) (_ : σ) : Action α → Prop
  | .enter call => permits call
  | _ => True

abbrev free {σ : Type u} {α : Type v} : σ → Action α → Prop := fun _ _ => True

def entered {α : Type v} : Action α → List α
  | .enter call => [call]
  | _ => []

/-- The waits spelled out do nothing that waits of one step could not do. -/
theorem simulates (p : Program σ κ α) (permits : α → Prop) :
    Simulates p.machine (only permits) entered p.atomic (only permits) entered fun m a => a = projected m := by
  rintro m _ action m' rfl permitted stepped
  cases machine_cases stepped with
  | @entered call calls driver enters =>
    have taken : p.atomic (projected m) (.enter call) = some ⟨driver, (projected m).calls ++ calls⟩ := by
      simp only [Program.atomic, projected, enters, Option.map_some]
    refine ⟨_, _, answered (Action.enter call) permitted taken, rfl, ?_⟩
    simp [projected, Thread.calls, List.flatMap_map]
  | signalled shape =>
    refine ⟨[], _, .nil, rfl, ?_⟩
    simp [projected, shape, Thread.calls]
  | @ran index before thread after progress s shape advance =>
    rcases advance.program with ⟨call, rest, here, left, taken⟩ | ⟨left, same⟩
    · have shape : (projected m).calls = before.flatMap Thread.calls ++ call :: after.flatMap Thread.calls := by
        simp [projected, shape, here]
      have moved {step : Step σ κ} (taken : step m.shared.driver call = some (rest, s.driver)) :
          (projected m).run step (before.flatMap Thread.calls).length =
            some (projected ⟨s, before ++ progress.calls ++ after⟩) := by
        rw [System.run_at shape taken]
        simp [projected, left]
      rcases taken with taken | taken
      · exact ⟨_, _, answered (Action.run _) trivial (moved taken), rfl, rfl⟩
      · exact ⟨_, _, answered (Action.signal _) trivial (moved taken), rfl, rfl⟩
    · refine ⟨[], _, .nil, rfl, ?_⟩
      simp [projected, shape, left, same]

end DeviceDrivers.WaitQueues
