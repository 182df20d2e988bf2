import DeviceDrivers.Library.Runs
import Mathlib.Data.List.Count

/-! Any number of sequential calls interleaved on a shared state. A call is the
point it has reached, with its locals. What counts as one step is up to whoever
defines the step function; between two steps of a call all others may run. -/

namespace DeviceDrivers.Interleavings
open Runs

universe u v w

/-- What is left of a call after one of its steps. -/
inductive Progress (κ : Type v) where
  | next (call : κ)
  | returned (value : Int)

/-- The shared state, and how far each call in progress has got. -/
structure System (σ : Type u) (κ : Type v) where
  shared : σ
  calls : List κ

/-- One step of a call; none while it has to wait, or where it faults. -/
abbrev Step (σ : Type u) (κ : Type v) := σ → κ → Option (Progress κ × σ)

variable {σ : Type u} {κ : Type v}

def Progress.calls : Progress κ → List κ
  | .next call => [call]
  | .returned _ => []

@[simp] theorem calls_next (call : κ) : (Progress.next call).calls = [call] := rfl
@[simp] theorem calls_returned (value : Int) : (Progress.returned value : Progress κ).calls = [] := rfl

namespace System

def start (m : System σ κ) (call : κ) : System σ κ := { m with calls := m.calls ++ [call] }

@[simp] theorem start_shared (m : System σ κ) (call : κ) : (m.start call).shared = m.shared := rfl
@[simp] theorem start_calls (m : System σ κ) (call : κ) : (m.start call).calls = m.calls ++ [call] := rfl

/-- The call in place `index` makes one step. -/
def run (step : Step σ κ) (m : System σ κ) (index : Nat) : Option (System σ κ) :=
  match m.calls[index]? with
  | none => none
  | some call => (step m.shared call).map fun (progress, shared) =>
    ⟨shared, m.calls.take index ++ progress.calls ++ m.calls.drop (index + 1)⟩

end System

variable {step : Step σ κ} {m m' : System σ κ} {index : Nat}

inductive Ran (step : Step σ κ) (m : System σ κ) (index : Nat) : System σ κ → Prop where
  | intro {before call after progress shared} (found : m.calls[index]? = some call)
      (shape : m.calls = before ++ call :: after) (others : m.calls.eraseIdx index = before ++ after)
      (stepped : step m.shared call = some (progress, shared)) :
      Ran step m index ⟨shared, before ++ progress.calls ++ after⟩

theorem System.run_cases (ran : m.run step index = some m') : Ran step m index m' := by
  simp only [System.run] at ran
  split at ran
  next => cases ran
  next call found =>
    obtain ⟨⟨progress, shared⟩, stepped, same⟩ := Option.map_eq_some_iff.mp ran
    cases same
    obtain ⟨inside, here⟩ := List.getElem?_eq_some_iff.mp found
    exact .intro found (by rw [← here, List.getElem_cons_drop, List.take_append_drop])
      (List.eraseIdx_eq_take_drop_succ _ _) stepped

theorem System.run_at {before after : List κ} {call : κ} {progress : Progress κ} {shared : σ}
    (shape : m.calls = before ++ call :: after) (stepped : step m.shared call = some (progress, shared)) :
    m.run step before.length = some ⟨shared, before ++ progress.calls ++ after⟩ := by
  simp [System.run, shape, stepped]

theorem System.run_next {call next : κ} {shared : σ} (found : m.calls[index]? = some call)
    (stepped : step m.shared call = some (.next next, shared)) :
    m.run step index = some ⟨shared, m.calls.set index next⟩ := by
  have inside := (List.getElem?_eq_some_iff.mp found).1
  simp only [System.run, found, stepped, Option.map_some, calls_next]
  rw [List.set_eq_take_append_cons_drop, if_pos inside, List.append_assoc, List.singleton_append]

theorem other_mem {calls before after : List κ} {call other : κ} (shape : calls = before ++ call :: after)
    (member : other ∈ before ++ after) : other ∈ calls := by
  rw [shape]
  exact (List.mem_append.mp member).elim (List.mem_append_left _) fun later =>
    List.mem_append_right _ (List.mem_cons_of_mem _ later)

/-- After a step a call is what is left of the one that made it, or one of the others. -/
theorem mem_replaced {before rest after : List κ} {other : κ} :
    other ∈ before ++ rest ++ after ↔ other ∈ rest ∨ other ∈ before ++ after := by
  simp only [List.mem_append]
  tauto

theorem all_started {p : κ → Prop} {calls : List κ} {call : κ} (held : ∀ other ∈ calls, p other) (first : p call) :
    ∀ other ∈ calls ++ [call], p other :=
  List.forall_mem_append.mpr ⟨held, List.forall_mem_singleton.mpr first⟩

/-- A step keeps what holds of all calls if it holds of what is left of its own. -/
theorem all_replaced {p : κ → Prop} {calls before rest after : List κ} {call : κ} (held : ∀ other ∈ calls, p other)
    (shape : calls = before ++ call :: after) (own : p call → ∀ other ∈ rest, p other) :
    ∀ other ∈ before ++ rest ++ after, p other := by
  intro other member
  rcases mem_replaced.mp member with here | elsewhere
  · exact own (held call (by simp [shape])) other here
  · exact held other (other_mem shape elsewhere)

/-- A step takes one call from the count and puts what is left of it back. -/
theorem count_replaced (p : κ → Bool) (before after rest : List κ) (call : κ) :
    (before ++ rest ++ after).countP p + [call].countP p = (before ++ call :: after).countP p + rest.countP p := by
  simp only [List.countP_append, List.countP_cons, List.countP_nil]
  omega

theorem count_pos {p : κ → Bool} {call : κ} {calls : List κ} (member : call ∈ calls) (counted : p call = true) :
    0 < calls.countP p :=
  List.countP_pos_iff.mpr ⟨call, member, counted⟩

theorem count_one {p : κ → Bool} {first second : κ} {calls : List κ} (once : calls.countP p = 1)
    (member : first ∈ calls) (counted : p first = true) (also_member : second ∈ calls) (also : p second = true) :
    first = second := by
  rw [List.countP_eq_length_filter, List.length_eq_one_iff] at once
  obtain ⟨only, same⟩ := once
  have is_only (call : κ) (member : call ∈ calls) (counted : p call = true) : call = only :=
    List.mem_singleton.mp (same ▸ List.mem_filter.mpr ⟨member, counted⟩)
  rw [is_only first member counted, is_only second also_member also]

/-- Every call is at a point where its assertion about the shared state holds. -/
def Asserted (assertion : σ → κ → Prop) (m : System σ κ) : Prop := ∀ call ∈ m.calls, assertion m.shared call

theorem Asserted.start {assertion : σ → κ → Prop} {call : κ} (held : Asserted assertion m)
    (first : assertion m.shared call) : Asserted assertion (m.start call) :=
  all_started held first

/-- A step keeps all assertions if it establishes that of the point the call
gets to, and interferes with none of the others. -/
theorem Asserted.replaced {assertion : σ → κ → Prop} {before after : List κ} {call : κ} {progress : Progress κ}
    {shared : σ} (held : Asserted assertion m) (shape : m.calls = before ++ call :: after)
    (own : assertion m.shared call → ∀ next ∈ progress.calls, assertion shared next)
    (free : ∀ other ∈ before ++ after, assertion m.shared other → assertion shared other) :
    Asserted assertion ⟨shared, before ++ progress.calls ++ after⟩ := by
  intro other member
  rcases mem_replaced.mp member with rest | elsewhere
  · exact own (held call (by simp [shape])) other rest
  · exact free other elsewhere (held other (other_mem shape elsewhere))

/-- The call returns `value` in state `s'` if nothing else runs meanwhile. -/
inductive Alone (step : Step σ κ) : σ → Progress κ → Int → σ → Prop where
  | returned {s value} : Alone step s (.returned value) value s
  | step {s middle s' call progress value} (stepped : step s call = some (progress, middle))
      (rest : Alone step middle progress value s') : Alone step s (.next call) value s'

/-- A call that runs alone is a run of the system in which the others stand still. -/
theorem Alone.run {α : Type w} {machine : System σ κ → α → Option (System σ κ)} {act : Nat → α}
    (runs : ∀ m index, machine m (act index) = m.run step index) {s s' : σ} {progress : Progress κ} {value : Int}
    (alone : Alone step s progress value s') (others : List κ) :
    ∃ actions, Run machine (fun _ _ => True) ⟨s, others ++ progress.calls⟩ actions ⟨s', others⟩ := by
  induction alone with
  | returned =>
    refine ⟨[], ?_⟩
    rw [calls_returned, List.append_nil]
    exact .nil
  | step stepped rest ih =>
    obtain ⟨actions, run⟩ := ih
    refine ⟨[act others.length] ++ actions, Run.append (.snoc .nil trivial ?_) run⟩
    rw [runs]
    simp [System.run, stepped]

end DeviceDrivers.Interleavings
