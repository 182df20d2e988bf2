import DeviceDrivers.Library.Runs
import Mathlib.Data.List.Basic

/-! What a component takes from its surroundings and gives back. A computation returns
its value together with what it acquired and released, in order; a component that is
set up and torn down again and again is right if each of its lives settles its account. -/

namespace DeviceDrivers.Ledger
open Runs

universe u v w

inductive Event (ρ : Type u) where
  | acquired (resource : ρ)
  | released (resource : ρ)
  deriving DecidableEq, Repr

/-- A value and what was acquired and released while computing it. -/
@[ext] structure Logged (ρ : Type u) (β : Type v) where
  value : β
  events : List (Event ρ)
  deriving DecidableEq, Repr

variable {ρ : Type u} {β γ : Type v}

instance : Monad (Logged ρ) where
  pure value := ⟨value, []⟩
  bind first next := ⟨(next first.value).value, first.events ++ (next first.value).events⟩

@[simp] theorem pure_value (value : β) : (pure value : Logged ρ β).value = value := rfl
@[simp] theorem pure_events (value : β) : (pure value : Logged ρ β).events = [] := rfl

@[simp] theorem bind_value (first : Logged ρ β) (next : β → Logged ρ γ) :
    (first >>= next).value = (next first.value).value := rfl

@[simp] theorem bind_events (first : Logged ρ β) (next : β → Logged ρ γ) :
    (first >>= next).events = first.events ++ (next first.value).events := rfl

def acquire (resource : ρ) : Logged ρ Unit := ⟨(), [.acquired resource]⟩

def release (resource : ρ) : Logged ρ Unit := ⟨(), [.released resource]⟩

@[simp] theorem acquire_events (resource : ρ) : (acquire resource).events = [.acquired resource] := rfl
@[simp] theorem release_events (resource : ρ) : (release resource).events = [.released resource] := rfl

/-- The resources that the surroundings have given out, after some events. Releasing what
was not given out changes nothing. -/
def given [DecidableEq ρ] : List ρ → List (Event ρ) → List ρ
  | table, [] => table
  | table, .acquired resource :: rest => given (resource :: table) rest
  | table, .released resource :: rest => given (table.erase resource) rest

/-- What a party holds that releases nothing but what it holds. -/
def holds [DecidableEq ρ] : List ρ → List (Event ρ) → Option (List ρ)
  | held, [] => some held
  | held, .acquired resource :: rest => holds (resource :: held) rest
  | held, .released resource :: rest => if resource ∈ held then holds (held.erase resource) rest else none

/-- Nothing is released that was not acquired, or twice, and nothing is kept. -/
def Settled [DecidableEq ρ] (events : List (Event ρ)) : Prop := holds [] events = some []

instance [DecidableEq ρ] (events : List (Event ρ)) : Decidable (Settled events) :=
  inferInstanceAs (Decidable (_ = _))

section Accounts
variable [DecidableEq ρ] {held after : List ρ} {events : List (Event ρ)}

theorem given_holds (own : holds held events = some after) (table : List ρ) :
    given (held ++ table) events = after ++ table := by
  induction events generalizing held with
  | nil =>
    cases own
    rfl
  | cons event rest ih =>
    cases event with
    | acquired resource => exact ih own
    | released resource =>
      rw [holds] at own
      split at own
      next there =>
        rw [given, List.erase_append_left table there]
        exact ih own
      next => cases own

/-- A party that settles its account leaves the surroundings as they were. -/
theorem Settled.given (settled : Settled events) (table : List ρ) : given table events = table :=
  given_holds settled table

theorem given_append (table : List ρ) (first last : List (Event ρ)) :
    given table (first ++ last) = given (given table first) last := by
  induction first generalizing table with
  | nil => rfl
  | cons event rest ih => cases event <;> exact ih _

end Accounts

/-- A component is set up, which may fail and depends on how its requests turn out, and
torn down with what it remembers. A negative result means that it was not set up. -/
structure Component (ω : Type w) (ν : Type v) (ρ : Type u) where
  init : ω → Logged ρ (Int × ν)
  exit : ν → Logged ρ Unit

/-- A failed attempt to set a component up, or a whole life of one that was. -/
structure Life (ω : Type w) (ρ : Type u) where
  outcomes : ω
  result : Int
  events : List (Event ρ)
  deriving DecidableEq, Repr

namespace Component
variable {ω : Type w} {ν : Type v}

def life (component : Component ω ν ρ) (outcomes : ω) : Life ω ρ :=
  let begun := component.init outcomes
  let ended := if begun.value.1 < 0 then [] else (component.exit begun.value.2).events
  ⟨outcomes, begun.value.1, begun.events ++ ended⟩

section Lives
variable {component : Component ω ν ρ} {outcomes : ω} {begun : Logged ρ (Int × ν)}

theorem life_failed (starts : component.init outcomes = begun) (negative : begun.value.1 < 0) :
    component.life outcomes = ⟨outcomes, begun.value.1, begun.events⟩ := by
  subst starts
  simp [life, negative]

theorem life_loaded (starts : component.init outcomes = begun) (positive : ¬ begun.value.1 < 0) :
    component.life outcomes =
      ⟨outcomes, begun.value.1, begun.events ++ (component.exit begun.value.2).events⟩ := by
  subst starts
  simp [life, positive]

end Lives

/-- What the surroundings have given out, the life in progress and those that are over. -/
structure State (ω : Type w) (ν : Type v) (ρ : Type u) where
  table : List ρ
  running : Option (ω × Logged ρ (Int × ν)) := none
  finished : List (Life ω ρ) := []

inductive Action (ω : Type w) where
  | load (outcomes : ω)
  | unload
  deriving DecidableEq, Repr

variable [DecidableEq ρ] {component : Component ω ν ρ} {s s' : State ω ν ρ} {table : List ρ} {actions : List (Action ω)}

def step (component : Component ω ν ρ) (s : State ω ν ρ) : Action ω → Option (State ω ν ρ)
  | .load outcomes =>
    if s.running.isSome then none
    else
      let begun := component.init outcomes
      if begun.value.1 < 0 then
        some ⟨given s.table begun.events, none, s.finished ++ [⟨outcomes, begun.value.1, begun.events⟩]⟩
      else some ⟨given s.table begun.events, some (outcomes, begun), s.finished⟩
  | .unload =>
    s.running.map fun (outcomes, begun) =>
      let ended := component.exit begun.value.2
      ⟨given s.table ended.events, none, s.finished ++ [⟨outcomes, begun.value.1, begun.events ++ ended.events⟩]⟩

inductive Stepped (component : Component ω ν ρ) (s : State ω ν ρ) : Action ω → State ω ν ρ → Prop where
  | failed {outcomes} (idle : s.running = none) (negative : (component.init outcomes).value.1 < 0) :
      Stepped component s (.load outcomes)
        ⟨given s.table (component.life outcomes).events, none, s.finished ++ [component.life outcomes]⟩
  | loaded {outcomes} (idle : s.running = none) (positive : ¬ (component.init outcomes).value.1 < 0) :
      Stepped component s (.load outcomes)
        ⟨given s.table (component.init outcomes).events, some (outcomes, component.init outcomes), s.finished⟩
  | unloaded {outcomes begun} (busy : s.running = some (outcomes, begun)) : Stepped component s .unload
      ⟨given s.table (component.exit begun.value.2).events, none,
        s.finished ++ [⟨outcomes, begun.value.1, begun.events ++ (component.exit begun.value.2).events⟩]⟩

theorem step_cases {action : Action ω} (stepped : component.step s action = some s') :
    Stepped component s action s' := by
  cases action with
  | load outcomes =>
    rw [step] at stepped
    split at stepped
    next => cases stepped
    next idle =>
      have idle : s.running = none := by simpa using idle
      dsimp only at stepped
      split at stepped
      next negative =>
        cases stepped
        have failed := Stepped.failed idle negative
        rwa [life_failed rfl negative] at failed
      next positive =>
        cases stepped
        exact .loaded idle positive
  | unload =>
    obtain ⟨⟨outcomes, begun⟩, busy, same⟩ := Option.map_eq_some_iff.mp stepped
    cases same
    exact .unloaded busy

/-- Every life that is over is one of the component's, and with all of these settled
the surroundings have given out what the life in progress has made of the first table. -/
structure Lived (component : Component ω ν ρ) (table : List ρ) (s : State ω ν ρ) : Prop where
  finished : ∀ life ∈ s.finished, life = component.life life.outcomes
  running : ∀ outcomes begun, s.running = some (outcomes, begun) →
    begun = component.init outcomes ∧ ¬ begun.value.1 < 0
  table : (∀ life ∈ s.finished, Settled life.events) →
    s.table = s.running.elim table fun (_, begun) => given table begun.events

theorem Lived.step {action : Action ω} (lived : Lived component table s)
    (stepped : component.step s action = some s') : Lived component table s' := by
  obtain ⟨finished, running, kept⟩ := lived
  cases step_cases stepped with
  | @failed outcomes idle negative =>
    refine ⟨List.forall_mem_append.mpr ⟨finished, List.forall_mem_singleton.mpr rfl⟩, by simp, fun settled => ?_⟩
    obtain ⟨before, last⟩ := List.forall_mem_append.mp settled
    change given s.table (component.life outcomes).events = table
    rw [kept before, idle]
    exact (List.forall_mem_singleton.mp last).given table
  | @loaded outcomes idle positive =>
    refine ⟨finished, ?_, fun settled => ?_⟩
    · intro _ _ same
      cases same
      exact ⟨rfl, positive⟩
    · change given s.table (component.init outcomes).events = given table (component.init outcomes).events
      rw [kept settled, idle]
      rfl
  | @unloaded outcomes begun busy =>
    obtain ⟨rfl, positive⟩ := running outcomes begun busy
    have whole := life_loaded rfl positive
    rw [← whole]
    refine ⟨List.forall_mem_append.mpr ⟨finished, List.forall_mem_singleton.mpr rfl⟩, by simp, fun settled => ?_⟩
    obtain ⟨before, last⟩ := List.forall_mem_append.mp settled
    have last := (List.forall_mem_singleton.mp last).given table
    change given s.table (component.exit (component.init outcomes).value.2).events = table
    rw [kept before, busy]
    rw [whole, given_append] at last
    exact last

theorem lived (run : Run component.step (fun _ _ => True) ⟨table, none, []⟩ actions s) : Lived component table s :=
  run.invariant (Lived component table) ⟨by simp, by simp, fun _ => rfl⟩ fun _ _ _ kept _ stepped => kept.step stepped

/-- What holds of a life exactly under some condition on its outcomes holds of all lives
in a run exactly if all meet it. -/
theorem finished_iff (property : Life ω ρ → Prop) (good : ω → Prop)
    (precise : ∀ outcomes, property (component.life outcomes) ↔ good outcomes)
    (run : Run component.step (fun _ _ => True) ⟨table, none, []⟩ actions s) :
    (∀ life ∈ s.finished, property life) ↔ ∀ life ∈ s.finished, good life.outcomes := by
  refine forall₂_congr fun life member => ?_
  rw [← precise, ← (lived run).finished life member]

theorem running_loaded {outcomes : ω} {begun : Logged ρ (Int × ν)}
    (run : Run component.step (fun _ _ => True) ⟨table, none, []⟩ actions s)
    (running : s.running = some (outcomes, begun)) : ¬ (component.life outcomes).result < 0 := by
  obtain ⟨rfl, positive⟩ := (lived run).running outcomes begun running
  exact positive

/-- Between lives that have all settled the surroundings are as they were at first. -/
theorem restored (run : Run component.step (fun _ _ => True) ⟨table, none, []⟩ actions s)
    (settled : ∀ life ∈ s.finished, Settled life.events) (idle : s.running = none) : s.table = table := by
  rw [(lived run).table settled, idle]
  rfl

end Component

end DeviceDrivers.Ledger
