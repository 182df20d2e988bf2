import DeviceDrivers.Library.Ledger
import Mathlib.Data.List.Flatten

/-! Several components that take what they need from one table. The surroundings give out
nothing that clashes with what is given out already. Each component is set up or torn
down in one piece, but the others may come and go in between. -/

namespace DeviceDrivers.SharedTable
open Runs Ledger

universe u v w

variable {ρ : Type u} {ω : Type v} {ι : Type w}

/-- What an attempt to set a component up comes to: its result, what it takes and gives
back meanwhile, and what it does so when it is torn down. -/
structure Conduct (ρ : Type u) where
  result : Int
  begun : List (Event ρ)
  ended : List (Event ρ)

/-- What all attempts come to, and whose they are. -/
structure House (ω : Type v) (ι : Type w) (ρ : Type u) where
  owner : ω → ι
  conduct : ω → Conduct ρ

structure State (ω : Type v) (ρ : Type u) where
  table : List ρ
  loaded : List ω := []
  finished : List ω := []

inductive Action (ω : Type v) (ι : Type w) where
  | load (attempt : ω)
  | unload (owner : ι)

variable [DecidableEq ρ] [DecidableEq ι]

/-- The attempts that failed and those that were torn down are finished. -/
def House.step (house : House ω ι ρ) (s : State ω ρ) : Action ω ι → Option (State ω ρ)
  | .load attempt =>
    if ∃ other ∈ s.loaded, house.owner other = house.owner attempt then none
    else
      let table := given s.table (house.conduct attempt).begun
      if (house.conduct attempt).result < 0 then some ⟨table, s.loaded, s.finished ++ [attempt]⟩
      else some ⟨table, s.loaded ++ [attempt], s.finished⟩
  | .unload owner =>
    (s.loaded.find? (house.owner · = owner)).map fun attempt =>
      ⟨given s.table (house.conduct attempt).ended, s.loaded.eraseP (house.owner · = owner), s.finished ++ [attempt]⟩

/-- Nothing is given out that clashes. -/
def Truthful (apart : ρ → ρ → Prop) : List ρ → List (Event ρ) → Prop
  | _, [] => True
  | table, .acquired resource :: rest => (∀ other ∈ table, apart resource other) ∧ Truthful apart (resource :: table) rest
  | table, .released resource :: rest => Truthful apart (table.erase resource) rest

instance Truthful.decidable (apart : ρ → ρ → Prop) [DecidableRel apart] :
    (table : List ρ) → (events : List (Event ρ)) → Decidable (Truthful apart table events)
  | _, [] => isTrue trivial
  | table, .acquired resource :: rest =>
    have := Truthful.decidable apart (resource :: table) rest
    inferInstanceAs (Decidable (_ ∧ _))
  | table, .released resource :: rest => Truthful.decidable apart (table.erase resource) rest

def House.Obliged (house : House ω ι ρ) (apart : ρ → ρ → Prop) (s : State ω ρ) : Action ω ι → Prop
  | .load attempt => Truthful apart s.table (house.conduct attempt).begun
  | .unload owner => ∀ attempt ∈ s.loaded, house.owner attempt = owner → Truthful apart s.table (house.conduct attempt).ended

instance (house : House ω ι ρ) (apart : ρ → ρ → Prop) [DecidableRel apart] (s : State ω ρ) :
    (action : Action ω ι) → Decidable (house.Obliged apart s action)
  | .load _ => inferInstanceAs (Decidable (Truthful ..))
  | .unload _ => inferInstanceAs (Decidable (∀ _ ∈ _, _))

/-- An attempt that gives back nothing but what it holds: what it then keeps while it is
set up, and what it leaves behind. -/
structure House.Honest (house : House ω ι ρ) (keeps leaves : ω → List ρ) (attempt : ω) : Prop where
  failed : (house.conduct attempt).result < 0 → holds [] (house.conduct attempt).begun = some (leaves attempt)
  loaded : ¬ (house.conduct attempt).result < 0 → holds [] (house.conduct attempt).begun = some (keeps attempt)
  unloaded : ¬ (house.conduct attempt).result < 0 → holds (keeps attempt) (house.conduct attempt).ended = some (leaves attempt)

section Tables
variable {apart : ρ → ρ → Prop} {table other held after : List ρ} {events : List (Event ρ)}

theorem given_perm (same : table.Perm other) (events : List (Event ρ)) :
    (given table events).Perm (given other events) := by
  induction events generalizing table other with
  | nil => exact same
  | cons event rest ih =>
    cases event with
    | acquired resource => exact ih (same.cons resource)
    | released resource => exact ih (same.erase resource)

/-- Whoever gives back only what it holds changes only its own part of the table. -/
theorem given_own (own : holds held events = some after) (same : table.Perm (held ++ other)) :
    (given table events).Perm (after ++ other) := by
  rw [← given_holds own]
  exact given_perm same events

theorem given_apart (truthful : Truthful apart table events) (before : table.Pairwise apart) :
    (given table events).Pairwise apart := by
  induction events generalizing table with
  | nil => exact before
  | cons event rest ih =>
    cases event with
    | acquired resource => exact ih truthful.2 (.cons truthful.1 before)
    | released resource => exact ih truthful (before.sublist List.erase_sublist)

end Tables

variable {house : House ω ι ρ} {apart : ρ → ρ → Prop} {keeps leaves : ω → List ρ} {s s' : State ω ρ} {first : List ρ}
  {actions : List (Action ω ι)} {action : Action ω ι}

inductive Stepped (house : House ω ι ρ) (s : State ω ρ) : Action ω ι → State ω ρ → Prop where
  | failed {attempt} (negative : (house.conduct attempt).result < 0) : Stepped house s (.load attempt)
      ⟨given s.table (house.conduct attempt).begun, s.loaded, s.finished ++ [attempt]⟩
  | loaded {attempt} (free : ∀ other ∈ s.loaded, house.owner other ≠ house.owner attempt)
      (positive : ¬ (house.conduct attempt).result < 0) : Stepped house s (.load attempt)
      ⟨given s.table (house.conduct attempt).begun, s.loaded ++ [attempt], s.finished⟩
  | unloaded {attempt before after} (shape : s.loaded = before ++ attempt :: after) :
      Stepped house s (.unload (house.owner attempt))
        ⟨given s.table (house.conduct attempt).ended, before ++ after, s.finished ++ [attempt]⟩

theorem step_cases (stepped : house.step s action = some s') : Stepped house s action s' := by
  cases action with
  | load attempt =>
    simp only [House.step] at stepped
    split at stepped
    next => cases stepped
    next free =>
      split at stepped
      next negative => cases stepped; exact .failed negative
      next positive => cases stepped; exact .loaded (fun other member same => free ⟨other, member, same⟩) positive
  | unload owner =>
    obtain ⟨attempt, found, same⟩ := Option.map_eq_some_iff.mp stepped
    cases same
    obtain ⟨mine, before, after, shape, others⟩ := List.find?_eq_some_iff_append.mp found
    have rest : s.loaded.eraseP (house.owner · = owner) = before ++ after := by
      rw [shape, List.eraseP_append_right _ (by simpa using others)]
      simp [of_decide_eq_true mine]
    rw [rest, ← of_decide_eq_true mine]
    exact .unloaded shape

/-- What is given out is what the components keep that are set up, what the finished ones
have left behind, and what was given out before. -/
structure Accounted (house : House ω ι ρ) (keeps leaves : ω → List ρ) (first : List ρ) (s : State ω ρ) : Prop where
  table : s.table.Perm (s.loaded.flatMap keeps ++ s.finished.flatMap leaves ++ first)
  loaded : ∀ attempt ∈ s.loaded, ¬ (house.conduct attempt).result < 0

theorem Accounted.step (honest : ∀ attempt, house.Honest keeps leaves attempt)
    (accounted : Accounted house keeps leaves first s)
    (stepped : house.step s action = some s') : Accounted house keeps leaves first s' := by
  obtain ⟨table, loaded⟩ := accounted
  have begins : s.table.Perm ([] ++ (s.loaded.flatMap keeps ++ s.finished.flatMap leaves ++ first)) := table
  cases step_cases stepped with
  | @failed attempt negative =>
    refine ⟨(given_own ((honest attempt).failed negative) begins).trans ?_, loaded⟩
    refine List.perm_iff_count.mpr fun resource => ?_
    simp only [List.flatMap_append, List.flatMap_singleton, List.count_append]
    omega
  | @loaded attempt free positive =>
    refine ⟨(given_own ((honest attempt).loaded positive) begins).trans ?_, ?_⟩
    · refine List.perm_iff_count.mpr fun resource => ?_
      simp only [List.flatMap_append, List.flatMap_singleton, List.count_append]
      omega
    · exact List.forall_mem_append.mpr ⟨loaded, List.forall_mem_singleton.mpr positive⟩
  | @unloaded attempt before after shape =>
    have positive := loaded attempt (by simp [shape])
    have own : s.table.Perm (keeps attempt ++ ((before ++ after).flatMap keeps ++ s.finished.flatMap leaves ++ first)) := by
      refine table.trans (List.perm_iff_count.mpr fun resource => ?_)
      simp only [shape, List.flatMap_append, List.flatMap_cons, List.count_append]
      omega
    refine ⟨(given_own ((honest attempt).unloaded positive) own).trans ?_, fun other member => loaded other ?_⟩
    · refine List.perm_iff_count.mpr fun resource => ?_
      simp only [List.flatMap_append, List.flatMap_singleton, List.count_append]
      omega
    · rw [shape]
      exact (List.sublist_append_right [attempt] after).append_left before |>.mem member

/-- Over any run in which nothing is given out that clashes, nothing in the table clashes. -/
theorem apart_run (run : Run house.step (house.Obliged apart) ⟨first, [], []⟩ actions s)
    (before : first.Pairwise apart) :
    s.table.Pairwise apart := by
  refine run.invariant (fun s => s.table.Pairwise apart) before fun s action s' kept obliged stepped => ?_
  cases step_cases stepped with
  | failed | loaded => exact given_apart obliged kept
  | @unloaded attempt before after shape => exact given_apart (obliged attempt (by simp [shape]) rfl) kept

theorem accounted_run (honest : ∀ attempt, house.Honest keeps leaves attempt)
    (run : Run house.step (house.Obliged apart) ⟨first, [], []⟩ actions s) : Accounted house keeps leaves first s :=
  run.invariant (Accounted house keeps leaves first) ⟨.refl _, by simp⟩ fun _ _ _ kept _ stepped => kept.step honest stepped

end DeviceDrivers.SharedTable
