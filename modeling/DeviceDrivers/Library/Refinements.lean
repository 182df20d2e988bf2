import DeviceDrivers.Library.Runs

/-! Forward simulations between two systems with partial step functions. A step of
the first may be answered by any number of steps of the second, none included. What
an observer sees of either is a list of events for each of its actions. -/

namespace DeviceDrivers.Refinements
open Runs

universe u v w

variable {σ τ : Type u} {α β : Type v} {ε : Type w} {step : σ → α → Option σ} {allowed : σ → α → Prop}
  {coarse : τ → β → Option τ} {permitted : τ → β → Prop} {start final : σ} {actions : List α} {origin : τ}

/-- Every step from related states can be answered so that the states stay related and
the same is seen. -/
def Simulates (step : σ → α → Option σ) (allowed : σ → α → Prop) (seen : α → List ε) (coarse : τ → β → Option τ)
    (permitted : τ → β → Prop) (shown : β → List ε) (related : σ → τ → Prop) : Prop :=
  ∀ s t action next, related s t → allowed s action → step s action = some next →
    ∃ answer t', Run coarse permitted t answer t' ∧ answer.flatMap shown = seen action ∧ related next t'

theorem Simulates.run {seen : α → List ε} {shown : β → List ε} {related : σ → τ → Prop}
    (simulates : Simulates step allowed seen coarse permitted shown related)
    (initial : related start origin) (run : Run step allowed start actions final) :
    ∃ answer reached, Run coarse permitted origin answer reached ∧ answer.flatMap shown = actions.flatMap seen ∧
      related final reached := by
  induction run with
  | nil => exact ⟨[], origin, .nil, rfl, initial⟩
  | snoc _ met stepped ih =>
    obtain ⟨earlier, middle, before, same, related⟩ := ih
    obtain ⟨answer, reached, after, again, related⟩ := simulates _ _ _ _ related met stepped
    refine ⟨earlier ++ answer, reached, before.append after, ?_, related⟩
    rw [List.flatMap_append, List.flatMap_append, same, again, List.flatMap_singleton]

theorem answered {s t : τ} (action : β) (met : permitted s action) (stepped : coarse s action = some t) :
    Run coarse permitted s [action] t :=
  .snoc .nil met stepped

/-- If each action has one counterpart, the two runs go action by action. -/
theorem run_mapped (project : σ → τ) (counterpart : α → β) (run : Run step allowed start actions final)
    (matched : ∀ s action next, allowed s action → step s action = some next →
      permitted (project s) (counterpart action) ∧ coarse (project s) (counterpart action) = some (project next)) :
    Run coarse permitted (project start) (actions.map counterpart) (project final) := by
  induction run with
  | nil => exact .nil
  | snoc _ met stepped ih =>
    obtain ⟨met, stepped⟩ := matched _ _ _ met stepped
    rw [List.map_append]
    exact .snoc ih met stepped

end DeviceDrivers.Refinements
