import Mathlib.Data.List.Induction

/-! Finite runs of a system whose step is a partial function. The environment
is a separate guard, so one system can be studied under several contracts. -/

namespace DeviceDrivers.Runs

universe u v

variable {σ : Type u} {α : Type v}

/-- Every action was permitted in the state it was taken from and succeeded
there. An action that faults has no successor and ends the run. -/
inductive Run (step : σ → α → Option σ) (allowed : σ → α → Prop) (start : σ) : List α → σ → Prop where
  | nil : Run step allowed start [] start
  | snoc {actions state action next} (earlier : Run step allowed start actions state)
      (permitted : allowed state action) (stepped : step state action = some next) :
      Run step allowed start (actions ++ [action]) next

def Throughout (step : σ → α → Option σ) (allowed : σ → α → Prop) (start : σ)
    (actions : List α) (property : σ → Prop) : Prop :=
  ∀ earlier later state, actions = earlier ++ later →
    Run step allowed start earlier state → property state

variable {step : σ → α → Option σ} {allowed good : σ → α → Prop} {start final : σ} {actions : List α}

abbrev Both (first second : σ → α → Prop) : σ → α → Prop :=
  fun state action => first state action ∧ second state action

theorem Run.mono {weaker : σ → α → Prop} (run : Run step allowed start actions final)
    (implies : ∀ state action, allowed state action → weaker state action) :
    Run step weaker start actions final := by
  induction run with
  | nil => exact .nil
  | snoc _ permitted stepped ih => exact .snoc ih (implies _ _ permitted) stepped

/-- What holds at the start and is kept by every permitted step holds of every
state reached. -/
theorem Run.invariant (kept : σ → Prop) (run : Run step allowed start actions final)
    (initial : kept start)
    (preserved : ∀ state action next, kept state → allowed state action →
      step state action = some next → kept next) : kept final := by
  induction run with
  | nil => exact initial
  | snoc _ permitted stepped ih => exact preserved _ _ _ ih permitted stepped

/-- A run whose steps all decrease a measure is no longer than the measure was. -/
theorem Run.bounded (kept : σ → Prop) (rank : σ → Nat) (run : Run step allowed start actions final)
    (initial : kept start)
    (decreases : ∀ state action next, kept state → allowed state action → step state action = some next →
      kept next ∧ rank next < rank state) :
    kept final ∧ actions.length + rank final ≤ rank start := by
  induction run with
  | nil => exact ⟨initial, by simp⟩
  | snoc _ permitted stepped ih =>
    obtain ⟨held, bound⟩ := ih
    obtain ⟨held, less⟩ := decreases _ _ _ held permitted stepped
    refine ⟨held, ?_⟩
    rw [List.length_append, List.length_singleton]
    omega

/-- What a list weighs, given the weight of each entry. -/
def load {κ : Type v} (weight : κ → Nat) : List κ → Nat
  | [] => 0
  | entry :: rest => weight entry + load weight rest

section Load
variable {κ : Type v} (weight : κ → Nat)

@[simp] theorem load_nil : load weight [] = 0 := rfl

@[simp] theorem load_cons (entry : κ) (rest : List κ) :
    load weight (entry :: rest) = weight entry + load weight rest := rfl

@[simp] theorem load_append (first last : List κ) :
    load weight (first ++ last) = load weight first + load weight last := by
  induction first with
  | nil => simp
  | cons entry first ih => simp [ih, Nat.add_assoc]

end Load

/-- What the steps of a run have spent, and what is left of the measure, was there at the
start or has been granted on the way. The measure may read a ghost value that goes along. -/
theorem Run.budgeted_along {γ : Type v} (kept : σ → γ → Prop) (rank : σ → γ → Nat) (spent granted : α → Nat)
    (run : Run step allowed start actions final) (first : γ) (initial : kept start first)
    (accounts : ∀ state ghost action next, kept state ghost → allowed state action → step state action = some next →
      ∃ ghost', kept next ghost' ∧ spent action + rank next ghost' ≤ rank state ghost + granted action) :
    ∃ last, kept final last ∧ load spent actions + rank final last ≤ rank start first + load granted actions := by
  induction run with
  | nil => exact ⟨first, initial, by simp⟩
  | snoc _ permitted stepped ih =>
    obtain ⟨ghost, held, bound⟩ := ih
    obtain ⟨last, held, account⟩ := accounts _ _ _ _ held permitted stepped
    refine ⟨last, held, ?_⟩
    simp only [load_append, load_cons, load_nil]
    omega

theorem Run.budgeted (kept : σ → Prop) (rank : σ → Nat) (spent granted : α → Nat)
    (run : Run step allowed start actions final) (initial : kept start)
    (accounts : ∀ state action next, kept state → allowed state action → step state action = some next →
      kept next ∧ spent action + rank next ≤ rank state + granted action) :
    kept final ∧ load spent actions + rank final ≤ rank start + load granted actions := by
  obtain ⟨_, held, bound⟩ := run.budgeted_along (fun state (_ : PUnit) => kept state) (fun state _ => rank state) spent
    granted ⟨⟩ initial fun state _ action next held permitted stepped =>
      ⟨⟨⟩, accounts state action next held permitted stepped⟩
  exact ⟨held, bound⟩

theorem Run.append {middle : σ} {more : List α} (first : Run step allowed start actions middle)
    (last : Run step allowed middle more final) : Run step allowed start (actions ++ more) final := by
  induction last with
  | nil => simpa using first
  | snoc _ permitted stepped ih =>
    rw [← List.append_assoc]
    exact .snoc ih permitted stepped

/-- If a measure decreases with every step, and some step is possible until the end is
reached, then the end can be reached. -/
theorem Run.completes (kept done : σ → Prop) (rank : σ → Nat) (held : kept start)
    (decreases : ∀ state action next, kept state → allowed state action → step state action = some next →
      kept next ∧ rank next < rank state)
    (progress : ∀ state, kept state → done state ∨ ∃ action next, allowed state action ∧ step state action = some next) :
    ∃ actions final, Run step allowed start actions final ∧ done final := by
  induction bound : rank start using Nat.strongRecOn generalizing start with
  | ind bound ih =>
    rcases progress start held with finished | ⟨action, next, permitted, stepped⟩
    · exact ⟨[], start, .nil, finished⟩
    · obtain ⟨further, less⟩ := decreases start action next held permitted stepped
      obtain ⟨actions, final, run, finished⟩ := ih (rank next) (bound ▸ less) further rfl
      have first : Run step allowed start [action] next := .snoc .nil permitted stepped
      exact ⟨[action] ++ actions, final, first.append run, finished⟩

private theorem snoc_inv {action : α} (run : Run step allowed start (actions ++ [action]) final) :
    ∃ state, Run step allowed start actions state ∧ allowed state action ∧
      step state action = some final := by
  generalize same : actions ++ [action] = all at run
  cases run with
  | nil => simp at same
  | snoc earlier permitted stepped =>
    obtain ⟨rfl, last⟩ := List.append_inj' same rfl
    cases last
    exact ⟨_, earlier, permitted, stepped⟩

theorem Run.determined {other : σ} (run : Run step allowed start actions final)
    (again : Run step good start actions other) : final = other := by
  induction run generalizing other with
  | nil =>
    generalize same : ([] : List α) = none at again
    cases again with
    | nil => rfl
    | snoc _ _ _ => simp at same
  | snoc _ _ stepped ih =>
    obtain ⟨state, earlier, _, taken⟩ := snoc_inv again
    rw [ih earlier] at stepped
    exact Option.some.inj (stepped.symm.trans taken)

theorem Run.prior {more : List α} (run : Run step allowed start (actions ++ more) final) :
    ∃ middle, Run step allowed start actions middle := by
  induction more using List.reverseRecOn generalizing final with
  | nil => exact ⟨final, by simpa using run⟩
  | append_singleton rest action ih =>
    rw [← List.append_assoc] at run
    obtain ⟨_, before, _, _⟩ := snoc_inv run
    exact ih before

theorem Throughout.earlier {property : σ → Prop} {action : α}
    (all : Throughout step allowed start (actions ++ [action]) property) :
    Throughout step allowed start actions property := by
  intro first later state same run
  exact all first (later ++ [action]) state (by simp [same]) run

theorem Throughout.last {property : σ → Prop}
    (all : Throughout step allowed start actions property)
    (run : Run step allowed start actions final) : property final :=
  all actions [] final (by simp) run

theorem Run.restrict {meets : α → Prop} (run : Run step allowed start actions final)
    (all : ∀ action ∈ actions, meets action) :
    Run step (Both allowed fun _ action => meets action) start actions final := by
  induction run with
  | nil => exact .nil
  | snoc _ permitted stepped ih =>
    have last := all _ (List.mem_append_right _ (List.mem_singleton_self _))
    exact .snoc (ih fun action member => all action (List.mem_append_left _ member)) ⟨permitted, last⟩ stepped

theorem Run.permitted (run : Run step allowed start actions final) :
    ∀ action ∈ actions, ∃ state, allowed state action := by
  induction run with
  | nil => simp
  | snoc _ permitted _ ih =>
    intro action member
    rcases List.mem_append.mp member with member | member
    · exact ih action member
    · exact List.mem_singleton.mp member ▸ ⟨_, permitted⟩

/-- Either all steps met the extra guard, or the first one that did not left a
debt that no later step pays off. -/
theorem Run.good_or_debt (kept debt : σ → Prop) (run : Run step allowed start actions final)
    (initial : kept start)
    (preserved : ∀ state action next, kept state → allowed state action →
      step state action = some next → kept next)
    (violated : ∀ state action next, kept state → allowed state action →
      step state action = some next → ¬ good state action → debt next)
    (owed : ∀ state action next, kept state → debt state → allowed state action →
      step state action = some next → debt next) :
    Run step (Both allowed good) start actions final ∨ debt final := by
  induction run with
  | nil => exact .inl .nil
  | @snoc actions state action next earlier permitted stepped ih =>
    have invariant := earlier.invariant kept initial preserved
    rcases ih with ih | ih
    · by_cases met : good state action
      · exact .inl (.snoc ih ⟨permitted, met⟩ stepped)
      · exact .inr (violated _ _ _ invariant permitted stepped met)
    · exact .inr (owed _ _ _ invariant ih permitted stepped)

/-- A property kept by the steps that meet the extra guard and broken by the
others holds throughout exactly the runs whose steps all meet it. -/
theorem Run.throughout_iff (kept property : σ → Prop) (run : Run step allowed start actions final)
    (initial : kept start)
    (preserved : ∀ state action next, kept state → allowed state action → good state action →
      step state action = some next → kept next)
    (holds : ∀ state, kept state → property state)
    (broken : ∀ state action next, kept state → allowed state action → ¬ good state action →
      step state action = some next → ¬ property next) :
    Throughout step allowed start actions property ↔
      Run step (Both allowed good) start actions final := by
  constructor
  · intro all
    induction run with
    | nil => exact .nil
    | @snoc actions state action next earlier permitted stepped ih =>
      have before := ih all.earlier
      have invariant := before.invariant kept initial
        (fun _ _ _ held met taken => preserved _ _ _ held met.1 met.2 taken)
      by_cases met : good state action
      · exact .snoc before ⟨permitted, met⟩ stepped
      · exact absurd (all.last (.snoc earlier permitted stepped))
          (broken _ _ _ invariant permitted met stepped)
  · intro guarded first later state same reached
    subst same
    apply holds
    obtain ⟨middle, prior⟩ := guarded.prior
    rw [← prior.determined reached]
    exact prior.invariant kept initial
      (fun _ _ _ held met taken => preserved _ _ _ held met.1 met.2 taken)

def execute (step : σ → α → Option σ) (allowed : σ → α → Prop)
    [∀ state action, Decidable (allowed state action)] (start : σ) : List α → Option σ
  | [] => some start
  | action :: rest =>
    if allowed start action then (step start action).bind fun next => execute step allowed next rest
    else none

theorem run_of_execute [∀ state action, Decidable (allowed state action)]
    (executed : execute step allowed start actions = some final) :
    Run step allowed start actions final := by
  induction actions generalizing start with
  | nil =>
    cases executed
    exact .nil
  | cons action rest ih =>
    simp only [execute] at executed
    split at executed
    next permitted =>
      obtain ⟨next, stepped, executed⟩ := Option.bind_eq_some_iff.mp executed
      have first : Run step allowed start [action] next := .snoc .nil permitted stepped
      exact first.append (ih executed)
    next => cases executed

/-- A concrete run found by evaluation, with a check of its last state. -/
theorem reaches_of_execute [∀ state action, Decidable (allowed state action)] {check : σ → Prop}
    (checked : ∃ final ∈ execute step allowed start actions, check final) :
    ∃ final, Run step allowed start actions final ∧ check final := by
  obtain ⟨final, executed, meets⟩ := checked
  exact ⟨final, run_of_execute executed, meets⟩

end DeviceDrivers.Runs
