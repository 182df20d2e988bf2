import Mathlib.Data.List.Basic

/-! Working off a queue by attempts that may fail, until a quota of them has
succeeded. A failed attempt uses up an item and nothing of the quota. -/

namespace DeviceDrivers.Quotas

universe u
variable {α : Type u} {outcome : Nat → Bool} {quota : Nat} {item : α} {items queue done left : List α}

def later (outcome : Nat → Bool) : Nat → Bool := fun attempt => outcome (attempt + 1)

/-- The items whose attempts succeed, in order. -/
def successes (outcome : Nat → Bool) : List α → List α
  | [] => []
  | item :: rest => if outcome 0 then item :: successes (later outcome) rest else successes (later outcome) rest

def failures (outcome : Nat → Bool) (items : List α) : List α := successes (fun attempt => !outcome attempt) items

@[simp] theorem successes_nil : successes outcome ([] : List α) = [] := rfl
@[simp] theorem failures_nil : failures outcome ([] : List α) = [] := rfl

theorem successes_cons : successes outcome (item :: items) =
    (if outcome 0 then [item] else []) ++ successes (later outcome) items := by
  rw [successes]
  split <;> rfl

theorem failures_cons : failures outcome (item :: items) =
    (if outcome 0 then [] else [item]) ++ failures (later outcome) items := by
  rw [failures, successes_cons]
  cases outcome 0 <;> rfl

theorem successes_add_failures :
    (successes outcome items).length + (failures outcome items).length = items.length := by
  induction items generalizing outcome with
  | nil => rfl
  | cons item items ih =>
    have rest := @ih (later outcome)
    rw [successes_cons, failures_cons]
    cases outcome 0 <;>
      · simp only [List.length_append, List.length_cons, List.length_nil, if_true, if_false, Bool.false_eq_true]
        omega

theorem successes_length_le : (successes outcome items).length ≤ items.length := Nat.le.intro successes_add_failures

theorem successes_append (first last : List α) : successes outcome (first ++ last) =
    successes outcome first ++ successes (fun attempt => outcome (attempt + first.length)) last := by
  induction first generalizing outcome with
  | nil => rfl
  | cons item first ih =>
    rw [List.cons_append, successes_cons, successes_cons, ih, List.append_assoc]
    rfl

theorem successes_eq_nil : successes outcome items = [] ↔ ∀ attempt < items.length, outcome attempt = false := by
  induction items generalizing outcome with
  | nil => simp
  | cons item items ih =>
    rw [successes_cons, List.append_eq_nil_iff, ih, List.length_cons, Nat.forall_lt_succ_left]
    cases outcome 0 <;> simp [later]

/-- `done` is the shortest prefix of the queue in which the quota of attempts
succeeds, the whole queue if there is none. -/
structure WorkedOff (outcome : Nat → Bool) (quota : Nat) (queue done left : List α) : Prop where
  split : queue = done ++ left
  enough : left ≠ [] → (successes outcome done).length = quota
  needed : ∀ earlier, earlier <+: done → earlier ≠ done → (successes outcome earlier).length < quota

namespace WorkedOff

theorem finished : WorkedOff outcome 0 queue [] queue := by
  refine ⟨rfl, fun _ => rfl, ?_⟩
  intro earlier within proper
  exact absurd (List.prefix_nil.mp within) proper

theorem exhausted : WorkedOff outcome quota ([] : List α) [] [] := by
  refine ⟨rfl, fun some => absurd rfl some, ?_⟩
  intro earlier within proper
  exact absurd (List.prefix_nil.mp within) proper

/-- One attempt on the first item, then the rest of the queue. -/
theorem attempt {spent : Nat} (wanted : 0 < quota) (used : spent = (outcome 0).toNat)
    (rest : WorkedOff (later outcome) (quota - spent) queue done left) :
    WorkedOff outcome quota (item :: queue) (item :: done) left := by
  have counted (items : List α) :
      (successes outcome (item :: items)).length = spent + (successes (later outcome) items).length := by
    rw [successes_cons, used]
    cases outcome 0 <;> simp [Nat.add_comm]
  have bounded : spent ≤ 1 := used ▸ Bool.toNat_le _
  refine ⟨by rw [rest.split, List.cons_append], ?_, ?_⟩
  · intro some
    have := rest.enough some
    have := counted done
    omega
  · intro earlier within proper
    rcases List.prefix_cons_iff.mp within with rfl | ⟨shorter, rfl, inside⟩
    · exact wanted
    · have := rest.needed shorter inside fun same => proper (by rw [same])
      have := counted shorter
      omega

variable (worked : WorkedOff outcome quota queue done left)
include worked

theorem successes_le : (successes outcome done).length ≤ quota := by
  rcases List.eq_nil_or_concat done with rfl | ⟨earlier, last, rfl⟩
  · exact Nat.zero_le _
  · rw [List.concat_eq_append] at worked ⊢
    have fewer := worked.needed earlier (List.prefix_append ..) (by simp)
    have one := @successes_length_le _ (fun attempt => outcome (attempt + earlier.length)) [last]
    rw [List.length_singleton] at one
    rw [successes_append, List.length_append]
    omega

/-- Something is left if the queue without its last item is enough for the quota. -/
theorem left_iff : left ≠ [] ↔ queue ≠ [] ∧ quota ≤ (successes outcome queue.dropLast).length := by
  constructor
  · intro some
    refine ⟨fun none => some (List.append_eq_nil_iff.mp (worked.split.symm.trans none)).2, ?_⟩
    rw [worked.split, List.dropLast_append_of_ne_nil some, successes_append, List.length_append, worked.enough some]
    exact Nat.le_add_right _ _
  · rintro ⟨some, enough⟩ none
    have all : done = queue := by rw [worked.split, none, List.append_nil]
    subst all
    have wanting := worked.needed done.dropLast (List.dropLast_prefix done) fun same => ?_
    · omega
    · have lengths := congrArg List.length same
      have waiting := List.length_pos_iff.mpr some
      rw [List.length_dropLast] at lengths
      omega

private theorem fewer {attempts : Nat} (before : attempts < done.length) :
    (successes outcome (done.take attempts)).length < quota := by
  apply worked.needed _ (List.take_prefix ..)
  intro same
  have lengths := congrArg List.length same
  rw [List.length_take] at lengths
  omega

theorem done_length_le_iff :
    done.length ≤ quota ↔ queue.length ≤ quota ∨ ∀ attempt < quota, outcome attempt = true := by
  have whole : queue.length = done.length + left.length := by rw [worked.split, List.length_append]
  constructor
  · intro within
    by_cases some : left = []
    · rw [some, List.length_nil] at whole
      exact .inl (by omega)
    · have succeeded := worked.enough some
      have together := @successes_add_failures _ outcome done
      have flawless : failures outcome done = [] := List.length_eq_zero_iff.mp (by omega)
      right
      intro attempt below
      have succeeds := successes_eq_nil.mp flawless attempt (by omega)
      simpa using succeeds
  · rintro (short | flawless)
    · omega
    · by_contra more
      have wanting := worked.fewer (Nat.lt_of_not_le more)
      have none : failures outcome (done.take quota) = [] := by
        apply successes_eq_nil.mpr
        intro attempt below
        rw [List.length_take] at below
        rw [flawless attempt (by omega)]
        rfl
      have together := @successes_add_failures _ outcome (done.take quota)
      rw [none, List.length_take] at together
      simp only [List.length_nil] at together
      omega

end WorkedOff

end DeviceDrivers.Quotas
