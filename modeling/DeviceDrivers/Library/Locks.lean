import DeviceDrivers.Library.Interleavings

/-! Interleaved calls that share one lock. While the lock is free the resource it
protects satisfies its invariant; a call that holds the lock may rely on what it knows
of the resource, since nobody else touches it. -/

namespace DeviceDrivers.Locks
open Runs Interleavings

universe u v

/-- How often the lock can be taken, which calls hold it, and what is true of the
shared state while nobody does. -/
structure Lock (σ : Type u) (κ : Type v) where
  free : σ → Nat
  holds : κ → Bool
  resource : σ → Prop

variable {σ : Type u} {κ : Type v} {step : Step σ κ} {lock : Lock σ κ} {assertion : σ → κ → Prop} {m : System σ κ}

/-- The lock is free or one call has it, and every call is where its assertion holds. -/
structure Guarded (lock : Lock σ κ) (assertion : σ → κ → Prop) (m : System σ κ) : Prop where
  one : lock.free m.shared + m.calls.countP lock.holds = 1
  resource : 0 < lock.free m.shared → lock.resource m.shared
  asserted : Asserted assertion m

/-- One step of a call, seen from the lock. It takes or gives back what it counts, keeps
its own assertion and hands the resource over in order. Of those that hold the lock it has
to respect the assertion only where it has not got the lock itself and cannot get it. -/
structure Disciplined (lock : Lock σ κ) (assertion : σ → κ → Prop) (s : σ) (call : κ) (progress : Progress κ) (s' : σ) :
    Prop where
  balance : lock.free s' + progress.calls.countP lock.holds = lock.free s + [call].countP lock.holds
  own : ∀ next ∈ progress.calls, assertion s' next
  resource : 0 < lock.free s' → lock.resource s'
  others : ∀ other, (lock.holds other = true → lock.holds call = false ∧ lock.free s = 0) → assertion s other →
    assertion s' other

theorem Guarded.apart {before after : List κ} {call : κ} (guarded : Guarded lock assertion m)
    (shape : m.calls = before ++ call :: after) :
    ∀ other ∈ before ++ after, lock.holds other = true → lock.holds call = false ∧ lock.free m.shared = 0 := by
  intro other member holding
  have one := guarded.one
  have counted := count_pos member holding
  rw [shape, List.countP_append, List.countP_cons] at one
  rw [List.countP_append] at counted
  refine ⟨?_, by omega⟩
  rw [← Bool.not_eq_true]
  intro also
  rw [if_pos also] at one
  omega

theorem Guarded.taken {call : κ} (guarded : Guarded lock assertion m) (member : call ∈ m.calls)
    (holding : lock.holds call = true) : lock.free m.shared = 0 := by
  have one := guarded.one
  have counted := count_pos member holding
  omega

theorem Guarded.replaced {before after : List κ} {call : κ} {progress : Progress κ} {shared : σ}
    (guarded : Guarded lock assertion m) (shape : m.calls = before ++ call :: after)
    (disciplined : Disciplined lock assertion m.shared call progress shared) :
    Guarded lock assertion ⟨shared, before ++ progress.calls ++ after⟩ := by
  refine ⟨?_, disciplined.resource, ?_⟩
  · have counted := count_replaced lock.holds before after progress.calls call
    have balance := disciplined.balance
    have one := guarded.one
    rw [shape] at one
    change lock.free shared + (before ++ progress.calls ++ after).countP lock.holds = 1
    omega
  · apply guarded.asserted.replaced shape
    · exact fun _ => disciplined.own
    · intro other member held
      exact disciplined.others other (guarded.apart shape other member) held

theorem Guarded.joined {call : κ} {shared : σ} (guarded : Guarded lock assertion m)
    (same : lock.free shared = lock.free m.shared) (outside : lock.holds call = false)
    (resource : lock.resource m.shared → lock.resource shared)
    (others : ∀ other, assertion m.shared other → assertion shared other) (first : assertion shared call) :
    Guarded lock assertion ⟨shared, m.calls ++ [call]⟩ := by
  refine ⟨?_, ?_, ?_⟩
  · have one := guarded.one
    change lock.free shared + (m.calls ++ [call]).countP lock.holds = 1
    rw [List.countP_append, List.countP_singleton, outside, same]
    simpa using one
  · intro free
    exact resource (guarded.resource (same ▸ free))
  · exact all_started (fun other member => others other (guarded.asserted other member)) first

/-- No deadlock: whoever holds the lock can go on, and so can everybody once it is free. -/
theorem Guarded.lively (guarded : Guarded lock assertion m)
    (holding : ∀ call ∈ m.calls, lock.holds call = true → (step m.shared call).isSome = true)
    (waiting : 0 < lock.free m.shared → ∀ call ∈ m.calls, lock.holds call = false → (step m.shared call).isSome = true)
    (stuck : ∀ index, m.run step index = none) : m.calls = [] := by
  have blocked : ∀ call ∈ m.calls, step m.shared call = none := by
    intro call member
    obtain ⟨index, inside, rfl⟩ := List.mem_iff_getElem.mp member
    have none := stuck index
    simpa [System.run, List.getElem?_eq_getElem inside] using none
  have nobody : ∀ call ∈ m.calls, lock.holds call = false := by
    intro call member
    rw [← Bool.not_eq_true]
    intro has
    have some := holding call member has
    rw [blocked call member] at some
    cases some
  have free : 0 < lock.free m.shared := by
    have one := guarded.one
    rw [List.countP_eq_zero.mpr fun call member => by simp [nobody call member]] at one
    omega
  apply List.eq_nil_iff_forall_not_mem.mpr
  intro call member
  have some := waiting free call member (nobody call member)
  rw [blocked call member] at some
  cases some

end DeviceDrivers.Locks
