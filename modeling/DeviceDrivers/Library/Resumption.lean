import DeviceDrivers.Library.Runs

/-! Items handed over in pieces to something that reports how many it has taken of
each. The next piece starts behind the items that were reported. -/

namespace DeviceDrivers.Resumption
open Runs

universe u v

structure Transfer (σ : Type u) where
  position : Nat
  device : σ

/-- A call with the `count` items from `position` on, and what it returns. -/
abbrev Method (σ : Type u) := σ → (position count : Nat) → Int × σ

variable {σ : Type u} {β : Type v} {method : Method σ} {allowed : Transfer σ → Nat → Prop} {device : σ}
variable {counts : List Nat} {final : Transfer σ} {length : Nat}

/-- An error ends the transfer. -/
def step (method : Method σ) (t : Transfer σ) (count : Nat) : Option (Transfer σ) :=
  match method t.device t.position count with
  | (result, device) => if result < 0 then none else some ⟨t.position + result.toNat, device⟩

/-- Pieces of `length` items. An empty one may come anywhere. -/
def Within (length : Nat) (t : Transfer σ) (count : Nat) : Prop := t.position + count ≤ length

instance (t : Transfer σ) (count : Nat) : Decidable (Within length t count) := inferInstanceAs (Decidable (_ ≤ _))

theorem step_one {t next : Transfer σ} {count : Nat} (one : (method t.device t.position count).1 = 1)
    (stepped : step method t count = some next) :
    next = ⟨t.position + 1, (method t.device t.position count).2⟩ := by
  simp only [step, one] at stepped
  cases stepped
  rfl

def begin (device : σ) : Transfer σ := ⟨0, device⟩

section One
variable (ones : ∀ device position count, (method device position count).1 = 1)
include ones

/-- Where one item is reported whatever the piece, pieces start at items that follow each other. -/
theorem position_of_one (run : Run (step method) allowed (begin device) counts final) :
    final.position = counts.length := by
  induction run with
  | nil => rfl
  | snoc _ _ stepped ih =>
    rw [step_one (ones _ _ _) stepped, ih, List.length_append, List.length_singleton]

theorem within_of_one (run : Run (step method) (Within length) (begin device) counts final) {index count : Nat}
    (piece : counts[index]? = some count) : index + count ≤ length := by
  induction run with
  | nil => cases piece
  | @snoc counts state last next earlier permitted stepped ih =>
    rw [List.getElem?_append] at piece
    split at piece
    next => exact ih piece
    next beyond =>
      have same : index = counts.length := by
        have here := (List.getElem?_eq_some_iff.mp piece).1
        rw [List.length_singleton] at here
        omega
      have last : last = count := by simpa [same] using piece
      rw [same, ← last, ← position_of_one ones earlier]
      exact permitted

/-- A log to which each call appends one entry has the entries of all pieces in order. -/
theorem log_of_one {log : σ → List β} {entry : (position count : Nat) → β}
    (appends : ∀ device position count, log (method device position count).2 = log device ++ [entry position count])
    (run : Run (step method) allowed (begin device) counts final) :
    log final.device = log device ++ counts.mapIdx entry := by
  induction run with
  | nil => simp [begin]
  | @snoc counts state last next earlier permitted stepped ih =>
    rw [step_one (ones _ _ _) stepped]
    change log (method state.device state.position last).2 = log device ++ (counts ++ [last]).mapIdx entry
    rw [appends, ih, position_of_one ones earlier, List.mapIdx_concat, List.append_assoc]

end One

end DeviceDrivers.Resumption
