import Mathlib.Logic.Function.Basic
import Mathlib.Data.List.Nodup

/-! Singly linked lists threaded through a `next` field. A chain names the
cells a traversal visits, so several lists can share the field as long as
their cells are disjoint. -/

namespace DeviceDrivers.Chains

universe u

variable {α : Type u} {next other : α → Option α} {head : Option α} {cell : α} {cells : List α}

/-- Following `next` from `head` visits exactly `cells` and then ends. -/
inductive Chain (next : α → Option α) : Option α → List α → Prop where
  | nil : Chain next none []
  | cons {cell rest} (tail : Chain next (next cell) rest) : Chain next (some cell) (cell :: rest)

@[simp] theorem chain_none : Chain next none cells ↔ cells = [] := by
  constructor
  · intro chain
    cases chain
    rfl
  · rintro rfl
    exact .nil

@[simp] theorem chain_some :
    Chain next (some cell) cells ↔ ∃ rest, cells = cell :: rest ∧ Chain next (next cell) rest := by
  constructor
  · intro chain
    cases chain with
    | cons tail => exact ⟨_, rfl, tail⟩
  · rintro ⟨rest, rfl, tail⟩
    exact .cons tail

theorem Chain.nil_iff (chain : Chain next head cells) : cells = [] ↔ head = none := by
  cases chain <;> simp

theorem Chain.head_mem (chain : Chain next (some cell) cells) : cell ∈ cells := by
  obtain ⟨rest, rfl, _⟩ := chain_some.mp chain
  simp

theorem Chain.front (chain : Chain next head (cell :: cells)) : head = some cell ∧ Chain next (next cell) cells := by
  cases chain with
  | cons tail => exact ⟨rfl, tail⟩

theorem Chain.frame (chain : Chain next head cells)
    (agree : ∀ cell ∈ cells, other cell = next cell) : Chain other head cells := by
  induction chain with
  | nil => exact .nil
  | @cons cell rest tail ih =>
    have same := agree cell (by simp)
    exact .cons (same ▸ ih (fun cell member => agree cell (by simp [member])))

theorem Chain.unique {visited : List α} (chain : Chain next head cells) (again : Chain next head visited) :
    cells = visited := by
  induction chain generalizing visited with
  | nil => exact (chain_none.mp again).symm
  | cons tail ih =>
    obtain ⟨rest, rfl, tail'⟩ := chain_some.mp again
    rw [ih tail']

theorem Chain.suffix {before : List α} (chain : Chain next head (before ++ cell :: cells)) :
    Chain next (some cell) (cell :: cells) := by
  induction before generalizing head with
  | nil => exact .cons chain.front.2
  | cons first before ih => exact ih chain.front.2

/-- A traversal that ends has no cycle to run around. -/
theorem Chain.nodup (chain : Chain next head cells) : cells.Nodup := by
  induction chain with
  | nil => exact .nil
  | @cons cell rest tail ih =>
    refine List.nodup_cons.mpr ⟨?_, ih⟩
    intro visited
    obtain ⟨before, after, shape⟩ := List.append_of_mem visited
    have again : cell :: rest = cell :: after := (Chain.cons tail).unique (shape ▸ tail).suffix
    have lengths := congrArg List.length again
    simp only [shape, List.length_cons, List.length_append] at lengths
    omega

section Operations
variable [DecidableEq α]

theorem Chain.untouched (chain : Chain next head cells) (absent : cell ∉ cells) (value : Option α) :
    Chain (Function.update next cell value) head cells := by
  apply chain.frame
  intro visited member
  have different : visited ≠ cell := by
    rintro rfl
    exact absent member
  exact Function.update_of_ne different _ _

/-- Linking a cell in front of the head. -/
theorem Chain.push (chain : Chain next head cells) (absent : cell ∉ cells) :
    Chain (Function.update next cell head) (some cell) (cell :: cells) :=
  .cons (by simpa using chain.untouched absent head)

end Operations

end DeviceDrivers.Chains
