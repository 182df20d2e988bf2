import Mathlib.Data.List.Nodup

/-! A list used at its front only, with the record of what has entered and
left it. Items come out in the order in which they went in as long as each one
is alone when it leaves. -/

namespace DeviceDrivers.Stacks

universe u

structure Traffic (α : Type u) where
  waiting : List α
  entered : List α
  left : List α

variable {α : Type u} {t : Traffic α} {item : α} {rest : List α}

namespace Traffic

def push (t : Traffic α) (item : α) : Traffic α :=
  { t with waiting := item :: t.waiting, entered := t.entered ++ [item] }

def pop (t : Traffic α) : Traffic α :=
  match t.waiting with
  | [] => t
  | item :: rest => { t with waiting := rest, left := t.left ++ [item] }

def InOrder (t : Traffic α) : Prop := t.left <+: t.entered

/-- What entered is what left, followed by what waits: the last in front. -/
def Accounted (t : Traffic α) : Prop := t.entered = t.left ++ t.waiting.reverse

theorem Accounted.inOrder (accounted : t.Accounted) : t.InOrder := ⟨_, accounted.symm⟩

theorem Accounted.push (accounted : t.Accounted) (item : α) : (t.push item).Accounted := by
  simp only [Accounted, Traffic.push, List.reverse_cons]
  rw [accounted, List.append_assoc]

theorem Accounted.pop_alone (accounted : t.Accounted) (alone : t.waiting = [item]) : t.pop.Accounted := by
  simpa [Accounted, Traffic.pop, alone] using accounted

/-- The front item came last, so it overtakes whatever else is waiting. -/
theorem Accounted.pop_overtakes (accounted : t.Accounted) (distinct : t.waiting.Nodup)
    (front : t.waiting = item :: rest) (others : rest ≠ []) : ¬ t.pop.InOrder := by
  intro ordered
  rw [front, List.nodup_cons] at distinct
  simp only [InOrder, Traffic.pop, front] at ordered
  rw [accounted, front, List.prefix_append_right_inj] at ordered
  obtain ⟨first, before, shape⟩ := List.exists_cons_of_ne_nil (List.reverse_ne_nil_iff.mpr others)
  rw [List.reverse_cons, shape, List.cons_append, List.cons_prefix_cons] at ordered
  apply distinct.1
  rw [ordered.1, ← List.mem_reverse, shape]
  exact List.mem_cons_self

end Traffic

end DeviceDrivers.Stacks
