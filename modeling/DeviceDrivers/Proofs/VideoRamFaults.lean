import DeviceDrivers.Proofs.VideoRamFile

/-! What a call leaves behind that a fault has stopped. The bytes moved before the
fault stay moved, but neither the result nor the position counts them, so a call is
all or nothing only where a fault is met at the first byte. -/

namespace DeviceDrivers.VideoRam
open Kernel

variable {memory : Memory} {user : UserBuffer} {off : Int} {i left : Nat} {copy : Copy}

/-- A loop from byte `i` on has moved `moved` bytes: all, or those before the first
that faults. -/
structure Ended (user : UserBuffer) (i left : Nat) (complete : Bool) (moved : Nat) : Prop where
  clear : ∀ j < moved, user.faults (i + j) = false
  all : complete = true → moved = left
  stopped : complete = false → moved < left ∧ i + moved < 2 ^ 31 ∧ user.faults (i + moved) = true

theorem Ended.fault (small : i < 2 ^ 31) (fault : user.faults i = true) : Ended user i (left + 1) false 0 :=
  ⟨fun _ none => absurd none (Nat.not_lt_zero _), by simp, fun _ => ⟨Nat.succ_pos _, small, fault⟩⟩

theorem Ended.next {complete : Bool} {moved : Nat} (clear : user.faults i = false)
    (rest : Ended user (i + 1) left complete moved) : Ended user i (left + 1) complete (moved + 1) := by
  have shift (j : Nat) : i + (j + 1) = i + 1 + j := by omega
  refine ⟨?_, fun all => by rw [rest.all all], ?_⟩
  · intro j inside
    cases j with
    | zero => exact clear
    | succ j =>
      rw [shift]
      exact rest.clear j (by omega)
  · intro stopped
    obtain ⟨inside, small, fault⟩ := rest.stopped stopped
    rw [shift]
    exact ⟨by omega, small, fault⟩

private theorem readLoop_ended (small : i < 2 ^ 31) (ended : readLoop memory user off i left = some copy) :
    Ended user i left copy.complete copy.given.length ∧ copy.memory = memory := by
  induction left generalizing i copy with
  | zero =>
    cases ended
    exact ⟨⟨by simp, by simp, by simp⟩, rfl⟩
  | succ left ih =>
    rw [readLoop] at ended
    split at ended
    next fault =>
      cases ended
      exact ⟨.fault small fault, rfl⟩
    next clear =>
      split at ended
      next => cases ended
      next more =>
        obtain ⟨rest, run, rfl⟩ := Option.map_eq_some_iff.mp ended
        obtain ⟨ended, same⟩ := ih (by omega) run
        exact ⟨ended.next (by simpa using clear), same⟩

private theorem writeLoop_ended (small : i < 2 ^ 31) (ended : writeLoop memory user off i left = some copy) :
    Ended user i left copy.complete copy.touched.length ∧
      copy.memory = (stores (user.skip i) (off + i) copy.touched.length).foldl Store.apply memory := by
  induction left generalizing i memory copy with
  | zero =>
    cases ended
    exact ⟨⟨by simp, by simp, by simp⟩, rfl⟩
  | succ left ih =>
    rw [writeLoop] at ended
    split at ended
    next fault =>
      cases ended
      exact ⟨.fault small fault, rfl⟩
    next clear =>
      split at ended
      next => cases ended
      next more =>
        obtain ⟨rest, run, rfl⟩ := Option.map_eq_some_iff.mp ended
        obtain ⟨ended, same⟩ := ih (by omega) run
        have next : (off + (i : Int)) + 1 = off + ((i + 1 : Nat) : Int) := by omega
        refine ⟨ended.next (by simpa using clear), same.trans ?_⟩
        rw [List.length_cons, stores_succ, UserBuffer.skip_skip, next]
        rfl

private theorem readLoop_returns {k : Nat} (inside : k < left) (small : i + k < 2 ^ 31)
    (fault : user.faults (i + k) = true) :
    ∃ copy, readLoop memory user off i left = some copy := by
  induction left generalizing i k with
  | zero => omega
  | succ left ih =>
    rw [readLoop]
    split
    next => exact ⟨_, rfl⟩
    next clear =>
      cases k with
      | zero => exact absurd fault clear
      | succ k =>
        obtain ⟨copy, rest⟩ := ih (i := i + 1) (k := k) (by omega) (by omega) (by rw [← fault]; congr 1; omega)
        rw [if_neg (by omega), rest]
        exact ⟨_, rfl⟩

private theorem writeLoop_returns {k : Nat} (inside : k < left) (small : i + k < 2 ^ 31)
    (fault : user.faults (i + k) = true) :
    ∃ copy, writeLoop memory user off i left = some copy := by
  induction left generalizing i k memory with
  | zero => omega
  | succ left ih =>
    rw [writeLoop]
    split
    next => exact ⟨_, rfl⟩
    next clear =>
      cases k with
      | zero => exact absurd fault clear
      | succ k =>
        obtain ⟨copy, rest⟩ := @ih (Function.update memory (off + i) (user.byte i)) (i + 1) k (by omega) (by omega)
          (by rw [← fault]; congr 1; omega)
        rw [if_neg (by omega), rest]
        exact ⟨_, rfl⟩

namespace Call

def loop (memory : Memory) : Call → Option Copy
  | .read user len off => readLoop memory user off 0 (clamp off len)
  | .write user len off => writeLoop memory user off 0 (clamp off len)

private theorem run_eq (memory : Memory) (call : Call) : call.run memory =
    if vramSize ≤ call.off then some ⟨0, call.off, [], memory, []⟩
    else (call.loop memory).map (finish call.off (clamp call.off call.len)) := by
  cases call <;> rfl

def transferred (call : Call) (given : List UInt8) (touched : List Int) : Nat :=
  if call.reads then given.length else touched.length

private theorem loop_ended {call : Call} (ended : call.loop memory = some copy) :
    Ended call.user 0 (clamp call.off call.len) copy.complete (call.transferred copy.given copy.touched) ∧
      (call.transferred copy.given copy.touched = 0 → copy.memory = memory) := by
  cases call with
  | read user len off =>
    obtain ⟨ended, same⟩ := readLoop_ended (by omega) ended
    exact ⟨ended, fun _ => same⟩
  | write user len off =>
    obtain ⟨ended, same⟩ := writeLoop_ended (by omega) ended
    refine ⟨ended, fun none => same.trans ?_⟩
    have none : copy.touched.length = 0 := none
    simp [none, VideoRam.stores]

private theorem loop_returns {call : Call} {k : Nat} (inside : k < clamp call.off call.len) (small : k < 2 ^ 31)
    (fault : call.user.faults k = true) : ∃ copy, call.loop memory = some copy := by
  rw [← Nat.zero_add k] at small fault
  cases call with
  | read => exact readLoop_returns inside small fault
  | write => exact writeLoop_returns inside small fault

/-- A negative result leaves memory and position as they were, and bytes that were
moved are the result and the advance of the position. -/
structure Atomic (memory : Memory) (call : Call) (outcome : Outcome) : Prop where
  unchanged : outcome.result < 0 → outcome.memory = memory ∧ outcome.position = call.off
  accounted : 0 < call.transferred outcome.given outcome.touched →
    outcome.result = call.transferred outcome.given outcome.touched ∧
      outcome.position = call.off + call.transferred outcome.given outcome.touched

/-- The call is made at the end of the window or past it, or it meets a fault at its
first byte if it can meet any. -/
def FirstFaults (call : Call) : Prop :=
  vramSize ≤ call.off ∨
    ∀ k < clamp call.off call.len, k < 2 ^ 31 → call.user.faults k = true → call.user.faults 0 = true

private theorem atomic_finish {call : Call} (ended : call.loop memory = some copy) :
    Atomic memory call (finish call.off (clamp call.off call.len) copy) ↔
      (copy.complete = false → call.transferred copy.given copy.touched = 0) := by
  obtain ⟨⟨_, all, _⟩, same⟩ := loop_ended ended
  cases complete : copy.complete with
  | true =>
    have moved := all complete
    simp only [finish, complete, if_true]
    refine ⟨by simp, fun _ => ⟨fun negative => ?_, fun _ => ?_⟩⟩
    · exact absurd negative (by simp)
    · exact ⟨by simp [moved], by simp [moved]⟩
  | false =>
    simp only [finish, complete, Bool.false_eq_true, if_false, forall_const]
    constructor
    · intro atomic
      by_contra some
      have result := (atomic.accounted (Nat.pos_of_ne_zero some)).1
      simp only at result
      omega
    · intro none
      exact ⟨fun _ => ⟨same none, rfl⟩, fun some => absurd none (Nat.ne_of_gt some)⟩

end Call

/-- A call at any position, of any length and over any faults is all or nothing
exactly if no fault is met after the first byte. -/
theorem atomic_iff (memory : Memory) (call : Call) :
    (∀ outcome, call.run memory = some outcome → call.Atomic memory outcome) ↔ call.FirstFaults := by
  rw [Call.run_eq]
  by_cases past : vramSize ≤ call.off
  · rw [if_pos past]
    refine ⟨fun _ => .inl past, fun _ outcome same => ?_⟩
    cases same
    exact ⟨by simp, by simp [Call.transferred]⟩
  · rw [if_neg past, Call.FirstFaults, or_iff_right past]
    constructor
    · intro atomic k inside small fault
      obtain ⟨copy, run⟩ := @Call.loop_returns memory call k inside small fault
      have none := (Call.atomic_finish run).mp (atomic _ (by rw [run]; rfl))
      obtain ⟨clear, all, stopped⟩ := (Call.loop_ended run).1
      cases complete : copy.complete with
      | true =>
        have early := clear k (by rw [all complete]; exact inside)
        rw [Nat.zero_add, fault] at early
        cases early
      | false =>
        have first := (stopped complete).2.2
        rwa [none complete] at first
    · intro first outcome same
      obtain ⟨copy, run, rfl⟩ := Option.map_eq_some_iff.mp same
      apply (Call.atomic_finish run).mpr
      intro incomplete
      obtain ⟨clear, _, stopped⟩ := (Call.loop_ended run).1
      obtain ⟨inside, small, fault⟩ := stopped incomplete
      rw [Nat.zero_add] at small fault
      by_contra some
      have early := clear 0 (Nat.pos_of_ne_zero some)
      rw [Nat.zero_add, first _ inside small fault] at early
      cases early

def torn : Call := .write { byte := fun _ => 0x41, faults := fun offset => 2 ≤ offset } 3 0

/-- Two bytes are in the video memory, and the caller is told that nothing was written. -/
theorem torn_write : ¬ ∀ (memory : Memory) (call : Call) (outcome : Outcome),
    call.run memory = some outcome → call.Atomic memory outcome := by
  intro claim
  have stored : (torn.run fun _ => 0).map (fun outcome => (outcome.result, outcome.memory 0)) = some (-14, 0x41) := by
    decide
  obtain ⟨outcome, run, same⟩ := Option.map_eq_some_iff.mp stored
  obtain ⟨result, byte⟩ := Prod.mk.inj same
  have kept := ((claim _ _ outcome run).unchanged (by rw [result]; decide)).1
  rw [kept] at byte
  exact absurd byte (by decide)

end DeviceDrivers.VideoRam
