import DeviceDrivers.Library.LatestWrite
import DeviceDrivers.VideoRam.Driver
import Mathlib.Algebra.GroupWithZero.Nat

/-! The video memory is a file of fixed size: a read returns what was stored last at
each offset, and a transfer may be made in pieces. -/

namespace DeviceDrivers.VideoRam
open Kernel LatestWrite

variable {memory : Memory} {user : UserBuffer} {off : Int} {len : Nat}

def moved (off : Int) (len : Nat) : Nat := if vramSize ≤ off then 0 else min len (vramSize - off).toNat

def window (off : Int) (count : Nat) : List Int := (List.range count).map fun (j : Nat) => off + j

abbrev Store := Int × UInt8

def Store.apply (memory : Memory) (store : Store) : Memory := Function.update memory store.1 store.2

def stores (user : UserBuffer) (off : Int) (count : Nat) : List Store :=
  (List.range count).map fun (j : Nat) => (off + j, user.byte j)

private theorem moved_inside (start : 0 ≤ off) {offset : Int} (member : offset ∈ window off (moved off len)) :
    0 ≤ offset ∧ offset < vramSize := by
  obtain ⟨j, small, rfl⟩ := List.mem_map.mp member
  rw [List.mem_range, moved] at small
  split at small <;> omega

private theorem clamp_moved (start : 0 ≤ off) (before : off < vramSize) (small : len < 2 ^ 31) :
    clamp off len = moved off len := by
  have size : (vramSize : Int) = 268435455 := rfl
  have sum : (off + len) % 2 ^ 64 = off + len := Int.emod_eq_of_lt (by omega) (by omega)
  have rest : ((vramSize : Int) - off) % 2 ^ 64 = vramSize - off := Int.emod_eq_of_lt (by omega) (by omega)
  simp only [clamp, moved, sum, rest]
  split <;> split <;> omega

private theorem window_add (off : Int) (first last : Nat) :
    window off (first + last) = window off first ++ window (off + first) last := by
  simp only [window, List.range_add, List.map_append, List.map_map, Function.comp_def]
  simp only [Int.natCast_add, Int.add_assoc]

private theorem stores_add (user : UserBuffer) (off : Int) (first last : Nat) :
    stores user off (first + last) = stores user off first ++ stores (user.skip first) (off + first) last := by
  simp only [stores, List.range_add, List.map_append, List.map_map, Function.comp_def]
  simp only [Int.natCast_add, Int.add_assoc, UserBuffer.skip_byte]

private theorem window_succ (off : Int) (count : Nat) : window off (count + 1) = off :: window (off + 1) count := by
  rw [Nat.add_comm, window_add]
  simp [window]

theorem stores_succ (user : UserBuffer) (off : Int) (count : Nat) :
    stores user off (count + 1) = (off, user.byte 0) :: stores (user.skip 1) (off + 1) count := by
  rw [Nat.add_comm, stores_add]
  simp [stores]

private theorem readLoop_eq (accessible : user.Accessible) (i left : Nat) (small : i + left < 2 ^ 31) :
    readLoop memory user off i left = some ⟨true, (window (off + i) left).map memory, memory, window (off + i) left⟩ := by
  induction left generalizing i with
  | zero => rfl
  | succ left ih =>
    have next : (off + (i : Int)) + 1 = off + ((i + 1 : Nat) : Int) := by omega
    rw [readLoop, accessible i, if_neg Bool.false_ne_true, if_neg (by omega), ih (i + 1) (by omega)]
    rw [window_succ, next]
    rfl

private theorem writeLoop_eq (accessible : user.Accessible) (i left : Nat) (small : i + left < 2 ^ 31) :
    writeLoop memory user off i left =
      some ⟨true, [], (stores (user.skip i) (off + i) left).foldl Store.apply memory, window (off + i) left⟩ := by
  induction left generalizing i memory with
  | zero => rfl
  | succ left ih =>
    have next : (off + (i : Int)) + 1 = off + ((i + 1 : Nat) : Int) := by omega
    rw [writeLoop, accessible i, if_neg Bool.false_ne_true, if_neg (by omega), ih (i + 1) (by omega)]
    rw [window_succ, stores_succ, UserBuffer.skip_skip, next]
    rfl

def readOf (memory : Memory) (_ : UserBuffer) (off : Int) (count : Nat) : Outcome :=
  ⟨count, off + count, (window off count).map memory, memory, window off count⟩

def writeOf (memory : Memory) (user : UserBuffer) (off : Int) (count : Nat) : Outcome :=
  ⟨count, off + count, [], (stores user off count).foldl Store.apply memory, window off count⟩

private theorem myRead_eq (start : 0 ≤ off) (small : len < 2 ^ 31) (accessible : user.Accessible) :
    myRead memory user len off = some (readOf memory user off (moved off len)) := by
  unfold myRead
  split
  next past => simp [moved, past, readOf, window]
  next before =>
    have few : moved off len ≤ len := by
      unfold moved
      split <;> omega
    rw [clamp_moved start (by omega) small, readLoop_eq accessible 0 _ (by omega)]
    simp [finish, readOf]

private theorem myWrite_eq (start : 0 ≤ off) (small : len < 2 ^ 31) (accessible : user.Accessible) :
    myWrite memory user len off = some (writeOf memory user off (moved off len)) := by
  unfold myWrite
  split
  next past => simp [moved, past, writeOf, window, stores]
  next before =>
    have few : moved off len ≤ len := by
      unfold moved
      split <;> omega
    rw [clamp_moved start (by omega) small, writeLoop_eq accessible 0 _ (by omega)]
    simp [finish, writeOf, UserBuffer.skip]

private theorem moved_add (off : Int) (first last : Nat) :
    moved off (first + last) = moved off first + moved (off + moved off first) last := by
  unfold moved
  split <;> split <;> omega

private theorem moved_short {first : Nat} (short : moved off first ≠ first) (last : Nat) :
    moved (off + moved off first) last = 0 := by
  unfold moved at *
  split at short
  next past => simp [past]
  next before =>
    rw [if_neg before, if_pos (by omega)]

def Outcome.join (first last : Outcome) : Outcome :=
  ⟨first.result + last.result, last.position, first.given ++ last.given, last.memory, first.touched ++ last.touched⟩

/-- What a transfer does, by the number of bytes it moves: nothing for none, and as
many in two goes as in one. -/
structure Divisible (done : Memory → UserBuffer → Int → Nat → Outcome) : Prop where
  zero : ∀ memory user off, done memory user off 0 = ⟨0, off, [], memory, []⟩
  position : ∀ memory user off count, (done memory user off count).position = off + count
  add : ∀ memory user off first last, done memory user off (first + last) =
    (done memory user off first).join (done (done memory user off first).memory (user.skip first) (off + first) last)

theorem Divisible.pieces {transfer : Memory → UserBuffer → Nat → Int → Option Outcome}
    {done : Memory → UserBuffer → Int → Nat → Outcome} (divisible : Divisible done)
    (does : ∀ memory user len off, 0 ≤ off → len < 2 ^ 31 → user.Accessible →
      transfer memory user len off = some (done memory user off (moved off len)))
    (memory : Memory) (user : UserBuffer) (off : Int) (lens : List Nat) (start : 0 ≤ off) (small : lens.sum < 2 ^ 31)
    (accessible : user.Accessible) :
    pieces transfer memory user off lens = some (done memory user off (moved off lens.sum)) := by
  induction lens generalizing memory user off with
  | nil =>
    have none : moved off 0 = 0 := by simp [moved]
    rw [List.sum_nil, none, divisible.zero]
    rfl
  | cons len rest ih =>
    rw [List.sum_cons] at small ⊢
    have first := does memory user len off start (by omega) accessible
    have later := ih (done memory user off (moved off len)).memory (user.skip len) (off + moved off len) (by omega)
      (by omega) (accessible.skip len)
    rw [VideoRam.pieces, first, Option.bind_some, divisible.position, later, Option.map_some, moved_add, divisible.add]
    by_cases full : moved off len = len
    · rw [full]
      rfl
    · -- The window ends inside this piece, so nothing is left to move.
      rw [moved_short full, divisible.zero, divisible.zero]
      rfl

private theorem readOf_divisible : Divisible readOf where
  zero memory user off := by simp [readOf, window]
  position _ _ _ _ := rfl
  add memory user off first last := by
    simp only [readOf, Outcome.join, window_add, List.map_append, Int.natCast_add, Int.add_assoc]

private theorem writeOf_divisible : Divisible writeOf where
  zero memory user off := by simp [writeOf, window, stores]
  position _ _ _ _ := rfl
  add memory user off first last := by
    simp only [writeOf, Outcome.join, window_add, stores_add, List.foldl_append, Int.natCast_add, Int.add_assoc,
      List.append_nil]

namespace Call

def moved (call : Call) : Nat := VideoRam.moved call.off call.len

def stores (call : Call) : List Store := if call.reads then [] else VideoRam.stores call.user call.off call.moved

/-- A position that a file can have, a length that is passed on to a driver and a
buffer that does not fault. -/
structure Valid (call : Call) : Prop where
  start : 0 ≤ call.off
  small : call.len < 2 ^ 31
  accessible : call.user.Accessible

end Call

/-- The byte that was stored last at an offset. -/
def latest (memory : Memory) (stores : List Store) (offset : Int) : UInt8 :=
  ((stores.filter fun store => store.1 = offset).getLast?.map Prod.snd).getD (memory offset)

private theorem foldl_latest (memory : Memory) (stores : List Store) :
    stores.foldl Store.apply memory = latest memory stores := by
  funext offset
  have framed : Framed Store.apply (fun memory offset => memory offset) fun store offset => store.1 = offset := by
    intro memory store offset other
    exact Function.update_of_ne (Ne.symm other) _ _
  rw [latest]
  rcases latest_cases (fun store : Store => store.1 = offset) stores with
    ⟨none, empty⟩ | ⟨earlier, store, later, rfl, here, none, last⟩
  · rw [empty]
    exact view_untouched framed memory (by simpa using none)
  · rw [last]
    obtain rfl := of_decide_eq_true here
    refine (view_latest framed memory earlier store (by simpa using none)).trans ?_
    exact Function.update_self _ _ _

/-- A call made after others counts the bytes it moves, goes on by as many, keeps
inside the window, and if it is a read returns the bytes stored last. -/
structure AsFile (memory : Memory) (earlier : List Call) (call : Call) (outcome : Outcome) : Prop where
  result : outcome.result = call.moved
  position : outcome.position = call.off + call.moved
  touched : ∀ offset ∈ outcome.touched, 0 ≤ offset ∧ offset < vramSize
  given : outcome.given =
    if call.reads then (window call.off call.moved).map (latest memory (earlier.flatMap Call.stores)) else []

theorem AsFile.run {call : Call} (valid : call.Valid) (memory : Memory) (earlier : List Call) :
    ∃ outcome, call.run (latest memory (earlier.flatMap Call.stores)) = some outcome ∧
      outcome.memory = latest memory ((earlier ++ [call]).flatMap Call.stores) ∧ AsFile memory earlier call outcome := by
  rw [List.flatMap_append, List.flatMap_singleton, ← foldl_latest memory (_ ++ _), List.foldl_append, foldl_latest memory]
  have inside (offset : Int) (member : offset ∈ window call.off call.moved) := moved_inside valid.start member
  cases call with
  | read user len off =>
    refine ⟨_, myRead_eq valid.start valid.small valid.accessible, rfl, ?_⟩
    exact ⟨rfl, rfl, inside, rfl⟩
  | write user len off =>
    refine ⟨_, myWrite_eq valid.start valid.small valid.accessible, rfl, ?_⟩
    exact ⟨rfl, rfl, inside, rfl⟩

private theorem session_file (memory : Memory) (earlier calls : List Call) (valid : ∀ call ∈ calls, call.Valid) :
    ∃ last outcomes, session (latest memory (earlier.flatMap Call.stores)) calls = some (last, outcomes) ∧
      last = latest memory ((earlier ++ calls).flatMap Call.stores) ∧
      ∀ before call after, calls = before ++ call :: after →
        ∃ outcome, outcomes[before.length]? = some outcome ∧ AsFile memory (earlier ++ before) call outcome := by
  induction calls generalizing earlier with
  | nil =>
    refine ⟨_, [], rfl, by rw [List.append_nil], ?_⟩
    intro before call after none
    simp at none
  | cons call rest ih =>
    obtain ⟨outcome, ran, stored, file⟩ := AsFile.run (valid call List.mem_cons_self) memory earlier
    obtain ⟨last, outcomes, later, ends, files⟩ := ih (earlier ++ [call]) fun other member =>
      valid other (List.mem_cons_of_mem _ member)
    refine ⟨last, outcome :: outcomes, ?_, ?_, ?_⟩
    · rw [session, ran, Option.bind_some, stored, later]
      rfl
    · rw [ends, List.append_assoc, List.singleton_append]
    · intro before other after joined
      cases before with
      | nil =>
        obtain ⟨rfl, -⟩ := List.cons.inj joined
        exact ⟨outcome, rfl, by rwa [List.append_nil]⟩
      | cons first before =>
        obtain ⟨rfl, shorter⟩ := List.cons.inj joined
        obtain ⟨found, there, file⟩ := files before other after shorter
        exact ⟨found, there, by rwa [List.append_assoc, List.singleton_append] at file⟩

/-- A transfer in pieces does what one call does, and moves what there is to move. -/
def InPieces (transfer : Memory → UserBuffer → Nat → Int → Option Outcome) (memory : Memory) (user : UserBuffer)
    (off : Int) (lens : List Nat) : Prop :=
  ∃ outcome, transfer memory user lens.sum off = some outcome ∧ pieces transfer memory user off lens = some outcome ∧
    outcome.result = moved off lens.sum ∧ outcome.position = off + moved off lens.sum

theorem byte_file (memory : Memory) :
    (∀ calls : List Call, (∀ call ∈ calls, call.Valid) → ∃ last outcomes, session memory calls = some (last, outcomes) ∧
      last = latest memory (calls.flatMap Call.stores) ∧ ∀ earlier call later, calls = earlier ++ call :: later →
        ∃ outcome, outcomes[earlier.length]? = some outcome ∧ AsFile memory earlier call outcome) ∧
    ∀ (user : UserBuffer) (off : Int) (lens : List Nat), 0 ≤ off → lens.sum < 2 ^ 31 → user.Accessible →
      InPieces myRead memory user off lens ∧ InPieces myWrite memory user off lens := by
  refine ⟨?_, ?_⟩
  · intro calls valid
    exact session_file memory [] calls valid
  · intro user off lens start small accessible
    refine ⟨⟨_, myRead_eq start small accessible, ?_, rfl, rfl⟩, ⟨_, myWrite_eq start small accessible, ?_, rfl, rfl⟩⟩
    · exact readOf_divisible.pieces (fun _ _ _ _ => myRead_eq) memory user off lens start small accessible
    · exact writeOf_divisible.pieces (fun _ _ _ _ => myWrite_eq) memory user off lens start small accessible

/-- A write of four bytes at three before the end of the window, and a read behind it. -/
theorem byte_file_end :
    ∃ (user : UserBuffer) (last : Memory) (outcomes : List Outcome) (outcome : Outcome),
      session (fun _ => 7) [.write user 4 268435452, .read user 4 268435453] = some (last, outcomes) ∧
      last 268435454 = 2 ∧ last 268435455 = 7 ∧ outcomes[1]? = some outcome ∧ outcome.result = 2 ∧
      outcome.given = [1, 2] ∧ InPieces myWrite (fun _ => 7) user 268435452 [1, 3, 5] := by
  let user : UserBuffer := ⟨fun offset => .ofNat offset, fun _ => false⟩
  have accessible : user.Accessible := fun _ => rfl
  have valid : ∀ call ∈ [Call.write user 4 268435452, .read user 4 268435453], call.Valid :=
    List.forall_mem_cons.mpr ⟨⟨by decide, by decide, accessible⟩,
      List.forall_mem_singleton.mpr ⟨by decide, by decide, accessible⟩⟩
  obtain ⟨last, outcomes, ran, rfl, files⟩ := (byte_file fun _ => 7).1 _ valid
  obtain ⟨outcome, there, file⟩ := files [_] _ [] rfl
  refine ⟨user, _, outcomes, outcome, ran, by decide, by decide, there, ?_, ?_, ?_⟩
  · rw [file.result]
    decide
  · rw [file.given]
    decide
  · exact ((byte_file fun _ => 7).2 user 268435452 [1, 3, 5] (by decide) (by decide) accessible).2

end DeviceDrivers.VideoRam
