import DeviceDrivers.Library.Touches

/-! The memory of the calling process, as `copy_from_user` and `copy_to_user`
meet it, and the integers that programs keep there. -/

namespace DeviceDrivers.Kernel
open Touches

/-- The memory behind a user pointer: the byte at each offset, and the offsets
where an access faults. -/
structure UserBuffer where
  byte : Nat → UInt8
  faults : Nat → Bool := fun _ => false

namespace UserBuffer

def Accessible (user : UserBuffer) : Prop := ∀ offset, user.faults offset = false

/-- The bytes from offset `first` on, up to the first that faults. -/
def readable (user : UserBuffer) : Nat → Nat → List UInt8
  | _, 0 => []
  | first, count + 1 => if user.faults first then [] else user.byte first :: user.readable (first + 1) count

def bytes (user : UserBuffer) (first count : Nat) : List UInt8 := (List.range' first count).map user.byte

def skip (user : UserBuffer) (count : Nat) : UserBuffer :=
  ⟨fun offset => user.byte (count + offset), fun offset => user.faults (count + offset)⟩

@[simp] theorem skip_byte (user : UserBuffer) (count offset : Nat) :
    (user.skip count).byte offset = user.byte (count + offset) := rfl

theorem skip_skip (user : UserBuffer) (first last : Nat) : (user.skip first).skip last = user.skip (first + last) := by
  simp [skip, Nat.add_assoc]

theorem Accessible.skip {user : UserBuffer} (accessible : user.Accessible) (count : Nat) :
    (user.skip count).Accessible :=
  fun _ => accessible _

theorem slice_bytes {user : UserBuffer} {first count skipped taken : Nat} (inside : skipped + taken ≤ count) :
    slice (user.bytes first count) skipped taken = user.bytes (first + skipped) taken := by
  apply List.ext_getElem?
  intro index
  rw [getElem?_slice]
  simp only [bytes, List.getElem?_map]
  split
  next small =>
    rw [List.getElem?_range' (by omega), List.getElem?_range' (by omega)]
    simp [Nat.add_assoc]
  next large => simp [large]

theorem readable_length (user : UserBuffer) (first count : Nat) : (user.readable first count).length ≤ count := by
  induction count generalizing first with
  | zero => exact Nat.le_refl 0
  | succ count ih =>
    rw [readable]
    split
    next => exact Nat.zero_le _
    next => exact Nat.succ_le_succ (ih _)

private theorem readable_bytes {user : UserBuffer} {first count : Nat} :
    user.readable first count = user.bytes first (user.readable first count).length := by
  induction count generalizing first with
  | zero => rfl
  | succ count ih =>
    rw [readable]
    split
    next => rfl
    next =>
      rw [List.length_cons, bytes, List.range'_succ, List.map_cons]
      exact congrArg _ ih

private theorem readable_complete {user : UserBuffer} {first count : Nat}
    (complete : count ≤ (user.readable first count).length) :
    user.readable first count = user.bytes first count := by
  have whole := Nat.le_antisymm (user.readable_length first count) complete
  rw [readable_bytes, whole]

/-- An access stops early if a byte faults early. -/
theorem readable_stops {user : UserBuffer} {first count bound : Nat} : (user.readable first count).length ≤ bound ↔
    count ≤ bound ∨ ∃ k ≤ bound, k < count ∧ user.faults (first + k) = true := by
  induction count generalizing first bound with
  | zero => simp [readable]
  | succ count ih =>
    rw [readable]
    split
    next fault => exact iff_of_true (Nat.zero_le _) (.inr ⟨0, Nat.zero_le _, Nat.succ_pos _, fault⟩)
    next clear =>
      have shift (k : Nat) : first + (k + 1) = first + 1 + k := by omega
      cases bound with
      | zero =>
        refine iff_of_false (by simp) ?_
        rintro (few | ⟨k, early, _, fault⟩)
        · omega
        · obtain rfl := Nat.le_zero.mp early
          exact clear fault
      | succ bound =>
        rw [List.length_cons, Nat.add_le_add_iff_right, ih, Nat.add_le_add_iff_right]
        refine or_congr_right ⟨?_, ?_⟩
        · rintro ⟨k, early, inside, fault⟩
          exact ⟨k + 1, Nat.succ_le_succ early, Nat.succ_lt_succ inside, by rwa [shift]⟩
        · rintro ⟨k, early, inside, fault⟩
          cases k with
          | zero => exact absurd fault clear
          | succ k => exact ⟨k, by omega, by omega, by rwa [← shift]⟩

end UserBuffer

/-- The number of bytes that could not be copied, and the block as it is then, with
zeros in place of these. -/
def copyFromUser {ρ : Type} (block : Block ρ) (user : UserBuffer) (count : Nat) : Traced ρ (Nat × Block ρ) := do
  let copied := user.readable 0 count
  let block ← block.stores 0 (copied ++ List.replicate (count - copied.length) 0)
  pure (count - copied.length, block)

/-- The number of bytes that could not be copied, and those that the user has got. -/
def copyToUser (user : UserBuffer) (bytes : List UInt8) : Nat × List UInt8 :=
  let stored := bytes.take (user.readable 0 bytes.length).length
  (bytes.length - stored.length, stored)

/-- The bytes that `%s` reads, to the first zero and with it. A string without one goes
on behind the block. -/
def readString {ρ : Type} (block : Block ρ) : Traced ρ (List UInt8) :=
  block.loads 0 ((block.bytes.takeWhile (· ≠ 0)).length + 1)

section Copies
variable {ρ : Type} {block copied : Block ρ} {user : UserBuffer} {count missing : Nat}

theorem copyFromUser_touches : (copyFromUser block user count).touches = [⟨block.region, block.size, 0, count⟩] := by
  have all := user.readable_length 0 count
  simp [copyFromUser, Nat.add_sub_cancel' all]

theorem copyFromUser_missing : (copyFromUser block user count).value.1 ≠ 0 ↔ ∃ k < count, user.faults k = true := by
  cases count with
  | zero => simp [copyFromUser]
  | succ count =>
    have stops := @UserBuffer.readable_stops user 0 (count + 1) count
    rw [or_iff_right (Nat.not_succ_le_self count)] at stops
    have short : (copyFromUser block user (count + 1)).value.1 ≠ 0 ↔ (user.readable 0 (count + 1)).length ≤ count := by
      simp only [copyFromUser, bind_value, pure_value]
      omega
    rw [short, stops]
    constructor
    · rintro ⟨k, _, inside, fault⟩
      exact ⟨k, inside, Nat.zero_add k ▸ fault⟩
    · rintro ⟨k, inside, fault⟩
      exact ⟨k, Nat.le_of_lt_succ inside, inside, (Nat.zero_add k).symm ▸ fault⟩

theorem copied_bytes (complete : (copyFromUser block user count).value = (0, copied)) :
    copied.bytes = user.bytes 0 count ++ block.bytes.drop count := by
  simp only [copyFromUser, bind_value, pure_value, Block.stores_value, Prod.mk.injEq] at complete
  obtain ⟨all, rfl⟩ := complete
  rw [UserBuffer.readable_complete (by omega)]
  simp [splice, UserBuffer.bytes]

/-- What was readable is there, even if the copy stopped at a fault. -/
theorem copied_slice {skipped taken : Nat} (inside : skipped + taken ≤ (user.readable 0 count).length) :
    slice (copyFromUser block user count).value.2.bytes skipped taken = user.bytes skipped taken := by
  have part : slice (user.readable 0 count) skipped taken = user.bytes (0 + skipped) taken := by
    rw [UserBuffer.readable_bytes]
    exact UserBuffer.slice_bytes inside
  have front : (copyFromUser block user count).value.2.bytes = user.readable 0 count ++
      (List.replicate (count - (user.readable 0 count).length) 0 ++ block.bytes.drop count) := by
    simp [copyFromUser, splice, Nat.add_sub_cancel' (user.readable_length 0 count)]
  rw [slice, front, List.drop_append_of_le_length (by omega),
    List.take_append_of_le_length (by rw [List.length_drop]; omega), ← slice, part, Nat.zero_add]

/-- The user gets no more bytes than `bound` if there are no more, or a fault comes first. -/
theorem copyToUser_stores {bytes : List UInt8} {bound : Nat} : (copyToUser user bytes).2.length ≤ bound ↔
    bytes.length ≤ bound ∨ ∃ k ≤ bound, k < bytes.length ∧ user.faults k = true := by
  have all := user.readable_length 0 bytes.length
  have stops := @UserBuffer.readable_stops user 0 bytes.length bound
  simp only [Nat.zero_add] at stops
  simp only [copyToUser, List.length_take]
  rw [Nat.min_eq_left all, stops]

end Copies

/-- Bytes in the order of the machine, the lowest first. -/
def littleEndian : List UInt8 → Nat
  | [] => 0
  | byte :: rest => byte.toNat + 256 * littleEndian rest

def int (bytes : List UInt8) : BitVec 32 := .ofNat 32 (littleEndian bytes)

def intBytes (value : BitVec 32) : List UInt8 :=
  [.ofNat value.toNat, .ofNat (value.toNat / 256), .ofNat (value.toNat / 65536), .ofNat (value.toNat / 16777216)]

@[simp] theorem length_intBytes (value : BitVec 32) : (intBytes value).length = 4 := rfl

@[simp] theorem int_intBytes (value : BitVec 32) : int (intBytes value) = value := by
  apply BitVec.eq_of_toNat_eq
  have small := value.isLt
  simp only [int, intBytes, littleEndian, BitVec.toNat_ofNat, UInt8.toNat_ofNat']
  omega

end DeviceDrivers.Kernel
