import DeviceDrivers.Kernel.Methods

/-! The programs that use a file: one reads it to its end, another writes a string that
it has in its memory. -/

namespace DeviceDrivers.Kernel

def UserBuffer.Readable (user : UserBuffer) (count : Nat) : Prop := ∀ offset < count, user.faults offset = false

structure Reader where
  user : UserBuffer
  size : Nat
  own : user.Readable size

def Reader.of (size : Nat) : Reader := ⟨⟨fun _ => 0, fun _ => false⟩, size, fun _ _ => rfl⟩

/-- The read method of an open file, at a position. -/
abbrev ReadMethod := (user : UserBuffer) → (count : Nat) → (offp : Int) → ReadOut

namespace Reader
variable (reader : Reader) (method : ReadMethod)

def read (offp : Int) : ReadOut := method reader.user reader.size offp

/-- Reads one after another until one returns 0, and the bytes they bring. A read must
not return more than the buffer has room for. -/
inductive ToEnd : Int → List UInt8 → Prop where
  | done {offp} (ended : (reader.read method offp).result = 0) : ToEnd offp []
  | more {offp rest} (got : 0 < (reader.read method offp).result)
      (room : (reader.read method offp).result ≤ reader.size)
      (later : ToEnd (reader.read method offp).offp rest) :
      ToEnd offp ((reader.read method offp).stored.take (reader.read method offp).result.toNat ++ rest)

variable {reader method}

theorem ToEnd.unique {offp : Int} {data others : List UInt8} (first : reader.ToEnd method offp data)
    (last : reader.ToEnd method offp others) : data = others := by
  induction first generalizing others with
  | done ended =>
    cases last with
    | done => rfl
    | more got => omega
  | more got _ _ ih =>
    cases last with
    | done ended => omega
    | more _ _ later => rw [ih later]

theorem ToEnd.once {offp next : Int} {bytes : List UInt8}
    (first : reader.read method offp = ⟨bytes.length, next, bytes⟩)
    (nonempty : 0 < bytes.length) (room : bytes.length ≤ reader.size) (last : (reader.read method next).result = 0) :
    reader.ToEnd method offp bytes := by
  have more := @ToEnd.more reader method offp []
  simp only [first, Int.toNat_natCast, List.take_length, List.append_nil] at more
  exact more (Int.natCast_pos.mpr nonempty) (Int.ofNat_le.mpr room) (.done last)

theorem ToEnd.ended {offp : Int} {data : List UInt8} (reading : reader.ToEnd method offp data) :
    ∃ offp, (reader.read method offp).result = 0 := by
  induction reading with
  | done ended => exact ⟨_, ended⟩
  | more _ _ _ ih => exact ih

end Reader

theorem copyToUser_all {user : UserBuffer} {bytes : List UInt8} (readable : user.Readable bytes.length) :
    (copyToUser user bytes).2 = bytes := by
  have taken : (copyToUser user bytes).2 = bytes.take (copyToUser user bytes).2.length := by simp [copyToUser]
  rcases copyToUser_stores.mp (Nat.le_refl (copyToUser user bytes).2.length) with all | ⟨k, _, inside, fault⟩
  · rw [taken, List.take_of_length_le all]
  · have clear := readable k inside
    rw [fault] at clear
    cases clear

theorem copyFromUser_one {ρ : Type} {block : Touches.Block ρ} {user : UserBuffer} (clear : user.faults 0 = false) :
    (copyFromUser block user 1).value = (0, { block with bytes := user.byte 0 :: block.bytes.drop 1 }) := by
  simp [copyFromUser, UserBuffer.readable, clear, Touches.splice]

structure UserMemory where
  byte : Int → UInt8
  faults : Int → Bool

def UserMemory.behind (memory : UserMemory) (pointer : Int) : UserBuffer :=
  ⟨fun offset => memory.byte (pointer + offset), fun offset => memory.faults (pointer + offset)⟩

/-- A program with a string in its memory, from the address `buf` on. -/
structure Writer where
  memory : UserMemory
  buf : Int
  string : List UInt8
  holds : ∀ offset (inside : offset < string.length), memory.byte (buf + offset) = string[offset]
  own : ∀ offset < string.length, memory.faults (buf + offset) = false

def Writer.of (string : List UInt8) : Writer where
  memory := ⟨fun address => string.getD address.toNat 0, fun address => address < 0 ∨ string.length ≤ address.toNat⟩
  buf := 0
  string := string
  holds offset inside := by simp [inside]
  own offset inside := by simp [inside]

namespace Writer
variable {writer : Writer} {ρ : Type} {block : Touches.Block ρ} {position : Nat} {pointer : Int}

theorem copied (inside : position < writer.string.length) (here : pointer = writer.buf + position) :
    (copyFromUser block (writer.memory.behind pointer) 1).value.2.bytes = writer.string[position] :: block.bytes.drop 1 := by
  have byte := writer.holds position inside
  have clear := writer.own position inside
  have start : (writer.memory.behind pointer).faults 0 = false := by simp [UserMemory.behind, here, clear]
  rw [copyFromUser_one start]
  simp [UserMemory.behind, here, byte]

end Writer

end DeviceDrivers.Kernel
