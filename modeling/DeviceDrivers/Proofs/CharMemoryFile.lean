import DeviceDrivers.CharMemory.Driver

/-! What the README does with the device: a string is written, and then the device is
read to its end. -/

namespace DeviceDrivers.CharMemory
open Runs Touches Kernel Resumption

variable {writer : Writer} {memory : Memory} {counts : List Nat} {final : Transfer Memory}

theorem writes_result (writer : Writer) (memory : Memory) (position count : Nat) :
    (writes writer memory position count).1 = 1 := rfl

private theorem writes_stores (byte : UInt8) (count : Nat) {position : Nat} (inside : position < writer.string.length) :
    (writes writer (memoryBuffer byte) position count).2 = memoryBuffer writer.string[position] := by
  have bytes : (writes writer (memoryBuffer byte) position count).2.bytes = [writer.string[position]] :=
    writer.copied inside rfl
  calc (writes writer (memoryBuffer byte) position count).2
      = ⟨.memoryBuffer, 1, (writes writer (memoryBuffer byte) position count).2.bytes⟩ := rfl
    _ = memoryBuffer writer.string[position] := by rw [bytes, memoryBuffer]

/-- The device holds the byte before the position, if there is one. -/
def Holds (writer : Writer) (initial : UInt8) (t : Transfer Memory) : Prop :=
  t.position ≤ writer.string.length ∧ ∃ byte, t.device = memoryBuffer byte ∧
    (if t.position = 0 then some initial else writer.string[t.position - 1]?) = some byte

theorem Holds.step {initial : UInt8} {t next : Transfer Memory} {count : Nat} (holds : Holds writer initial t)
    (permitted : Pieces writer.string.length t count) (stepped : step (writes writer) t count = some next) :
    Holds writer initial next := by
  obtain ⟨-, byte, device, -⟩ := holds
  have inside := permitted.1
  rw [step_one (writes_result _ _ _ _) stepped, device]
  refine ⟨inside, writer.string[t.position], writes_stores byte count inside, ?_⟩
  simp [inside]

/-- The loop ends after as many calls as the string has bytes, and the last byte is stored. -/
structure Written (writer : Writer) (counts : List Nat) (memory : Memory) : Prop where
  calls : counts.length = writer.string.length
  last : ∃ byte, writer.string.getLast? = some byte ∧ memory = memoryBuffer byte

def ReadBack (writer : Writer) (memory : Memory) (reader : Reader) : Prop :=
  reader.ToEnd (memoryRead memory) 0 writer.string.getLast?.toList

private theorem holds_run {initial : UInt8}
    (run : Run (step (writes writer)) (Pieces writer.string.length) (begin (memoryBuffer initial)) counts final) :
    Holds writer initial final := by
  apply run.invariant (Holds writer initial)
  · exact ⟨Nat.zero_le _, initial, rfl, rfl⟩
  · exact fun _ _ _ holds permitted stepped => holds.step permitted stepped

theorem written {initial : UInt8} (nonempty : writer.string ≠ [])
    (run : Run (step (writes writer)) (Pieces writer.string.length) (begin (memoryBuffer initial)) counts final)
    (finished : writer.string.length ≤ final.position) : Written writer counts final.device := by
  obtain ⟨inside, byte, device, stored⟩ := holds_run run
  have position := position_of_one (writes_result writer) run
  have some := List.length_pos_iff.mpr nonempty
  rw [if_neg (by omega), Nat.le_antisymm inside finished, ← List.getLast?_eq_getElem?] at stored
  exact ⟨by omega, byte, stored, device⟩

/-- The loop can always go on until the string is written, with pieces of any size. -/
theorem writing_goes_on (t : Transfer Memory) (count : Nat) : ∃ next, step (writes writer) t count = some next :=
  ⟨_, rfl⟩

private theorem never_ends (memory : Memory) (reader : Reader) (offp : Int) (data : List UInt8) :
    ¬ reader.ToEnd (memoryRead memory) offp data := by
  intro reading
  obtain ⟨offp, ended⟩ := reading.ended
  exact absurd ended (by decide : (1 : Int) ≠ 0)

/-- The string is written as the README has it, and never read back. -/
theorem written_not_read_back (initial : UInt8) (nonempty : writer.string ≠ [])
    (run : Run (step (writes writer)) (Pieces writer.string.length) (begin (memoryBuffer initial)) counts final)
    (finished : writer.string.length ≤ final.position) (reader : Reader) :
    Written writer counts final.device ∧ ¬ (Written writer counts final.device ∧ ReadBack writer final.device reader) :=
  ⟨written nonempty run finished, fun both => never_ends _ _ _ _ both.2⟩

def readmeString : List UInt8 := [97, 98, 99, 100, 101, 102]

/-- Each call is given all that is left of the string. -/
theorem written_not_read_back_abcdef : ∃ final : Transfer Memory,
    Run (step (writes (.of readmeString))) (Pieces 6) (begin memoryInit) [6, 5, 4, 3, 2, 1] final ∧
      Written (.of readmeString) [6, 5, 4, 3, 2, 1] final.device ∧
      ¬ (Written (.of readmeString) [6, 5, 4, 3, 2, 1] final.device ∧
        ReadBack (.of readmeString) final.device (.of 4096)) := by
  have reached : ∃ final : Transfer Memory,
      Run (step (writes (.of readmeString))) (Pieces 6) (begin memoryInit) [6, 5, 4, 3, 2, 1] final ∧
      6 ≤ final.position := reaches_of_execute (by decide +kernel)
  obtain ⟨final, run, finished⟩ := reached
  have nonempty : (Writer.of readmeString).string ≠ [] := by decide
  exact ⟨final, run, written_not_read_back 0 nonempty run finished (.of 4096)⟩

/-- A single byte, written at once and read a byte at a time. -/
theorem read_without_end : ¬ ∀ (writer : Writer) (initial : UInt8) (counts : List Nat) (final : Transfer Memory)
    (reader : Reader), writer.string ≠ [] →
    Run (step (writes writer)) (Pieces writer.string.length) (begin (memoryBuffer initial)) counts final →
    writer.string.length ≤ final.position → 0 < reader.size →
    Written writer counts final.device ∧ ReadBack writer final.device reader := by
  intro claim
  have run : Run (step (writes (.of [97]))) (Pieces 1) (begin memoryInit) [1] ⟨1, memoryBuffer 97⟩ :=
    .snoc .nil ⟨by decide, by decide⟩ rfl
  have both := claim (.of [97]) 0 [1] _ (.of 1) (by decide) run (by decide) (by decide)
  exact never_ends _ _ _ _ both.2

end DeviceDrivers.CharMemory
