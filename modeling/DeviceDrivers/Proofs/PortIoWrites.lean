import DeviceDrivers.PortIo.Writes

/-! A write sends the last byte of its piece and reports one byte, so the next piece
starts at the second byte of this one. -/

namespace DeviceDrivers.PortIo
open Runs Kernel Resumption

variable {variant : Variant} {writer : Writer} {traffic : Traffic} {position count : Nat}

def taken (writer : Writer) (position count : Nat) : UInt8 :=
  (copyFromUser ⟨Buffer.parlelportBuffer, 1, []⟩
    (writer.memory.behind (writer.buf + position + count - 1)) 1).value.2.bytes.headD 0

def access (writer : Writer) (position count : Nat) : Access :=
  ⟨writer.buf + position, count, writer.buf + position + count - 1⟩

theorem writes_result (variant : Variant) (writer : Writer) (traffic : Traffic) (position count : Nat) :
    (variant.writes writer traffic position count).1 = 1 := by
  cases variant <;> rfl

private theorem writes_sent (variant : Variant) (writer : Writer) (traffic : Traffic) (position count : Nat) :
    (variant.writes writer traffic position count).2.sent =
      traffic.sent ++ [(0x378, taken writer position count)] := by
  cases variant <;> rfl

private theorem writes_read (variant : Variant) (writer : Writer) (traffic : Traffic) (position count : Nat) :
    (variant.writes writer traffic position count).2.read = traffic.read ++ [access writer position count] := by
  cases variant <;> rfl

private theorem access_inside : (access writer position count).Inside ↔ 0 < count := by
  simp only [access, Access.Inside]
  omega

private theorem taken_last (nonempty : 0 < count) (within : position + count ≤ writer.string.length) :
    writer.string[position + count - 1]? = some (taken writer position count) := by
  have inside : position + count - 1 < writer.string.length := by omega
  rw [List.getElem?_eq_getElem inside, taken, writer.copied inside (by omega), List.headD_cons]

section Stream
variable {counts : List Nat} {final : Transfer Traffic}
  (run : Run (step (variant.writes writer)) (Within writer.string.length) (begin {}) counts final)
include run

private theorem sent_eq :
    final.device.sent = counts.mapIdx fun position count => (0x378, taken writer position count) := by
  have sent : final.device.sent = [] ++ _ := log_of_one (writes_result variant writer) (writes_sent variant writer) run
  simpa using sent

private theorem read_eq : final.device.read = counts.mapIdx (access writer) := by
  have read : final.device.read = [] ++ _ := log_of_one (writes_result variant writer) (writes_read variant writer) run
  simpa using read

private theorem pieces_within (piece : counts[position]? = some count) : position + count ≤ writer.string.length :=
  within_of_one (writes_result variant writer) run piece

private theorem reads_inside : (∀ access ∈ final.device.read, access.Inside) ↔
    ∀ (index count : Nat), counts[index]? = some count → 0 < count := by
  rw [read_eq run]
  constructor
  · intro inside index count piece
    apply access_inside.mp
    apply inside
    apply List.mem_of_getElem?
    rw [List.getElem?_mapIdx, piece, Option.map_some]
  · intro nonempty read member
    obtain ⟨index, found⟩ := List.mem_iff_getElem?.mp member
    rw [List.getElem?_mapIdx] at found
    obtain ⟨count, piece, rfl⟩ := Option.map_eq_some_iff.mp found
    exact access_inside.mpr (nonempty index count piece)

/-- The port gets the string, and nothing but the pieces is read, if and only if every piece
has a last byte and this is equal to its first. -/
theorem stream_iff (finished : writer.string.length ≤ final.position) :
    (final.device.sent = writer.string.map (fun byte => (0x378, byte)) ∧ ∀ access ∈ final.device.read, access.Inside) ↔
      ∀ (index count : Nat), counts[index]? = some count →
        0 < count ∧ writer.string[index + count - 1]? = writer.string[index]? := by
  rw [position_of_one (writes_result variant writer) run] at finished
  rw [reads_inside run, sent_eq run]
  constructor
  · rintro ⟨same, nonempty⟩ index count piece
    have here := congrArg (fun sent => sent[index]?) same
    simp only [List.getElem?_mapIdx, List.getElem?_map, piece, Option.map_some] at here
    obtain ⟨byte, first, equal⟩ := Option.map_eq_some_iff.mp here.symm
    refine ⟨nonempty index count piece, ?_⟩
    rw [taken_last (nonempty index count piece) (pieces_within run piece), first, (Prod.mk.inj equal).2]
  · intro pieces
    refine ⟨?_, fun index count piece => (pieces index count piece).1⟩
    apply List.ext_getElem?
    intro index
    rw [List.getElem?_mapIdx, List.getElem?_map]
    cases piece : counts[index]? with
    | none =>
      have beyond := List.getElem?_eq_none_iff.mp piece
      rw [List.getElem?_eq_none_iff.mpr (by omega), Option.map_none, Option.map_none]
    | some count =>
      obtain ⟨nonempty, same⟩ := pieces index count piece
      rw [← same, taken_last nonempty (pieces_within run piece), Option.map_some, Option.map_some]

end Stream

/-- Nine rounds of `lights.c`. -/
theorem stream_iff_lights : ∃ final : Transfer Traffic,
    Run (step (Variant.parport.writes (.of (lights 1 9)))) (Within 9) (begin {}) (List.replicate 9 1) final ∧
      final.device.sent = (lights 1 9).map (fun byte => (0x378, byte)) ∧
      ∀ access ∈ final.device.read, access.Inside := by
  have reached : ∃ final : Transfer Traffic,
      Run (step (Variant.parport.writes (.of (lights 1 9)))) (Within 9) (begin {}) (List.replicate 9 1) final ∧
      9 ≤ final.position := reaches_of_execute (by decide +kernel)
  obtain ⟨final, run, finished⟩ := reached
  refine ⟨final, run, (stream_iff run finished).mpr ?_⟩
  intro index count piece
  have one : count = 1 := List.eq_of_mem_replicate (List.mem_of_getElem? piece)
  simp [one]

/-- The two bytes 1 and 2, given with one call. -/
theorem stream_pair : ¬ ∀ (variant : Variant) (writer : Writer) (counts : List Nat) (final : Transfer Traffic),
    Run (step (variant.writes writer)) (Within writer.string.length) (begin {}) counts final →
    writer.string.length ≤ final.position →
    final.device.sent = writer.string.map (fun byte => (0x378, byte)) ∧
      ∀ access ∈ final.device.read, access.Inside := by
  intro claim
  have reached : ∃ final : Transfer Traffic,
      Run (step (Variant.parport.writes (.of [1, 2]))) (Within 2) (begin {}) [2, 1] final ∧
      2 ≤ final.position ∧ final.device.sent = [(0x378, 2), (0x378, 2)] :=
    reaches_of_execute (by decide +kernel)
  obtain ⟨final, run, finished, sent⟩ := reached
  have exact := (claim .parport (.of [1, 2]) [2, 1] final run finished).1
  rw [sent] at exact
  exact absurd exact (by decide)

end DeviceDrivers.PortIo
