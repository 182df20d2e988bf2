import DeviceDrivers.Clock.Calls
import DeviceDrivers.Proofs.ClockRegisters

/-! The clock as a file of six bytes that one process has to itself. Its positions are
distinct registers and its errors leave everything as it was; only a transfer of no
bytes moves one. -/

namespace DeviceDrivers.Clock
open Runs Interleavings

def Rtc.at (rtc : Rtc) (position : Nat) : Option Byte := cmdArr[position]?.map rtc.registers

private theorem cmdArr_nodup : cmdArr.Nodup := by decide

private theorem Rtc.at_write {rtc : Rtc} {position other : Nat} {cmd value : Byte} (own : cmdArr[position]? = some cmd)
    (different : other ≠ position) : (rtc.writeToClock cmd value).at other = rtc.at other := by
  unfold Rtc.at
  cases there : cmdArr[other]? with
  | none => rfl
  | some register =>
    obtain ⟨inside, here⟩ := List.getElem?_eq_some_iff.mp own
    obtain ⟨within, elsewhere⟩ := List.getElem?_eq_some_iff.mp there
    have apart : register ≠ cmd := by
      rw [← elsewhere, ← here]
      exact fun same => different ((cmdArr_nodup.getElem_inj_iff).mp same)
    exact congrArg some (Function.update_of_ne apart _ _)

private theorem Rtc.at_written {rtc : Rtc} {position : Nat} {cmd value : Byte} (own : cmdArr[position]? = some cmd) :
    (rtc.writeToClock cmd value).at position = some value := by
  rw [Rtc.at, own]
  exact congrArg some (Function.update_self _ _ _)

inductive Returned (rtc : Rtc) (offp : Nat) (call : Call) : Outcome → Prop where
  | refused (unable : 1 < call.count ∨ fileSize ≤ offp) : Returned rtc offp call ⟨-5, rtc, offp, []⟩
  | faulted {selected} (faults : call.faults = true) :
      Returned rtc offp call ⟨-14, { rtc with selected := selected }, offp, []⟩
  | read {cmd} (few : call.count ≤ 1) (inside : offp < fileSize) (clear : call.faults = false)
      (own : cmdArr[offp]? = some cmd) : Returned rtc offp call ⟨1, rtc.select cmd, offp + 1, [rtc.registers cmd]⟩
  | wrote {cmd data} (few : call.count ≤ 1) (inside : offp < fileSize) (clear : call.faults = false)
      (own : cmdArr[offp]? = some cmd) :
      Returned rtc offp call ⟨1, rtc.writeToClock cmd data, offp + 1, [data]⟩

private theorem nameRead_inside {rtc : Rtc} {offp count : Nat} {faults : Bool} {cmd : Byte} (few : ¬ 1 < count)
    (inside : ¬ fileSize ≤ offp) (own : cmdArr[offp]? = some cmd) : nameRead rtc offp count faults =
      some (if faults then ⟨-14, rtc.select cmd, offp, []⟩
        else ⟨1, rtc.select cmd, offp + 1, [rtc.registers cmd]⟩) := by
  rw [nameRead, if_neg few, if_neg inside, own]
  rfl

private theorem nameWrite_inside {rtc : Rtc} {offp count : Nat} {user : Option Byte} {cmd : Byte} (few : ¬ 1 < count)
    (inside : ¬ fileSize ≤ offp) (own : cmdArr[offp]? = some cmd) : nameWrite rtc offp count user =
      some (user.elim ⟨-14, rtc, offp, []⟩ fun data => ⟨1, rtc.writeToClock cmd data, offp + 1, [data]⟩) := by
  rw [nameWrite, if_neg few, if_neg inside, own]
  cases user <;> rfl

private theorem Call.run_returned (call : Call) (rtc : Rtc) (offp : Nat) :
    ∃ outcome, call.run rtc offp = some outcome ∧ Returned rtc offp call outcome := by
  by_cases many : 1 < call.count
  · refine ⟨⟨-5, rtc, offp, []⟩, ?_, .refused (.inl many)⟩
    cases call <;> exact if_pos many
  by_cases past : fileSize ≤ offp
  · refine ⟨⟨-5, rtc, offp, []⟩, ?_, .refused (.inr past)⟩
    cases call <;> exact (if_neg many).trans (if_pos past)
  have few : call.count ≤ 1 := Nat.le_of_not_lt many
  have inside : offp < cmdArr.length := Nat.lt_of_not_le past
  have own : cmdArr[offp]? = some cmdArr[offp] := List.getElem?_eq_getElem inside
  cases call with
  | read count faults =>
    refine ⟨_, nameRead_inside many past own, ?_⟩
    cases faults with
    | true => exact .faulted rfl
    | false => exact .read few inside rfl own
  | write count user =>
    refine ⟨_, nameWrite_inside many past own, ?_⟩
    cases user with
    | none => exact .faulted rfl
    | some data => exact .wrote few inside rfl own

namespace Entry

/-- A call that succeeds moves one byte at the position, or none if it is to move none,
and the position by as many. An error changes nothing, and no call changes another position. -/
structure AsFile (entry : Entry) : Prop where
  moved : 0 ≤ entry.outcome.result → entry.outcome.moved.length = min entry.call.count 1 ∧
    entry.outcome.offp = entry.offp + entry.outcome.moved.length
  held : ∀ byte ∈ entry.outcome.moved, entry.outcome.rtc.at entry.offp = some byte
  refused : entry.outcome.result < 0 →
    entry.outcome.rtc.registers = entry.rtc.registers ∧ entry.outcome.offp = entry.offp
  elsewhere : ∀ position, position ≠ entry.offp → entry.outcome.rtc.at position = entry.rtc.at position

/-- A call that is to move no byte is made past the end, or its user copy faults. -/
def EmptyRefused (entry : Entry) : Prop :=
  entry.call.count = 0 → fileSize ≤ entry.offp ∨ entry.call.faults = true

/-- A call that can move its byte meets the condition if it is to move one. -/
private theorem emptyRefused_iff {entry : Entry} (few : entry.call.count ≤ 1) (inside : entry.offp < fileSize)
    (clear : entry.call.faults = false) : entry.EmptyRefused ↔ 1 = min entry.call.count 1 := by
  have able : ¬ (fileSize ≤ entry.offp ∨ entry.call.faults = true) := by simp [clear, inside]
  rw [EmptyRefused, imp_iff_not able]
  omega

private theorem asFile_iff {entry : Entry} (returned : Returned entry.rtc entry.offp entry.call entry.outcome) :
    entry.AsFile ↔ entry.EmptyRefused := by
  obtain ⟨rtc, offp, call, outcome⟩ := entry
  change Returned rtc offp call outcome at returned
  cases returned with
  | refused unable =>
    refine ⟨fun _ empty => .inl (unable.resolve_left (by simp only at empty; omega)), fun _ => ?_⟩
    exact ⟨by simp, by simp, fun _ => ⟨rfl, rfl⟩, fun _ _ => rfl⟩
  | faulted faults =>
    refine ⟨fun _ _ => .inr faults, fun _ => ?_⟩
    exact ⟨by simp, by simp, fun _ => ⟨rfl, rfl⟩, fun _ _ => rfl⟩
  | read few inside clear own =>
    rw [emptyRefused_iff few inside clear]
    refine ⟨fun asFile => (asFile.moved (by simp)).1, fun one => ⟨fun _ => ⟨one, rfl⟩, ?_, by simp, fun _ _ => rfl⟩⟩
    simp [Rtc.at, own, Rtc.select]
  | wrote few inside clear own =>
    rw [emptyRefused_iff few inside clear]
    refine ⟨fun asFile => (asFile.moved (by simp)).1, fun one => ⟨fun _ => ⟨one, rfl⟩, ?_, by simp, ?_⟩⟩
    · exact List.forall_mem_singleton.mpr (Rtc.at_written own)
    · exact fun _ different => Rtc.at_write own different

end Entry

def Process.Recorded (p : Process) : Prop :=
  ∀ entry ∈ p.entries, Returned entry.rtc entry.offp entry.call entry.outcome

inductive Process.Stepped (p : Process) : Process.Action → Process → Prop where
  | sought {position} : Stepped p (.seek position) { p with offp := position }
  | called {call outcome} (run : call.run p.rtc p.offp = some outcome)
      (returned : Returned p.rtc p.offp call outcome) :
      Stepped p (.call call) ⟨outcome.rtc, outcome.offp, p.entries ++ [⟨p.rtc, p.offp, call, outcome⟩]⟩

theorem Process.step_cases (p : Process) (action : Process.Action) :
    ∃ next, p.step action = some next ∧ Stepped p action next := by
  cases action with
  | seek position => exact ⟨_, rfl, .sought⟩
  | call call =>
    obtain ⟨outcome, run, returned⟩ := call.run_returned p.rtc p.offp
    refine ⟨_, ?_, .called run returned⟩
    rw [Process.step, run]
    rfl

theorem Process.Recorded.step {p next : Process} {action : Process.Action} (recorded : p.Recorded)
    (stepped : p.step action = some next) : next.Recorded := by
  obtain ⟨_, same, cases⟩ := p.step_cases action
  obtain rfl := Option.some.inj (stepped.symm.trans same)
  cases cases with
  | sought => exact recorded
  | called _ returned => exact List.forall_mem_append.mpr ⟨recorded, List.forall_mem_singleton.mpr returned⟩

theorem Process.runs (p : Process) (actions : List Process.Action) :
    ∃ last, Run Process.step (fun _ _ => True) p actions last := by
  induction actions using List.reverseRecOn with
  | nil => exact ⟨p, .nil⟩
  | append_singleton earlier action ih =>
    obtain ⟨middle, run⟩ := ih
    obtain ⟨next, stepped, _⟩ := middle.step_cases action
    exact ⟨next, .snoc run trivial stepped⟩

/-- Any sequence of calls and changes of the position indexes inside the table, whose
registers are distinct. Its calls are those of a file of six bytes exactly if each
that is to move no byte is refused or faults. -/
theorem six_byte_file_iff (rtc : Rtc) (actions : List Process.Action) :
    (cmdArr.length = fileSize ∧ cmdArr.Nodup) ∧
      ∃ p, Run Process.step (fun _ _ => True) { rtc := rtc } actions p ∧
        ((∀ entry ∈ p.entries, entry.AsFile) ↔ ∀ entry ∈ p.entries, entry.EmptyRefused) := by
  refine ⟨⟨rfl, cmdArr_nodup⟩, ?_⟩
  obtain ⟨p, run⟩ := Process.runs { rtc := rtc } actions
  have recorded : p.Recorded := run.invariant Process.Recorded (by simp [Process.Recorded]) fun _ _ _ kept _ stepped =>
    kept.step stepped
  exact ⟨p, run, forall₂_congr fun entry member => Entry.asFile_iff (recorded entry member)⟩

/-- A read of no bytes at the first position. -/
theorem empty_read_moves : ¬ ∀ (rtc : Rtc) (actions : List Process.Action) (p : Process),
    Run Process.step (fun _ _ => True) { rtc := rtc } actions p → ∀ entry ∈ p.entries, entry.AsFile := by
  intro claim
  have one : Run Process.step (fun _ _ => True) { rtc := sampleRtc } [.call (.read 0 false)] _ :=
    .snoc .nil trivial rfl
  have moved := (claim _ _ _ one _ (List.mem_singleton_self _)).moved (by decide)
  exact absurd moved.1 (by decide)

section Interleaved
variable {s : State} {file : Nat}

theorem nameRead_alone {count : Nat} {faults : Bool} {outcome : Outcome}
    (run : nameRead s.rtc (s.offp file) count faults = some outcome) :
    ∃ s', Alone (fun s (point : Point) => point.step s) s (.next (.enterRead file count faults)) outcome.result s' ∧
      s'.rtc = outcome.rtc ∧ s'.offp = Function.update s.offp file outcome.offp := by
  have unmoved : s.offp = Function.update s.offp file (s.offp file) := (Function.update_eq_self _ _).symm
  unfold nameRead at run
  split at run
  next many =>
    cases run
    exact ⟨s, .step (by rw [Point.step, if_pos many]) .returned, rfl, unmoved⟩
  next few =>
    split at run
    next past =>
      cases run
      exact ⟨s, .step (by rw [Point.step, if_neg few, if_pos past]) .returned, rfl, unmoved⟩
    next inside =>
      obtain ⟨cmd, own, rfl⟩ := Option.map_eq_some_iff.mp run
      have entered : (Point.enterRead file count faults).step s = some (.next (.selectRead file cmd faults), s) := by
        rw [Point.step, if_neg few, if_neg inside, own]
        rfl
      cases faults with
      | true => exact ⟨_, .step entered (.step rfl (.step rfl (.step rfl .returned))), rfl, unmoved⟩
      | false => exact ⟨_, .step entered (.step rfl (.step rfl (.step rfl .returned))), rfl, rfl⟩

theorem nameWrite_alone {count : Nat} {user : Option Byte} {outcome : Outcome}
    (run : nameWrite s.rtc (s.offp file) count user = some outcome) :
    ∃ s', Alone (fun s (point : Point) => point.step s) s (.next (.enterWrite file count user)) outcome.result s' ∧
      s'.rtc = outcome.rtc ∧ s'.offp = Function.update s.offp file outcome.offp := by
  have unmoved : s.offp = Function.update s.offp file (s.offp file) := (Function.update_eq_self _ _).symm
  unfold nameWrite at run
  split at run
  next many =>
    cases run
    exact ⟨s, .step (by rw [Point.step, if_pos many]) .returned, rfl, unmoved⟩
  next few =>
    split at run
    next past =>
      cases run
      exact ⟨s, .step (by rw [Point.step, if_neg few, if_pos past]) .returned, rfl, unmoved⟩
    next inside =>
      obtain ⟨cmd, own, rfl⟩ := Option.map_eq_some_iff.mp run
      cases user with
      | none =>
        refine ⟨s, .step ?_ .returned, rfl, unmoved⟩
        rw [Point.step, if_neg few, if_neg inside, own]
        rfl
      | some data =>
        have entered : (Point.enterWrite file count (some data)).step s = some (.next (.selectWrite file cmd data), s) := by
          rw [Point.step, if_neg few, if_neg inside, own]
          rfl
        exact ⟨_, .step entered (.step rfl (.step rfl (.step rfl .returned))), rfl, rfl⟩

def Call.enter (file : Nat) : Call → Point
  | .read count faults => .enterRead file count faults
  | .write count user => .enterWrite file count user

def Call.begin (file : Nat) : Call → Action
  | .read count faults => .read file count faults
  | .write count user => .write file count user

theorem Call.alone {call : Call} {outcome : Outcome} (run : call.run s.rtc (s.offp file) = some outcome) :
    ∃ s', Alone (fun s (point : Point) => point.step s) s (.next (call.enter file)) outcome.result s' ∧
      s'.rtc = outcome.rtc ∧ s'.offp = Function.update s.offp file outcome.offp := by
  cases call with
  | read => exact nameRead_alone run
  | write => exact nameWrite_alone run

theorem Call.begins (call : Call) (s : State) (file : Nat) :
    Machine.step ⟨s, []⟩ (call.begin file) = some ⟨s, [call.enter file]⟩ := by
  cases call <;> rfl

end Interleaved

/-- A process that has the clock to itself is a run of the interleaved system in which
nobody else makes a call. -/
theorem Process.run_machine {rtc : Rtc} {actions : List Process.Action} {p : Process}
    (run : Run Process.step (fun _ _ => True) { rtc := rtc } actions p) :
    ∃ more s, Run Machine.step (fun _ _ => True) (loaded rtc) more ⟨s, []⟩ ∧ s.rtc = p.rtc ∧ s.offp 0 = p.offp := by
  induction run with
  | nil => exact ⟨[], _, .nil, rfl, rfl⟩
  | @snoc _ p action next _ _ stepped ih =>
    obtain ⟨more, s, before, clock, position⟩ := ih
    obtain ⟨_, same, cases⟩ := p.step_cases action
    obtain rfl := Option.some.inj (stepped.symm.trans same)
    cases cases with
    | @sought target =>
      have moved : Function.update s.offp 0 target 0 = target := Function.update_self _ _ _
      exact ⟨more ++ [.seek 0 target], { s with offp := Function.update s.offp 0 target }, .snoc before trivial rfl, clock,
        moved⟩
    | @called call outcome returns =>
      rw [← clock, ← position] at returns
      obtain ⟨s', alone, left, moved⟩ := Call.alone returns
      have steps (m : Machine) (index : Nat) : m.step (.run index) = m.run (fun s point => point.step s) index := rfl
      obtain ⟨rest, finished⟩ := alone.run steps []
      refine ⟨more ++ [call.begin 0] ++ rest, s', Run.append (.snoc before trivial (call.begins s 0)) finished, left, ?_⟩
      rw [moved]
      exact Function.update_self _ _ _

end DeviceDrivers.Clock
