import DeviceDrivers.Clock.Driver
import Mathlib.Data.List.Nodup

/-! Which registers the transfers of the clock reach. Nothing keeps another call from
selecting a register between a selection and its transfer. -/

namespace DeviceDrivers.Clock
open Runs Interleavings

variable {s s' : State} {m m' : Machine} {point : Point} {progress : Progress Point}

inductive Advance (s : State) : Point → Progress Point → State → Prop where
  | refusedRead {file count faults value} : Advance s (.enterRead file count faults) (.returned value) s
  | enteredRead {file count faults cmd} (own : cmdArr[s.offp file]? = some cmd) :
      Advance s (.enterRead file count faults) (.next (.selectRead file cmd faults)) s
  | selectedRead {file cmd faults} :
      Advance s (.selectRead file cmd faults) (.next (.input file cmd (s.selections.length + 1) faults)) (s.select cmd)
  | got {file cmd since faults} : Advance s (.input file cmd since faults) (.next (.copyOut file s.input faults))
      { s.transfer file cmd since with readings := s.readings ++ [(s.input, s.rtc.registers cmd)] }
  | faulted {file data} : Advance s (.copyOut file data true) (.returned (-14)) s
  | copied {file data} : Advance s (.copyOut file data false) (.returned 1) (s.advance file)
  | refusedWrite {file count user value} : Advance s (.enterWrite file count user) (.returned value) s
  | enteredWrite {file count data cmd} (own : cmdArr[s.offp file]? = some cmd) :
      Advance s (.enterWrite file count (some data)) (.next (.selectWrite file cmd data)) s
  | selectedWrite {file cmd data} :
      Advance s (.selectWrite file cmd data) (.next (.output file cmd (s.selections.length + 1) data)) (s.select cmd)
  | put {file cmd since data} : Advance s (.output file cmd since data) (.next (.advance file))
      ((s.transfer file cmd since).output cmd data)
  | advanced {file} : Advance s (.advance file) (.returned 1) (s.advance file)

theorem Point.step_advance (stepped : point.step s = some (progress, s')) : Advance s point progress s' := by
  cases point with
  | enterRead file count faults =>
    simp only [Point.step] at stepped
    split at stepped
    next => cases stepped; exact .refusedRead
    next =>
      split at stepped
      next => cases stepped; exact .refusedRead
      next =>
        obtain ⟨cmd, own, same⟩ := Option.map_eq_some_iff.mp stepped
        cases same
        exact .enteredRead own
  | selectRead file cmd faults => cases stepped; exact .selectedRead
  | input file cmd since faults => cases stepped; exact .got
  | copyOut file data faults =>
    cases faults with
    | true => cases stepped; exact .faulted
    | false => cases stepped; exact .copied
  | enterWrite file count user =>
    simp only [Point.step] at stepped
    split at stepped
    next => cases stepped; exact .refusedWrite
    next =>
      split at stepped
      next => cases stepped; exact .refusedWrite
      next =>
        obtain ⟨cmd, own, same⟩ := Option.map_eq_some_iff.mp stepped
        cases user with
        | none => cases same; exact .refusedWrite
        | some data => cases same; exact .enteredWrite own
  | selectWrite file cmd data => cases stepped; exact .selectedWrite
  | output file cmd since data => cases stepped; exact .put
  | advance file => cases stepped; exact .advanced

def Point.entry : Point → Bool
  | .enterRead _ _ _ | .enterWrite _ _ _ => true
  | _ => false

inductive Stepped (m : Machine) : Action → Machine → Prop where
  | sought {file position} (idle : m.idle file = true) : Stepped m (.seek file position)
      { m with shared := { m.shared with offp := Function.update m.shared.offp file position } }
  | called {action call} (idle : m.idle call.file = true) (entry : call.entry = true) :
      Stepped m action (m.start call)
  | ran {index before point after progress s} (found : m.calls[index]? = some point)
      (shape : m.calls = before ++ point :: after) (others : m.calls.eraseIdx index = before ++ after)
      (advance : Advance m.shared point progress s) : Stepped m (.run index) ⟨s, before ++ progress.calls ++ after⟩

theorem Machine.step_cases {action : Action} (stepped : m.step action = some m') : Stepped m action m' := by
  cases action with
  | seek file position =>
    obtain ⟨idle, same⟩ := Option.ite_none_right_eq_some.mp stepped
    cases same
    exact .sought idle
  | read file count faults =>
    obtain ⟨idle, same⟩ := Option.ite_none_right_eq_some.mp stepped
    cases same
    exact .called idle rfl
  | write file count user =>
    obtain ⟨idle, same⟩ := Option.ite_none_right_eq_some.mp stepped
    cases same
    exact .called idle rfl
  | run index =>
    obtain ⟨found, shape, others, taken⟩ := System.run_cases stepped
    exact .ran found shape others (Point.step_advance taken)

/-- The register that the call has picked is that of its file's position. -/
def Point.Own (s : State) : Point → Prop
  | .selectRead file cmd _ | .input file cmd _ _ | .selectWrite file cmd _ | .output file cmd _ _ =>
    cmdArr[s.offp file]? = some cmd
  | _ => True

/-- The selection that the call has made is on record, the later ones after it. -/
def Point.Selected (s : State) : Point → Prop
  | .input _ cmd since _ | .output _ cmd since _ => 0 < since ∧ s.selections[since - 1]? = some cmd
  | _ => True

/-- A transfer reaches the register of its own position, unless another register was
selected after the call's own selection. -/
def Reaching (transfer : Transfer) : Prop :=
  cmdArr[transfer.position]? = some transfer.meant ∧
    ((∀ cmd ∈ transfer.between, cmd = transfer.meant) → transfer.reached = transfer.meant)

structure Recorded (m : Machine) : Prop where
  apart : (m.calls.map Point.file).Nodup
  own : Asserted Point.Own m
  selected : Asserted Point.Selected m
  last : ∀ cmd ∈ m.shared.selections.getLast?, m.shared.rtc.selected = cmd
  reaching : ∀ transfer ∈ m.shared.transfers, Reaching transfer

theorem Advance.file (advance : Advance s point progress s') : ∀ next ∈ progress.calls, next.file = point.file := by
  cases advance <;> simp [Point.file]

theorem Advance.offp (advance : Advance s point progress s') {file : Nat} (other : file ≠ point.file) :
    s'.offp file = s.offp file := by
  cases advance with
  | copied | advanced => exact Function.update_of_ne other _ _
  | _ => rfl

theorem Advance.selections (advance : Advance s point progress s') :
    ∃ more, s'.selections = s.selections ++ more := by
  cases advance with
  | @selectedRead _ cmd | @selectedWrite _ cmd => exact ⟨[cmd], rfl⟩
  | _ => exact ⟨[], (List.append_nil _).symm⟩

theorem Advance.last (advance : Advance s point progress s')
    (last : ∀ cmd ∈ s.selections.getLast?, s.rtc.selected = cmd) :
    ∀ cmd ∈ s'.selections.getLast?, s'.rtc.selected = cmd := by
  cases advance with
  | selectedRead | selectedWrite => simp [State.select]
  | _ => exact last

theorem Point.Selected.kept {more : List Byte} (selected : point.Selected s)
    (grown : s'.selections = s.selections ++ more) : point.Selected s' := by
  cases point with
  | input _ _ since | output _ _ since =>
    obtain ⟨positive, there⟩ := selected
    have inside := (List.getElem?_eq_some_iff.mp there).1
    refine ⟨positive, ?_⟩
    rw [grown, List.getElem?_append_left inside, there]
  | _ => trivial

/-- With nothing else selected since, the register selected last is the call's own. -/
private theorem reaches {cmd : Byte} {since : Nat} (chosen : 0 < since ∧ s.selections[since - 1]? = some cmd)
    (last : ∀ cmd ∈ s.selections.getLast?, s.rtc.selected = cmd)
    (same : ∀ other ∈ s.selections.drop since, other = cmd) : s.rtc.selected = cmd := by
  obtain ⟨positive, there⟩ := chosen
  have inside := (List.getElem?_eq_some_iff.mp there).1
  apply last
  rw [List.getLast?_eq_getElem?]
  by_cases latest : since = s.selections.length
  · rw [← latest]
    exact there
  · have final : s.selections[s.selections.length - 1]? = some (s.selections[s.selections.length - 1]) :=
      List.getElem?_eq_getElem (by omega)
    have later : s.selections[s.selections.length - 1] ∈ s.selections.drop since :=
      List.mem_drop_iff_getElem.mpr ⟨s.selections.length - 1 - since, by omega, by congr 1; omega⟩
    rw [final, same _ later]
    rfl

private theorem Advance.reaching (advance : Advance s point progress s') (own : point.Own s)
    (selected : point.Selected s) (last : ∀ cmd ∈ s.selections.getLast?, s.rtc.selected = cmd)
    (reaching : ∀ transfer ∈ s.transfers, Reaching transfer) : ∀ transfer ∈ s'.transfers, Reaching transfer := by
  cases advance with
  | got | put =>
    refine List.forall_mem_append.mpr ⟨reaching, List.forall_mem_singleton.mpr ?_⟩
    exact ⟨own, fun same => reaches selected last same⟩
  | _ => exact reaching

theorem Advance.next (advance : Advance s point progress s') (own : point.Own s) :
    ∀ next ∈ progress.calls, next.Own s' ∧ next.Selected s' := by
  cases advance with
  | enteredRead here | enteredWrite here => exact List.forall_mem_singleton.mpr ⟨here, trivial⟩
  | selectedRead | selectedWrite => exact List.forall_mem_singleton.mpr ⟨own, Nat.succ_pos _, by simp [State.select]⟩
  | _ => simp [Point.Own, Point.Selected]

theorem Point.Own.moved {moved : State} (own : point.Own s) (same : moved.offp point.file = s.offp point.file) :
    point.Own moved := by
  cases point with
  | selectRead | input | selectWrite | output => exact (congrArg (cmdArr[·]?) same).trans own
  | _ => trivial

theorem Recorded.step {action : Action} (recorded : Recorded m) (stepped : m.step action = some m') :
    Recorded m' := by
  obtain ⟨apart, own, selected, last, reaching⟩ := recorded
  cases Machine.step_cases stepped with
  | @sought file position idle =>
    refine ⟨apart, fun call member => (own call member).moved ?_, selected, last, reaching⟩
    have other : call.file ≠ file := by simpa using List.all_eq_true.mp idle call member
    exact Function.update_of_ne other _ _
  | @called _ call idle entry =>
    have fresh : call.Own m.shared ∧ call.Selected m.shared := by
      cases call <;> first | exact ⟨trivial, trivial⟩ | cases entry
    refine ⟨?_, own.start fresh.1, selected.start fresh.2, last, reaching⟩
    rw [System.start_calls, List.map_append, List.nodup_append]
    refine ⟨apart, by simp, ?_⟩
    rintro _ there _ here rfl
    obtain ⟨other, member, same⟩ := List.mem_map.mp there
    have different : other.file ≠ call.file := by simpa using List.all_eq_true.mp idle other member
    exact different (same.trans (by simpa using here))
  | @ran index before point after progress s _ shape _ advance =>
    have running : point ∈ m.calls := by simp [shape]
    have next := advance.next (own point running)
    obtain ⟨more, grown⟩ := advance.selections
    rw [shape, List.map_append, List.map_cons, List.nodup_middle, List.nodup_cons, ← List.map_append] at apart
    have elsewhere (other : Point) (member : other ∈ before ++ after) : other.file ≠ point.file := by
      intro same
      exact apart.1 (List.mem_map.mpr ⟨other, member, same⟩)
    refine ⟨?_, own.replaced shape (fun _ call member => (next call member).1) ?_,
      selected.replaced shape (fun _ call member => (next call member).2) ?_, advance.last last,
      advance.reaching (own point running) (selected point running) last reaching⟩
    · have files := advance.file
      change ((before ++ progress.calls ++ after).map Point.file).Nodup
      cases progress with
      | returned => simpa using apart.2
      | next call =>
        have same : call.file = point.file := files call (List.mem_singleton_self _)
        rw [calls_next, List.append_assoc, List.singleton_append, List.map_append, List.map_cons, List.nodup_middle,
          List.nodup_cons, ← List.map_append, same]
        exact apart
    · exact fun other member held => held.moved (advance.offp (elsewhere other member))
    · exact fun other _ held => held.kept grown

def Point.selects : Point → Option Byte
  | .selectRead _ cmd _ | .selectWrite _ cmd _ => some cmd
  | _ => none

def Point.transfers : Point → Option Byte
  | .input _ cmd _ _ | .output _ cmd _ _ => some cmd
  | _ => none

/-- No call selects another register while this one's transfer is outstanding. -/
def Action.Undisturbed (m : Machine) : Action → Prop
  | .run index => ∀ point ∈ m.calls[index]?, ∀ cmd ∈ point.selects, ∀ other ∈ m.calls,
    ∀ chosen ∈ other.transfers, chosen = cmd
  | _ => True

instance (m : Machine) (action : Action) : Decidable (action.Undisturbed m) := by
  cases action with
  | run index =>
    exact inferInstanceAs (Decidable (∀ point ∈ m.calls[index]?, ∀ cmd ∈ point.selects, ∀ other ∈ m.calls,
      ∀ chosen ∈ other.transfers, chosen = cmd))
  | _ => exact inferInstanceAs (Decidable True)

/-- Every transfer reached its own register, each read got what its own register
held, and the registers are as the writes to their own registers left them. -/
structure Selected (s : State) : Prop where
  transfers : ∀ transfer ∈ s.transfers, cmdArr[transfer.position]? = some transfer.reached
  readings : ∀ reading ∈ s.readings, reading.1 = reading.2
  registers : s.rtc.registers = s.intended

structure Current (m : Machine) : Prop where
  selected : Selected m.shared
  own : Asserted Point.Own m
  current : ∀ call ∈ m.calls, ∀ cmd ∈ call.transfers, m.shared.rtc.selected = cmd

theorem Advance.current (advance : Advance s point progress s') (own : point.Own s)
    (current : ∀ cmd ∈ point.transfers, s.rtc.selected = cmd) (selected : Selected s) : Selected s' := by
  obtain ⟨transfers, readings, registers⟩ := selected
  cases advance with
  | got =>
    have reached := current _ rfl
    refine ⟨?_, ?_, registers⟩
    · refine List.forall_mem_append.mpr ⟨transfers, List.forall_mem_singleton.mpr ?_⟩
      rw [reached]
      exact own
    · refine List.forall_mem_append.mpr ⟨readings, List.forall_mem_singleton.mpr ?_⟩
      rw [State.input, reached]
  | put =>
    have reached := current _ rfl
    refine ⟨?_, readings, ?_⟩
    · refine List.forall_mem_append.mpr ⟨transfers, List.forall_mem_singleton.mpr ?_⟩
      rw [reached]
      exact own
    · simp only [State.output, State.transfer, reached, registers]
  | _ => exact ⟨transfers, readings, registers⟩

theorem Advance.transfers (advance : Advance s point progress s') :
    ∀ next ∈ progress.calls, ∀ cmd ∈ next.transfers, s'.rtc.selected = cmd := by
  cases advance with
  | selectedRead | selectedWrite => exact List.forall_mem_singleton.mpr fun _ chosen => Option.some.inj chosen
  | _ => simp [Point.transfers]

theorem Advance.selected (advance : Advance s point progress s') :
    s'.rtc.selected = s.rtc.selected ∨ point.selects = some s'.rtc.selected := by
  cases advance with
  | selectedRead | selectedWrite => exact .inr rfl
  | _ => exact .inl rfl

theorem Current.step {action : Action} (kept : Current m) (recorded : Recorded m) (undisturbed : action.Undisturbed m)
    (stepped : m.step action = some m') : Current m' := by
  have own := (recorded.step stepped).own
  obtain ⟨selected, _, current⟩ := kept
  cases Machine.step_cases stepped with
  | sought => exact ⟨⟨selected.transfers, selected.readings, selected.registers⟩, own, current⟩
  | @called _ call _ entry =>
    have none : call.transfers = none := by cases call <;> first | rfl | cases entry
    refine ⟨selected, own, List.forall_mem_append.mpr ⟨current, List.forall_mem_singleton.mpr ?_⟩⟩
    simp [none]
  | @ran index before point after progress s found shape _ advance =>
    have running : point ∈ m.calls := by simp [shape]
    have chosen := undisturbed point found
    refine ⟨advance.current (recorded.own point running) (current point running) selected, own, ?_⟩
    intro other member cmd transfers
    rcases mem_replaced.mp member with rest | elsewhere
    · exact advance.transfers other rest cmd transfers
    · have there := other_mem shape elsewhere
      rcases advance.selected with same | selects
      · rw [same]
        exact current other there cmd transfers
      · exact (chosen _ selects other there cmd transfers).symm

/-- In every run each transfer reaches the register of its own file's position unless
another call has selected a different one since its own selection. In a run where
none does, each read gets what its own register held and each write changes it. -/
theorem reaching_own (rtc : Rtc) (actions : List Action) (m : Machine)
    (run : Run Machine.step (fun _ _ => True) (loaded rtc) actions m) :
    (∀ transfer ∈ m.shared.transfers, Reaching transfer) ∧
      (Run Machine.step Action.Undisturbed (loaded rtc) actions m → Selected m.shared) := by
  have initial : Recorded (loaded rtc) := by
    refine ⟨?_, ?_, ?_, ?_, ?_⟩ <;> simp [loaded, Asserted]
  refine ⟨(run.invariant Recorded initial fun _ _ _ kept _ stepped => kept.step stepped).reaching, ?_⟩
  intro undisturbed
  have start : Current (loaded rtc) := by
    refine ⟨⟨?_, ?_, rfl⟩, ?_, ?_⟩ <;> simp [loaded, Asserted]
  have kept := undisturbed.invariant (fun m => Recorded m ∧ Current m) ⟨initial, start⟩
    fun _ _ _ kept apart stepped => ⟨kept.1.step stepped, kept.2.step kept.1 apart stepped⟩
  exact kept.2.selected

def sampleRtc : Rtc := { registers := id }

/-- The month is set while another process reads the day. -/
theorem reaching_own_month : ∃ actions m, Run Machine.step Action.Undisturbed (loaded sampleRtc) actions m ∧
    m.shared.transfers.length = 2 ∧ m.shared.readings = [(7#8, 7#8)] ∧ Selected m.shared := by
  have reached : ∃ m : Machine, Run Machine.step Action.Undisturbed (loaded sampleRtc)
      [.read 0 1 false, .seek 1 1, .write 1 1 (some 12#8), .run 0, .run 1, .run 0, .run 0, .run 1, .run 1, .run 0,
        .run 0] m ∧
      m.shared.transfers.length = 2 ∧ m.shared.readings = [(7#8, 7#8)] :=
    reaches_of_execute (by decide +kernel)
  obtain ⟨m, run, transfers, readings⟩ := reached
  exact ⟨_, m, run, transfers, readings, (reaching_own sampleRtc _ m (run.mono fun _ _ _ => trivial)).2 run⟩

/-- One process reads the day, and another selects the seconds in between. -/
theorem seconds_for_day_run : ¬ ∀ (rtc : Rtc) (actions : List Action) (m : Machine),
    Run Machine.step (fun _ _ => True) (loaded rtc) actions m → Selected m.shared := by
  intro claim
  have reached : ∃ m : Machine, Run Machine.step (fun _ _ => True) (loaded sampleRtc)
      [.seek 1 5, .read 0 1 false, .read 1 1 false, .run 0, .run 0, .run 1, .run 1, .run 0, .run 0] m ∧
      m.shared.readings = [(0#8, 7#8)] := reaches_of_execute (by decide +kernel)
  obtain ⟨m, run, readings⟩ := reached
  have same := (claim _ _ m run).readings (0#8, 7#8) (by simp [readings])
  exact absurd same (by decide)

end DeviceDrivers.Clock
