import DeviceDrivers.Calculator.Driver

/-! Which handlers the files of the calculator get. The semaphore keeps a second
file out as long as one is open, so the table stays as the open left it. What it
left there depends on the device number, which is read back from a global that
every open writes before it waits. -/

namespace DeviceDrivers.Calculator
open Runs Touches Interleavings Kernel

inductive Advance (s : State) : Point → Progress Point → State → Prop where
  | published {minor} : Advance s (.setTestdev minor) (.next (.readMinor minor)) { s with myTestdev := minor }
  | numbered {minor} : Advance s (.readMinor minor) (.next (.down minor s.myTestdev)) s
  | locked {minor dispatch} (free : 0 < s.mySem) :
      Advance s (.down minor dispatch) (.next (.patchRead minor dispatch)) { s with mySem := s.mySem - 1 }
  | unknown {minor dispatch} (unknown : Operation.ofMinor dispatch = none) :
      Advance s (.patchRead minor dispatch) (.next (.returnOpen minor dispatch)) s
  | patchedRead {minor dispatch op} (known : Operation.ofMinor dispatch = some op) :
      Advance s (.patchRead minor dispatch) (.next (.patchWrite minor dispatch))
        { s with fops := { s.fops with read := some op } }
  | patchedWrite {minor dispatch} :
      Advance s (.patchWrite minor dispatch) (.next (.returnOpen minor dispatch))
        { s with fops := { s.fops with write := Operation.ofMinor dispatch } }
  | opened {minor dispatch} :
      Advance s (.returnOpen minor dispatch) (.returned 0)
        { s with
          fresh := s.fresh + 1
          files := s.files ++ [(⟨s.fresh, minor⟩, none)]
          openings := s.openings ++ [(minor, s.fops)] }
  | noWrite {filp user count stack} (missing : s.fops.write = none) :
      Advance s (.callWrite filp user count stack) (.returned (-22)) s
  | calledWrite {filp user count stack op} (there : s.fops.write = some op) :
      Advance s (.callWrite filp user count stack) (.next (.copyIn filp op user count stack))
        { s with handled := s.handled ++ [(filp.minor, op)] }
  | faulted {filp op user count stack} : Advance s (.copyIn filp op user count stack) (.returned (-14)) s
  | copied {filp op user count stack} (complete : (copyIn stack user count).value.1 % 2 ^ 32 = 0) :
      Advance s (.copyIn filp op user count stack)
        (.next (.compute filp op user count (copyIn stack user count).value.2)) s
  | computed {filp op user count kbuff result}
      (applied : op.apply (operands kbuff).value.1 (operands kbuff).value.2 = some result) :
      Advance s (.compute filp op user count kbuff) (.returned count)
        (({ s with results := fun other => if other = op then result else s.results other } : State).written filp
          (suppliedPair user count))
  | noRead {filp} (missing : s.fops.read = none) : Advance s (.callRead filp) (.returned (-22)) s
  | calledRead {filp op} (there : s.fops.read = some op) :
      Advance s (.callRead filp) (.next (.copyOut filp op)) { s with handled := s.handled ++ [(filp.minor, op)] }
  | copiedOut {filp op} : Advance s (.copyOut filp op) (.returned 0)
      { s with readings := s.readings ++ [⟨filp.minor, s.lastPair filp, s.results op⟩] }
  | unlocked {filp} : Advance s (.up filp) (.returned 0)
      { s with mySem := s.mySem + 1, files := s.files.filter fun file => file.1 ≠ filp }

theorem Point.step_advance {s s' : State} {point : Point} {progress : Progress Point}
    (stepped : point.step s = some (progress, s')) : Advance s point progress s' := by
  cases point with
  | setTestdev minor => cases stepped; exact .published
  | readMinor minor => cases stepped; exact .numbered
  | down minor dispatch =>
    simp only [Point.step] at stepped
    split at stepped
    next => cases stepped
    next free => cases stepped; exact .locked (Nat.pos_of_ne_zero free)
  | patchRead minor dispatch =>
    simp only [Point.step] at stepped
    split at stepped
    next unknown => cases stepped; exact .unknown unknown
    next op known => cases stepped; exact .patchedRead known
  | patchWrite minor dispatch => cases stepped; exact .patchedWrite
  | returnOpen minor dispatch => cases stepped; exact .opened
  | callWrite filp user count stack =>
    simp only [Point.step] at stepped
    split at stepped
    next missing => cases stepped; exact .noWrite missing
    next op there => cases stepped; exact .calledWrite there
  | copyIn filp op user count stack =>
    simp only [Point.step] at stepped
    split at stepped
    next complete => cases stepped; exact .copied complete
    next => cases stepped; exact .faulted
  | compute filp op user count kbuff =>
    obtain ⟨result, applied, same⟩ := Option.map_eq_some_iff.mp stepped
    cases same
    exact .computed applied
  | callRead filp =>
    simp only [Point.step] at stepped
    split at stepped
    next missing => cases stepped; exact .noRead missing
    next op there => cases stepped; exact .calledRead there
  | copyOut filp op => cases stepped; exact .copiedOut
  | up filp => cases stepped; exact .unlocked

inductive Stepped (m : Machine) : Action → Machine → Prop where
  | opened {minor} (known : minor < 4) : Stepped m (.open minor) (m.start (.setTestdev minor))
  | wrote {filp user count stack} (usable : Usable m filp) :
      Stepped m (.write filp user count stack) (m.start (.callWrite filp user count stack))
  | read {filp} (usable : Usable m filp) : Stepped m (.read filp) (m.start (.callRead filp))
  | released {filp} (usable : Usable m filp) (quiet : ∀ call ∈ m.calls, call.filp ≠ some filp) :
      Stepped m (.release filp) (m.start (.up filp))
  | ran {index before point after progress s} (found : m.calls[index]? = some point)
      (shape : m.calls = before ++ point :: after) (advance : Advance m.shared point progress s) :
      Stepped m (.run index) ⟨s, before ++ progress.calls ++ after⟩

theorem Machine.step_cases {m m' : Machine} {action : Action} (stepped : m.step action = some m') :
    Stepped m action m' := by
  cases action with
  | «open» minor =>
    obtain ⟨known, same⟩ := Option.ite_none_right_eq_some.mp stepped
    cases same
    exact .opened known
  | write filp user count stack =>
    obtain ⟨usable, same⟩ := Option.ite_none_right_eq_some.mp stepped
    cases same
    exact .wrote usable
  | read filp =>
    obtain ⟨usable, same⟩ := Option.ite_none_right_eq_some.mp stepped
    cases same
    exact .read usable
  | release filp =>
    obtain ⟨⟨usable, quiet⟩, same⟩ := Option.ite_none_right_eq_some.mp stepped
    cases same
    exact .released usable quiet
  | run index =>
    obtain ⟨found, shape, _, taken⟩ := System.run_cases stepped
    exact .ran found shape (Point.step_advance taken)

@[simp] def Point.patching : Point → Bool
  | .patchRead _ _ | .patchWrite _ _ | .returnOpen _ _ => true
  | _ => false

/-- How far the call has patched the table, for the number it has read. -/
@[simp] def Point.Patched (s : State) : Point → Prop
  | .setTestdev minor | .readMinor minor => minor < 4
  | .down minor dispatch | .patchRead minor dispatch => minor < 4 ∧ dispatch < 4
  | .patchWrite minor dispatch => (minor < 4 ∧ dispatch < 4) ∧ s.fops.read = Operation.ofMinor dispatch
  | .returnOpen minor dispatch =>
    (minor < 4 ∧ dispatch < 4) ∧ s.fops = ⟨Operation.ofMinor dispatch, Operation.ofMinor dispatch⟩
  | _ => True

@[simp] def Point.on (filp : Filp) (point : Point) : Bool := point.filp = some filp

def State.Open (s : State) (filp : Filp) : Prop := ∃ file ∈ s.files, file.1 = filp

/-- The semaphore is held by one open under way, or on behalf of one open file. -/
structure Exclusive (m : Machine) : Prop where
  count : m.shared.mySem + m.calls.countP Point.patching + m.shared.files.length = 1
  testdev : m.shared.myTestdev < 4
  patched : Asserted Point.Patched m
  attached : Asserted (fun s call => ∀ filp, call.filp = some filp → s.Open filp) m
  alone : ∀ filp, (.up filp : Point) ∈ m.calls → m.calls.countP (Point.on filp) = 1

variable {s s' : State} {point : Point} {progress : Progress Point} {m m' : Machine}

theorem Advance.filp (advance : Advance s point progress s') : ∀ next ∈ progress.calls, next.filp = point.filp := by
  cases advance <;> simp [Point.filp]

theorem Advance.open (advance : Advance s point progress s') {filp : Filp} (there : s.Open filp) :
    point = .up filp ∨ s'.Open filp := by
  cases advance with
  | opened =>
    obtain ⟨file, member, same⟩ := there
    exact .inr ⟨file, List.mem_append_left _ member, same⟩
  | @computed other =>
    right
    obtain ⟨file, member, rfl⟩ := there
    refine ⟨_, List.mem_map_of_mem member, ?_⟩
    split
    next same => exact same.symm
    next => rfl
  | @unlocked other =>
    by_cases same : other = filp
    · exact .inl (by rw [same])
    · right
      obtain ⟨file, member, rfl⟩ := there
      exact ⟨file, by simpa [Ne.symm same] using member, rfl⟩
  | _ => exact .inr there

theorem Exclusive.single (exclusive : Exclusive m) {filp : Filp} (there : m.shared.Open filp) :
    ∃ pair, m.shared.files = [(filp, pair)] := by
  obtain ⟨⟨other, pair⟩, member, rfl⟩ := there
  have := exclusive.count
  have := List.length_pos_of_mem member
  obtain ⟨file, files⟩ := List.length_eq_one_iff.mp (show m.shared.files.length = 1 by omega)
  rw [files, List.mem_singleton] at member
  exact ⟨pair, by rw [files, ← member]⟩

theorem Advance.count (advance : Advance s point progress s')
    (single : ∀ filp, point = .up filp → ∃ pair, s.files = [(filp, pair)]) :
    s'.mySem + progress.calls.countP Point.patching + s'.files.length =
      s.mySem + [point].countP Point.patching + s.files.length := by
  cases advance with
  | unlocked =>
    obtain ⟨pair, files⟩ := single _ rfl
    simp [files]
  | _ => simp_all [State.written] <;> omega

theorem Advance.testdev (advance : Advance s point progress s') (patched : point.Patched s) (known : s.myTestdev < 4) :
    s'.myTestdev < 4 := by
  cases advance with
  | published => exact patched
  | _ => exact known

theorem Operation.ofMinor_known {minor : Nat} (known : minor < 4) : ∃ op, Operation.ofMinor minor = some op := by
  match minor, known with
  | 0, _ | 1, _ | 2, _ | 3, _ => exact ⟨_, rfl⟩

theorem Advance.patched (advance : Advance s point progress s') (patched : point.Patched s) (known : s.myTestdev < 4) :
    ∀ next ∈ progress.calls, next.Patched s' := by
  cases advance with
  | unknown unknown =>
    obtain ⟨op, known⟩ := Operation.ofMinor_known patched.2
    simp [unknown] at known
  | _ => simp_all

/-- The table changes under the semaphore only. -/
theorem Advance.undisturbed (advance : Advance s point progress s') {other : Point}
    (apart : point.patching = true → other.patching = false) (held : other.Patched s) : other.Patched s' := by
  cases advance with
  | patchedRead | patchedWrite => cases other <;> simp_all
  | _ => cases other <;> exact held

private theorem Advance.not_up (advance : Advance s point progress s') (filp : Filp) :
    (.up filp : Point) ∉ progress.calls := by
  cases advance <;> simp

theorem Exclusive.apart {before after : List Point} {filp : Filp} (exclusive : Exclusive m)
    (shape : m.calls = before ++ point :: after) (on : point.filp = some filp) {other : Point}
    (member : other ∈ before ++ after) (releasing : point = .up filp ∨ other = .up filp) :
    other.filp ≠ some filp := by
  intro also
  have once : m.calls.countP (Point.on filp) = 1 := by
    apply exclusive.alone
    rcases releasing with rfl | rfl
    · simp [shape]
    · exact other_mem shape member
  have := count_pos (p := Point.on filp) member (by simp [also])
  rw [shape, List.countP_append, List.countP_cons] at once
  rw [List.countP_append] at this
  simp [on] at once
  omega

theorem Exclusive.replaced {before after : List Point} (exclusive : Exclusive m)
    (shape : m.calls = before ++ point :: after) (advance : Advance m.shared point progress s') :
    Exclusive ⟨s', before ++ progress.calls ++ after⟩ := by
  have running : point ∈ m.calls := by simp [shape]
  have single : ∀ filp, point = .up filp → ∃ pair, m.shared.files = [(filp, pair)] := by
    rintro filp rfl
    exact exclusive.single (exclusive.attached _ running filp rfl)
  refine ⟨?_, ?_, ?_, ?_, ?_⟩
  · have counted := count_replaced Point.patching before after progress.calls point
    have balance := advance.count single
    have total := exclusive.count
    rw [shape] at total
    change s'.mySem + (before ++ progress.calls ++ after).countP Point.patching + s'.files.length = 1
    omega
  · exact advance.testdev (exclusive.patched point running) exclusive.testdev
  · refine exclusive.patched.replaced shape (fun held => advance.patched held exclusive.testdev) ?_
    intro other member held
    refine advance.undisturbed (fun patching => ?_) held
    have total := exclusive.count
    rw [shape, List.countP_append, List.countP_cons, patching] at total
    rw [← Bool.not_eq_true]
    intro also
    have := count_pos member also
    rw [List.countP_append] at this
    simp at total
    omega
  · refine exclusive.attached.replaced shape ?_ ?_
    · intro held next member filp on
      rcases advance.open (held filp (advance.filp next member ▸ on)) with rfl | there
      · cases advance
        simp at member
      · exact there
    · intro other member held filp on
      rcases advance.open (held filp on) with rfl | there
      · exact absurd on (exclusive.apart shape rfl member (.inl rfl))
      · exact there
  · intro filp member
    have elsewhere : (.up filp : Point) ∈ before ++ after :=
      (mem_replaced.mp member).resolve_left (advance.not_up filp)
    have other : point.filp ≠ some filp := fun on => exclusive.apart shape on elsewhere (.inr rfl) rfl
    have unrelated : progress.calls.countP (Point.on filp) = 0 := by
      rw [List.countP_eq_zero]
      intro next member
      simp [advance.filp next member, other]
    have counted := count_replaced (Point.on filp) before after progress.calls point
    rw [← shape, exclusive.alone filp (other_mem shape elsewhere), unrelated] at counted
    simpa [other] using counted

theorem Exclusive.started {call : Point} (exclusive : Exclusive m) (outside : call.patching = false)
    (patched : call.Patched m.shared) (attached : ∀ filp, call.filp = some filp → m.shared.Open filp)
    (quiet : ∀ filp, call = .up filp → ∀ other ∈ m.calls, other.filp ≠ some filp)
    (usable : ∀ filp, call.filp = some filp → (.up filp : Point) ∉ m.calls) : Exclusive (m.start call) := by
  refine ⟨?_, exclusive.testdev, exclusive.patched.start patched, exclusive.attached.start attached, ?_⟩
  · simp only [System.start_calls, System.start_shared, List.countP_append, List.countP_cons, outside]
    exact exclusive.count
  · intro filp member
    rw [System.start_calls, List.countP_append]
    rcases List.mem_append.mp member with member | member
    · have other : call.filp ≠ some filp := fun on => usable filp on member
      simp [exclusive.alone filp member, other]
    · obtain rfl := List.mem_singleton.mp member
      have none : m.calls.countP (Point.on filp) = 0 := by
        rw [List.countP_eq_zero]
        intro other member
        simp [quiet filp rfl other member]
      simp [none, Point.filp]

private theorem Usable.not_up {filp : Filp} (usable : Usable m filp) : (.up filp : Point) ∉ m.calls := by
  intro member
  simpa [Point.releases] using usable.2 _ member

theorem Exclusive.step {action : Action} (exclusive : Exclusive m) (stepped : m.step action = some m') :
    Exclusive m' := by
  cases Machine.step_cases stepped with
  | opened known => exact exclusive.started rfl known (by simp [Point.filp]) (by simp) (by simp [Point.filp])
  | wrote usable | read usable =>
    refine exclusive.started rfl trivial ?_ (by simp) ?_
    · rintro _ ⟨⟩
      exact usable.1
    · rintro _ ⟨⟩
      exact usable.not_up
  | released usable quiet =>
    refine exclusive.started rfl trivial ?_ ?_ ?_
    · rintro _ ⟨⟩
      exact usable.1
    · rintro _ ⟨⟩
      exact quiet
    · rintro _ ⟨⟩
      exact usable.not_up
  | ran _ shape advance => exact exclusive.replaced shape advance

theorem Exclusive.initial : Exclusive loaded :=
  ⟨rfl, by decide, by simp [Asserted, loaded], by simp [Asserted, loaded], by simp [loaded]⟩

def Fops.of (minor : Nat) : Fops := ⟨Operation.ofMinor minor, Operation.ofMinor minor⟩

/-- Every open left the table of its own device behind, every read and write ran
the handler of its own device, and a process read what its operation makes of
the pair it wrote last. -/
structure OwnOperation (s : State) : Prop where
  openings : ∀ opening ∈ s.openings, opening.2 = .of opening.1
  handled : ∀ call ∈ s.handled, Operation.ofMinor call.1 = some call.2
  readings : ∀ reading ∈ s.readings, ∀ a b, reading.pair = some (a, b) →
    ∃ op, Operation.ofMinor reading.minor = some op ∧ op.apply a b = some reading.value

def Point.OwnDevice (s : State) : Point → Prop
  | .readMinor minor => s.myTestdev = minor
  | _ => True

def Action.OwnDevice (m : Machine) : Action → Prop
  | .run index => ∀ point ∈ m.calls[index]?, point.OwnDevice m.shared
  | _ => True

instance (s : State) (point : Point) : Decidable (point.OwnDevice s) := by
  cases point with
  | readMinor minor => exact inferInstanceAs (Decidable (_ = _))
  | _ => exact inferInstanceAs (Decidable True)

instance (m : Machine) (action : Action) : Decidable (action.OwnDevice m) := by
  cases action with
  | run index => exact inferInstanceAs (Decidable (∀ point ∈ m.calls[index]?, point.OwnDevice m.shared))
  | _ => exact inferInstanceAs (Decidable True)

theorem operands_copied {stack : List UInt8} {user : UserBuffer} {count : Nat}
    (enough : 8 ≤ (user.readable 0 count).length) :
    (operands (copyIn stack user count).value.2).value = userPair user := by
  have whole (skipped : Nat) (small : skipped + 4 ≤ 8) :
      slice (copyIn stack user count).value.2.bytes skipped 4 = user.bytes skipped 4 := copied_slice (by omega)
  simp [operands, userPair, whole 0 (by omega), whole 4 (by omega)]

/-- An open under way has the right number, a handler was found in the right
table, and has the user's pair in its buffer. -/
@[simp] def Point.Own : Point → Prop
  | .down minor dispatch | .patchRead minor dispatch | .patchWrite minor dispatch | .returnOpen minor dispatch =>
    dispatch = minor
  | .copyIn filp op _ _ _ | .copyOut filp op => Operation.ofMinor filp.minor = some op
  | .compute filp op user count kbuff =>
    Operation.ofMinor filp.minor = some op ∧
      (8 ≤ (user.readable 0 count).length → (operands kbuff).value = userPair user)
  | _ => True

/-- `value` is what the operation of this minor makes of the pair. -/
def Results (minor : Nat) (pair : Option (BitVec 32 × BitVec 32)) (result : Operation → BitVec 32) : Prop :=
  ∀ a b, pair = some (a, b) → ∃ op, Operation.ofMinor minor = some op ∧ op.apply a b = some (result op)

structure Dispatched (m : Machine) : Prop extends Exclusive m where
  own : ∀ call ∈ m.calls, call.Own
  table : ∀ file ∈ m.shared.files, m.shared.fops = .of file.1.minor
  pairs : ∀ file ∈ m.shared.files, Results file.1.minor file.2 m.shared.results
  history : OwnOperation m.shared

theorem Advance.own (advance : Advance s point progress s') (own : point.Own)
    (device : ∀ minor, point = .readMinor minor → s.myTestdev = minor)
    (table : ∀ filp, point.filp = some filp → s.fops = .of filp.minor) : ∀ next ∈ progress.calls, next.Own := by
  cases advance with
  | numbered => simpa using device _ rfl
  | calledWrite there | calledRead there =>
    have same := table _ rfl
    rw [same] at there
    simpa [Fops.of] using there
  | copied => exact List.forall_mem_singleton.mpr ⟨own, operands_copied⟩
  | _ => simp_all

private theorem Dispatched.table_of {filp : Filp} (dispatched : Dispatched m) (running : point ∈ m.calls)
    (on : point.filp = some filp) : m.shared.fops = .of filp.minor := by
  obtain ⟨file, member, rfl⟩ := dispatched.attached point running filp on
  exact dispatched.table file member

theorem Exclusive.unopened (exclusive : Exclusive m) (running : point ∈ m.calls) (patching : point.patching = true) :
    m.shared.files = [] := by
  have := exclusive.count
  have := count_pos running patching
  exact List.eq_nil_of_length_eq_zero (by omega)

theorem Dispatched.shared (dispatched : Dispatched m) (running : point ∈ m.calls)
    (advance : Advance m.shared point progress s') :
    (∀ file ∈ s'.files, s'.fops = .of file.1.minor) ∧ (∀ file ∈ s'.files, Results file.1.minor file.2 s'.results) ∧
      OwnOperation s' := by
  have own := dispatched.own point running
  obtain ⟨openings, handled, readings⟩ := dispatched.history
  cases advance with
  | patchedRead | patchedWrite =>
    have none := dispatched.unopened running rfl
    exact ⟨by simp [none], by simp [none], ⟨openings, handled, readings⟩⟩
  | opened =>
    obtain ⟨_, patched⟩ := dispatched.patched _ running
    obtain rfl := own
    refine ⟨?_, ?_, ⟨?_, handled, readings⟩⟩
    · simp [dispatched.unopened running rfl, patched, Fops.of]
    · simp [dispatched.unopened running rfl, Results]
    · exact List.forall_mem_append.mpr ⟨openings, List.forall_mem_singleton.mpr patched⟩
  | calledWrite there | calledRead there =>
    refine ⟨dispatched.table, dispatched.pairs, ⟨openings, ?_, readings⟩⟩
    have same := dispatched.table_of running rfl
    rw [same] at there
    exact List.forall_mem_append.mpr ⟨handled, List.forall_mem_singleton.mpr there⟩
  | @computed filp op user count kbuff result applied =>
    obtain ⟨right, operands⟩ := own
    obtain ⟨pair, files⟩ := dispatched.single (dispatched.attached _ running filp rfl)
    have fops := dispatched.table_of running rfl
    refine ⟨by simp [State.written, files, fops], ?_, ⟨openings, handled, readings⟩⟩
    simp only [State.written, files, List.map_cons, if_true, List.map_nil, List.forall_mem_singleton]
    intro a b supplied
    simp only [suppliedPair, Option.ite_none_right_eq_some, Option.some.injEq] at supplied
    obtain ⟨enough, pair⟩ := supplied
    rw [operands enough, pair] at applied
    exact ⟨op, right, by simpa using applied⟩
  | @copiedOut filp op =>
    obtain ⟨pair, files⟩ := dispatched.single (dispatched.attached _ running filp rfl)
    refine ⟨dispatched.table, dispatched.pairs, ⟨openings, handled, ?_⟩⟩
    refine List.forall_mem_append.mpr ⟨readings, List.forall_mem_singleton.mpr ?_⟩
    intro a b last
    simp only [State.lastPair, files, List.find?_cons_of_pos, decide_true, Option.bind_some] at last
    obtain ⟨other, known, applied⟩ := dispatched.pairs (filp, pair) (by simp [files]) a b last
    obtain rfl : op = other := Option.some.inj (own.symm.trans known)
    exact ⟨op, known, applied⟩
  | unlocked =>
    exact ⟨fun file member => dispatched.table file (List.mem_filter.mp member).1,
      fun file member => dispatched.pairs file (List.mem_filter.mp member).1, ⟨openings, handled, readings⟩⟩
  | _ => exact ⟨dispatched.table, dispatched.pairs, ⟨openings, handled, readings⟩⟩

theorem Dispatched.step {action : Action} (dispatched : Dispatched m) (device : action.OwnDevice m)
    (stepped : m.step action = some m') : Dispatched m' := by
  have exclusive := dispatched.toExclusive.step stepped
  have own := dispatched.own
  cases Machine.step_cases stepped with
  | opened | wrote | read | released =>
    exact ⟨exclusive, List.forall_mem_append.mpr ⟨own, List.forall_mem_singleton.mpr trivial⟩, dispatched.table,
      dispatched.pairs, dispatched.history⟩
  | ran found shape advance =>
    have running := List.mem_of_getElem? found
    obtain ⟨table, pairs, history⟩ := dispatched.shared running advance
    refine ⟨exclusive, ?_, table, pairs, history⟩
    have next := advance.own (own _ running) ?_ (fun filp on => dispatched.table_of running on)
    · exact all_replaced own shape fun _ => next
    · rintro minor rfl
      exact device _ found

theorem Dispatched.initial : Dispatched loaded :=
  ⟨.initial, by simp [loaded], by simp [loaded], by simp [loaded],
    ⟨by simp [loaded], by simp [loaded], by simp [loaded]⟩⟩

def Point.Misled : Point → Prop
  | .down minor dispatch | .patchRead minor dispatch | .patchWrite minor dispatch | .returnOpen minor dispatch =>
    dispatch ≠ minor
  | _ => False

/-- Some open has been misled, and has left or will leave the wrong table behind. -/
def Misled (m : Machine) : Prop :=
  (∃ call ∈ m.calls, call.Misled) ∨ ∃ opening ∈ m.shared.openings, opening.2 ≠ .of opening.1

private theorem Operation.ofMinor_injective {first last : Nat} (small : first < 4) (also : last < 4)
    (same : Operation.ofMinor first = Operation.ofMinor last) : first = last := by
  match first, small, last, also with
  | 0, _, 0, _ | 1, _, 1, _ | 2, _, 2, _ | 3, _, 3, _ => rfl
  | 0, _, 1, _ | 0, _, 2, _ | 0, _, 3, _ | 1, _, 0, _ | 1, _, 2, _ | 1, _, 3, _ => cases same
  | 2, _, 0, _ | 2, _, 1, _ | 2, _, 3, _ | 3, _, 0, _ | 3, _, 1, _ | 3, _, 2, _ => cases same

private theorem Advance.misled (advance : Advance s point progress s') (patched : point.Patched s)
    (misled : point.Misled) :
    (∃ next ∈ progress.calls, next.Misled) ∨ ∃ opening ∈ s'.openings, opening.2 ≠ .of opening.1 := by
  cases advance with
  | locked | unknown | patchedRead | patchedWrite => exact .inl ⟨_, List.mem_singleton_self _, misled⟩
  | @opened minor dispatch =>
    obtain ⟨⟨known, small⟩, fops⟩ := patched
    refine .inr ⟨_, List.mem_append_right _ (List.mem_singleton_self _), fun same => misled ?_⟩
    rw [fops] at same
    exact Operation.ofMinor_injective small known (congrArg Fops.read same)
  | _ => cases misled

theorem Advance.openings (advance : Advance s point progress s') : ∀ opening ∈ s.openings, opening ∈ s'.openings := by
  cases advance with
  | opened => exact fun opening member => List.mem_append_left _ member
  | _ => exact fun _ member => member

theorem Misled.step {action : Action} (exclusive : Exclusive m) (misled : Misled m)
    (stepped : m.step action = some m') : Misled m' := by
  cases Machine.step_cases stepped with
  | opened | wrote | read | released =>
    rcases misled with ⟨call, member, wrong⟩ | logged
    · exact .inl ⟨call, List.mem_append_left _ member, wrong⟩
    · exact .inr logged
  | @ran index before point after progress s' found shape advance =>
    rcases misled with ⟨call, member, wrong⟩ | ⟨opening, member, wrong⟩
    · rw [shape, List.mem_append, List.mem_cons] at member
      rcases member with member | rfl | member
      · exact .inl ⟨call, by simp [member], wrong⟩
      · rcases advance.misled (exclusive.patched _ (List.mem_of_getElem? found)) wrong with ⟨next, member, wrong⟩ | logged
        · exact .inl ⟨next, by simp [member], wrong⟩
        · exact .inr logged
      · exact .inl ⟨call, by simp [member], wrong⟩
    · exact .inr ⟨opening, advance.openings opening member, wrong⟩

/-- Reading back another open's device number is never made up for. -/
theorem Misled.violated {action : Action} (other : ¬ action.OwnDevice m) (stepped : m.step action = some m') :
    Misled m' := by
  cases Machine.step_cases stepped with
  | opened | wrote | read | released => exact absurd trivial other
  | ran found shape advance =>
    left
    simp only [Action.OwnDevice, found, Option.mem_def, Option.some.injEq, forall_eq'] at other
    cases advance with
    | numbered =>
      refine ⟨_, List.mem_append_left _ (List.mem_append_right _ (List.mem_singleton_self _)), ?_⟩
      exact other
    | _ => exact absurd trivial other

@[simp] def Point.opening : Point → Bool
  | .setTestdev _ | .readMinor _ | .down _ _ | .patchRead _ _ | .patchWrite _ _ | .returnOpen _ _ => true
  | _ => false

private theorem Point.Misled.opening (misled : point.Misled) : point.opening = true := by
  cases point <;> first | rfl | cases misled

/-- Over any interleaving at most one file is open. Its handlers, and all results
read, are those of its own device if every open has read its own number back,
and once no open is under way only then. -/
theorem own_operation_iff (actions : List Action) (m : Machine)
    (run : Run Machine.step (fun _ _ => True) loaded actions m) :
    m.shared.files.length ≤ 1 ∧
      (Run Machine.step Action.OwnDevice loaded actions m → OwnOperation m.shared) ∧
      ((∀ call ∈ m.calls, call.opening = false) → OwnOperation m.shared →
        Run Machine.step Action.OwnDevice loaded actions m) := by
  have exclusive := run.invariant Exclusive .initial fun _ _ _ kept _ stepped => kept.step stepped
  refine ⟨?_, ?_, ?_⟩
  · have := exclusive.count
    omega
  · intro guarded
    have dispatched := guarded.invariant Dispatched .initial fun _ _ _ kept device stepped => kept.step device stepped
    exact dispatched.history
  · intro idle own
    have settled : Run Machine.step (Both (fun _ _ => True) Action.OwnDevice) loaded actions m ∨ Misled m :=
      run.good_or_debt Exclusive Misled .initial (fun _ _ _ kept _ stepped => kept.step stepped)
        (fun _ _ _ _ _ stepped other => .violated other stepped)
        (fun _ _ _ kept misled _ stepped => misled.step kept stepped)
    rcases settled with good | ⟨call, member, wrong⟩ | ⟨opening, member, wrong⟩
    · exact good.mono fun _ _ both => both.2
    · have under := wrong.opening
      rw [idle call member] at under
      cases under
    · exact absurd (own.openings opening member) wrong

def sampleUser : UserBuffer := { byte := fun i => [3, 0, 0, 0, 1].getD i 0 }

/-- One process subtracts while another waits to multiply. -/
theorem own_operation_iff_pair : ∃ actions m, Run Machine.step Action.OwnDevice loaded actions m ∧
    m.calls.length = 1 ∧ m.shared.readings = [⟨1, some (3#32, 1#32), 2#32⟩] ∧ OwnOperation m.shared := by
  have reached : ∃ m : Machine, Run Machine.step Action.OwnDevice loaded
      (.open 1 :: List.replicate 6 (.run 0) ++ .open 2 :: List.replicate 2 (.run 0) ++
        .write ⟨0, 1⟩ sampleUser 8 [] :: List.replicate 3 (.run 1) ++ .read ⟨0, 1⟩ :: List.replicate 2 (.run 1)) m ∧
      m.calls.length = 1 ∧ m.shared.readings = [⟨1, some (3#32, 1#32), 2#32⟩] :=
    reaches_of_execute (by decide +kernel)
  obtain ⟨m, run, opened, readings⟩ := reached
  have property := own_operation_iff _ m (run.mono fun _ _ _ => trivial)
  exact ⟨_, m, run, opened, readings, property.2.1 run⟩

/-- Two processes store their device numbers before the first reads its own back. -/
theorem other_operation_run : ¬ ∀ (actions : List Action) (m : Machine),
    Run Machine.step (fun _ _ => True) loaded actions m → OwnOperation m.shared := by
  intro claim
  have reached : ∃ m : Machine, Run Machine.step (fun _ _ => True) loaded
      (.open 0 :: .open 1 :: .run 0 :: .run 1 :: List.replicate 5 (.run 0) ++
        .write ⟨0, 0⟩ sampleUser 8 [] :: List.replicate 3 (.run 1) ++ .read ⟨0, 0⟩ :: List.replicate 2 (.run 1)) m ∧
      m.shared.readings = [⟨0, some (3#32, 1#32), 2#32⟩] := reaches_of_execute (by decide +kernel)
  obtain ⟨m, run, read⟩ := reached
  obtain ⟨op, known, applied⟩ := (claim _ m run).readings ⟨0, some (3#32, 1#32), 2#32⟩ (by simp [read]) _ _ rfl
  cases known
  exact absurd applied (by decide)

end DeviceDrivers.Calculator
