import DeviceDrivers.Calculator.Programs
import DeviceDrivers.Library.Locks
import DeviceDrivers.Library.Refinements
import DeviceDrivers.Proofs.CalculatorArithmetic

/-! The programs of the calculator at work together. From the first patch of the table to
the release of its file a process has the semaphore, and with it the table, the open file and
the results to itself. It gets the operation whose number its open read back, applied to its
own pair. -/

namespace DeviceDrivers.Calculator
open Runs Touches Interleavings Locks Kernel

@[simp] def Line.inside : Line → Bool
  | .open call => call.patching
  | _ => true

/-- `my_sem`: no file is open while it is free. -/
def mySem : Lock World Process := ⟨fun s => s.driver.mySem, fun p => p.line.inside, fun s => s.driver.files = []⟩

@[simp] theorem mySem_holds (p : Process) : mySem.holds p = p.line.inside := rfl

def World.driven (s : World) (driver : State) : World := { s with driver }

@[simp] theorem World.driven_driver (s : World) (driver : State) : (s.driven driver).driver = driver := rfl
@[simp] theorem World.driven_printed (s : World) (driver : State) : (s.driven driver).printed = s.printed := rfl

def World.Offers (s : World) (op : Operation) : Prop := ∃ app ∈ s.launched, Operation.ofMinor app.minor = some op

structure World.Serves (s : World) (fd : Filp) (op : Operation) : Prop where
  file : s.driver.files.map Prod.fst = [fd]
  table : s.driver.fops = ⟨some op, some op⟩
  offered : s.Offers op

/-- What a process relies on at each place of the program. -/
inductive Line.Holds (s : World) (app : App) (result : BitVec 32) (stack : List UInt8) : Line → Prop where
  | setTestdev : Holds s app result stack (.open (.setTestdev app.minor))
  | readMinor {op} (known : Operation.ofMinor s.driver.myTestdev = some op) (offered : s.Offers op) :
      Holds s app result stack (.open (.readMinor app.minor))
  | down {dispatch op} (known : Operation.ofMinor dispatch = some op) (offered : s.Offers op) :
      Holds s app result stack (.open (.down app.minor dispatch))
  | patchRead {dispatch op} (known : Operation.ofMinor dispatch = some op) (offered : s.Offers op)
      (none : s.driver.files = []) : Holds s app result stack (.open (.patchRead app.minor dispatch))
  | patchWrite {dispatch op} (known : Operation.ofMinor dispatch = some op) (offered : s.Offers op)
      (none : s.driver.files = []) (patched : s.driver.fops.read = some op) :
      Holds s app result stack (.open (.patchWrite app.minor dispatch))
  | returnOpen {dispatch op} (offered : s.Offers op) (none : s.driver.files = [])
      (table : s.driver.fops = ⟨some op, some op⟩) : Holds s app result stack (.open (.returnOpen app.minor dispatch))
  | callWrite {fd op} (serves : s.Serves fd op) :
      Holds s app result stack (.write fd (.callWrite fd app.test 8 stack))
  | copyIn {fd op} (serves : s.Serves fd op) :
      Holds s app result stack (.write fd (.copyIn fd op app.test 8 stack))
  | compute {fd op kbuff} (serves : s.Serves fd op) (pair : (operands kbuff).value = (app.a, app.b)) :
      Holds s app result stack (.write fd (.compute fd op app.test 8 kbuff))
  | sleep {fd op} (serves : s.Serves fd op) (applied : op.apply app.a app.b = some (s.driver.results op)) :
      Holds s app result stack (.sleep fd)
  | callRead {fd op} (serves : s.Serves fd op) (applied : op.apply app.a app.b = some (s.driver.results op)) :
      Holds s app result stack (.read fd (.callRead fd))
  | copyOut {fd op} (serves : s.Serves fd op) (applied : op.apply app.a app.b = some (s.driver.results op)) :
      Holds s app result stack (.read fd (.copyOut fd op))
  | printf {fd op} (serves : s.Serves fd op) (applied : op.apply app.a app.b = some result) :
      Holds s app result stack (.printf fd)
  | up {fd op} (serves : s.Serves fd op) : Holds s app result stack (.close (.up fd))

def Process.Holds (s : World) (p : Process) : Prop :=
  p.app ∈ s.launched ∧ p.line.Holds s p.app p.result p.stack

/-- One constructor for each place of the program: what the step from there does. -/
inductive Worked (s : World) (app : App) (result : BitVec 32) (stack : List UInt8) :
    Line → Progress Process → World → Prop where
  | published : Worked s app result stack (.open (.setTestdev app.minor))
      (.next ⟨app, result, stack, .open (.readMinor app.minor)⟩) (s.driven { s.driver with myTestdev := app.minor })
  | numbered : Worked s app result stack (.open (.readMinor app.minor))
      (.next ⟨app, result, stack, .open (.down app.minor s.driver.myTestdev)⟩) (s.driven s.driver)
  | locked {dispatch} (free : 0 < s.driver.mySem) : Worked s app result stack (.open (.down app.minor dispatch))
      (.next ⟨app, result, stack, .open (.patchRead app.minor dispatch)⟩)
      (s.driven { s.driver with mySem := s.driver.mySem - 1 })
  | patchedRead {dispatch op} (known : Operation.ofMinor dispatch = some op) :
      Worked s app result stack (.open (.patchRead app.minor dispatch))
      (.next ⟨app, result, stack, .open (.patchWrite app.minor dispatch)⟩)
      (s.driven { s.driver with fops := { s.driver.fops with read := some op } })
  | patchedWrite {dispatch op} (known : Operation.ofMinor dispatch = some op) :
      Worked s app result stack (.open (.patchWrite app.minor dispatch))
      (.next ⟨app, result, stack, .open (.returnOpen app.minor dispatch)⟩)
      (s.driven { s.driver with fops := { s.driver.fops with write := some op } })
  | opened {dispatch} : Worked s app result stack (.open (.returnOpen app.minor dispatch))
      (.next ⟨app, result, stack,
        .write ⟨s.driver.fresh, app.minor⟩ (.callWrite ⟨s.driver.fresh, app.minor⟩ app.test 8 stack)⟩)
      (s.driven { s.driver with
        fresh := s.driver.fresh + 1
        files := s.driver.files ++ [(⟨s.driver.fresh, app.minor⟩, none)]
        openings := s.driver.openings ++ [(app.minor, s.driver.fops)] })
  | calledWrite {fd op} (there : s.driver.fops.write = some op) :
      Worked s app result stack (.write fd (.callWrite fd app.test 8 stack))
      (.next ⟨app, result, stack, .write fd (.copyIn fd op app.test 8 stack)⟩)
      (s.driven { s.driver with handled := s.driver.handled ++ [(fd.minor, op)] })
  | copied {fd op} : Worked s app result stack (.write fd (.copyIn fd op app.test 8 stack))
      (.next ⟨app, result, stack, .write fd (.compute fd op app.test 8 (copyIn stack app.test 8).value.2)⟩)
      (s.driven s.driver)
  | computed {fd op kbuff value} (pair : (operands kbuff).value = (app.a, app.b))
      (applied : op.apply app.a app.b = some value) :
      Worked s app result stack (.write fd (.compute fd op app.test 8 kbuff))
      (.next ⟨app, result, stack, .sleep fd⟩)
      (s.driven (({ s.driver with
        results := fun other => if other = op then value else s.driver.results other } : State).written fd
          (suppliedPair app.test 8)))
  | slept {fd} : Worked s app result stack (.sleep fd) (.next ⟨app, result, stack, .read fd (.callRead fd)⟩) s
  | calledRead {fd op} (there : s.driver.fops.read = some op) : Worked s app result stack (.read fd (.callRead fd))
      (.next ⟨app, result, stack, .read fd (.copyOut fd op)⟩)
      (s.driven { s.driver with handled := s.driver.handled ++ [(fd.minor, op)] })
  | copiedOut {fd op} : Worked s app result stack (.read fd (.copyOut fd op))
      (.next ⟨app, s.driver.results op, stack, .printf fd⟩)
      (s.driven { s.driver with
        readings := s.driver.readings ++ [⟨fd.minor, s.driver.lastPair fd, s.driver.results op⟩] })
  | printed {fd} : Worked s app result stack (.printf fd) (.next ⟨app, result, stack, .close (.up fd)⟩)
      { s with printed := s.printed ++ [(app, result)] }
  | closed {fd} : Worked s app result stack (.close (.up fd)) (.returned 0)
      (s.driven { s.driver with
        mySem := s.driver.mySem + 1
        files := s.driver.files.filter fun file => file.1 ≠ fd })

inductive Turned (m : Processes) : Event → Processes → Prop where
  | launched {app result stack} : Turned m (.launch app result stack)
      ⟨{ m.shared with launched := m.shared.launched ++ [app] },
        m.calls ++ [⟨app, result, stack, .open (.setTestdev app.minor)⟩]⟩
  | ran {index before p after progress s} (shape : m.calls = before ++ p :: after)
      (holds : p.Holds m.shared) (worked : Worked m.shared p.app p.result p.stack p.line progress s) :
      Turned m (.run index) ⟨s, before ++ progress.calls ++ after⟩

variable {s s' : World} {app : App} {result : BitVec 32} {stack : List UInt8} {line : Line} {p : Process}
  {progress : Progress Process} {m m' : Processes}

private theorem App.test_pair (app : App) : userPair app.test = (app.a, app.b) := by
  apply userPair_bytes
  rfl

private theorem App.test_copied (app : App) (stack : List UInt8) : (copyIn stack app.test 8).value.1 = 0 := by
  by_contra missing
  obtain ⟨_, _, fault⟩ := copyFromUser_missing.mp missing
  cases fault

private theorem App.test_operands (app : App) :
    (operands (copyIn stack app.test 8).value.2).value = (app.a, app.b) := by
  rw [operands_copied (Nat.le_of_sub_eq_zero (app.test_copied stack)), app.test_pair]

private theorem Line.Holds.works (holds : line.Holds s app result stack)
    (free : ∀ minor dispatch, line = .open (.down minor dispatch) → 0 < s.driver.mySem) :
    ∃ progress s', (Process.mk app result stack line).step s = some (progress, s') ∧
      Worked s app result stack line progress s' := by
  cases holds with
  | setTestdev => exact ⟨_, _, rfl, .published⟩
  | readMinor known offered => exact ⟨_, _, rfl, .numbered⟩
  | down known offered =>
    have free := free _ _ rfl
    refine ⟨_, _, ?_, .locked free⟩
    simp only [Process.step, Point.step, if_neg (Nat.ne_of_gt free)]
    rfl
  | patchRead known offered none =>
    refine ⟨_, _, ?_, .patchedRead known⟩
    simp only [Process.step, Point.step, known]
    rfl
  | patchWrite known offered none patched =>
    refine ⟨_, _, ?_, .patchedWrite known⟩
    simp only [Process.step, Point.step, known]
    rfl
  | returnOpen offered none table => exact ⟨_, _, rfl, .opened⟩
  | callWrite serves =>
    have there : s.driver.fops.write = some _ := congrArg Fops.write serves.table
    refine ⟨_, _, ?_, .calledWrite there⟩
    simp only [Process.step, Point.step, there]
    rfl
  | copyIn serves =>
    have complete : (Calculator.copyIn stack app.test 8).value.1 % 2 ^ 32 = 0 := by
      rw [app.test_copied, Nat.zero_mod]
    refine ⟨_, _, ?_, .copied⟩
    simp only [Process.step, Point.step, if_pos complete]
    rfl
  | compute serves pair =>
    obtain ⟨value, applied⟩ := Option.isSome_iff_exists.mp (app.defined _)
    refine ⟨_, _, ?_, .computed pair applied⟩
    simp only [Process.step, Point.step, pair, applied]
    rfl
  | sleep serves applied => exact ⟨_, _, rfl, .slept⟩
  | callRead serves applied =>
    have there : s.driver.fops.read = some _ := congrArg Fops.read serves.table
    refine ⟨_, _, ?_, .calledRead there⟩
    simp only [Process.step, Point.step, there]
    rfl
  | copyOut serves applied => exact ⟨_, _, rfl, .copiedOut⟩
  | printf serves applied => exact ⟨_, _, rfl, .printed⟩
  | up serves => exact ⟨_, _, rfl, .closed⟩

theorem Process.Holds.worked (holds : p.Holds s) (stepped : p.step s = some (progress, s')) :
    Worked s p.app p.result p.stack p.line progress s' := by
  have free : ∀ minor dispatch, p.line = .open (.down minor dispatch) → 0 < s.driver.mySem := by
    intro minor dispatch place
    apply Nat.pos_of_ne_zero
    intro busy
    simp [Process.step, place, Point.step, busy] at stepped
  obtain ⟨_, _, again, worked⟩ := holds.2.works free
  cases stepped.symm.trans again
  exact worked

/-- What a process relies on outside the semaphore survives as long as the number the driver keeps
is one of a program; inside, nobody else may touch table, file and results. -/
theorem Line.Holds.frame (holds : line.Holds s app result stack) (launched : ∀ app ∈ s.launched, app ∈ s'.launched)
    (testdev : s'.driver.myTestdev = s.driver.myTestdev ∨
      ∃ op, Operation.ofMinor s'.driver.myTestdev = some op ∧ s'.Offers op)
    (inside : line.inside = true → s'.driver.files.map Prod.fst = s.driver.files.map Prod.fst ∧
      s'.driver.fops = s.driver.fops ∧ s'.driver.results = s.driver.results) : line.Holds s' app result stack := by
  have offers {op : Operation} (offered : s.Offers op) : s'.Offers op := by
    obtain ⟨other, member, same⟩ := offered
    exact ⟨other, launched other member, same⟩
  have still (inner : line.inside = true) (none : s.driver.files = []) : s'.driver.files = [] := by
    have files := (inside inner).1
    rw [none] at files
    exact List.map_eq_nil_iff.mp files
  have serves (inner : line.inside = true) {fd : Filp} {op : Operation} (serves : s.Serves fd op) : s'.Serves fd op := by
    obtain ⟨files, table, _⟩ := inside inner
    exact ⟨files.trans serves.file, table.trans serves.table, offers serves.offered⟩
  cases holds with
  | setTestdev => exact .setTestdev
  | readMinor known offered =>
    rcases testdev with same | ⟨op, known, offered⟩
    · exact .readMinor (same ▸ known) (offers offered)
    · exact .readMinor known offered
  | down known offered => exact .down known (offers offered)
  | patchRead known offered none => exact .patchRead known (offers offered) (still rfl none)
  | patchWrite known offered none patched =>
    exact .patchWrite known (offers offered) (still rfl none) ((inside rfl).2.1 ▸ patched)
  | returnOpen offered none table => exact .returnOpen (offers offered) (still rfl none) ((inside rfl).2.1 ▸ table)
  | callWrite served => exact .callWrite (serves rfl served)
  | copyIn served => exact .copyIn (serves rfl served)
  | compute served pair => exact .compute (serves rfl served) pair
  | sleep served applied => exact .sleep (serves rfl served) ((inside rfl).2.2 ▸ applied)
  | callRead served applied => exact .callRead (serves rfl served) ((inside rfl).2.2 ▸ applied)
  | copyOut served applied => exact .copyOut (serves rfl served) ((inside rfl).2.2 ▸ applied)
  | printf served applied => exact .printf (serves rfl served) applied
  | up served => exact .up (serves rfl served)

theorem Worked.launched (worked : Worked s app result stack line progress s') : s'.launched = s.launched := by
  cases worked <;> rfl

/-- The other processes' view of a step, where they are outside the semaphore or this process is. -/
theorem Worked.testdev (worked : Worked s app result stack line progress s') (member : app ∈ s.launched) :
    s'.driver.myTestdev = s.driver.myTestdev ∨
      ∃ op, Operation.ofMinor s'.driver.myTestdev = some op ∧ s'.Offers op := by
  cases worked with
  | published =>
    obtain ⟨op, known⟩ := Operation.ofMinor_known app.known
    exact .inr ⟨op, known, app, member, known⟩
  | _ => exact .inl rfl

/-- Outside the semaphore, and while it is taken, a step writes nothing but the number. -/
theorem Worked.untouched (worked : Worked s app result stack line progress s') (outside : line.inside = false)
    (busy : s.driver.mySem = 0) : s'.driver.files = s.driver.files ∧ s'.driver.fops = s.driver.fops ∧
      s'.driver.results = s.driver.results := by
  cases worked with
  | published | numbered => exact ⟨rfl, rfl, rfl⟩
  | locked free => exact absurd busy (Nat.ne_of_gt free)
  | _ => simp at outside

private theorem World.Serves.driven {fd : Filp} {op : Operation} {driver : State} (serves : s.Serves fd op)
    (files : driver.files.map Prod.fst = s.driver.files.map Prod.fst) (table : driver.fops = s.driver.fops) :
    (s.driven driver).Serves fd op :=
  ⟨files.trans serves.file, table.trans serves.table, serves.offered⟩

private theorem State.written_names (s : State) (filp : Filp) (pair : Option (BitVec 32 × BitVec 32)) :
    (s.written filp pair).files.map Prod.fst = s.files.map Prod.fst := by
  simp only [State.written, List.map_map]
  apply List.map_congr_left
  intro file _
  simp only [Function.comp_apply]
  split
  next same => exact same.symm
  next => rfl

theorem Worked.own (worked : Worked s app result stack line progress s') (holds : line.Holds s app result stack)
    (member : app ∈ s.launched) (unlocked : 0 < s.driver.mySem → s.driver.files = []) :
    ∀ next ∈ progress.calls, next.Holds s' := by
  have still : app ∈ s'.launched := worked.launched ▸ member
  have goes_on {next : Process} (same : next.app = app) (holds : next.line.Holds s' next.app next.result next.stack) :
      ∀ other ∈ (Progress.next next).calls, other.Holds s' :=
    List.forall_mem_singleton.mpr ⟨same ▸ still, holds⟩
  cases worked with
  | published =>
    obtain ⟨op, known⟩ := Operation.ofMinor_known app.known
    exact goes_on rfl (.readMinor known ⟨app, member, known⟩)
  | numbered =>
    cases holds with
    | readMinor known offered => exact goes_on rfl (.down known offered)
  | locked free =>
    cases holds with
    | down known offered => exact goes_on rfl (.patchRead known offered (unlocked free))
  | patchedRead known =>
    cases holds with
    | patchRead known' offered none =>
      cases known.symm.trans known'
      exact goes_on rfl (.patchWrite known offered none rfl)
  | patchedWrite known =>
    cases holds with
    | patchWrite known' offered none patched =>
      cases known.symm.trans known'
      exact goes_on rfl (.returnOpen offered none (congrArg (Fops.mk · (some _)) patched))
  | opened =>
    cases holds with
    | returnOpen offered none table =>
      exact goes_on rfl (.callWrite ⟨by simp [none], table, offered⟩)
  | calledWrite there =>
    cases holds with
    | callWrite serves =>
      cases there.symm.trans (congrArg Fops.write serves.table)
      exact goes_on rfl (.copyIn (serves.driven rfl rfl))
  | copied =>
    cases holds with
    | copyIn serves => exact goes_on rfl (.compute (serves.driven rfl rfl) app.test_operands)
  | computed pair applied =>
    cases holds with
    | compute serves _ =>
      exact goes_on rfl (.sleep (serves.driven (State.written_names _ _ _) rfl) (by simp [State.written, applied]))
  | slept =>
    cases holds with
    | sleep serves applied => exact goes_on rfl (.callRead serves applied)
  | calledRead there =>
    cases holds with
    | callRead serves applied =>
      cases there.symm.trans (congrArg Fops.read serves.table)
      exact goes_on rfl (.copyOut (serves.driven rfl rfl) applied)
  | copiedOut =>
    cases holds with
    | copyOut serves applied => exact goes_on rfl (.printf (serves.driven rfl rfl) applied)
  | printed =>
    cases holds with
    | printf serves _ => exact goes_on rfl (.up ⟨serves.file, serves.table, serves.offered⟩)
  | closed => simp

theorem Worked.balance (worked : Worked s app result stack line progress s') :
    s'.driver.mySem + progress.calls.countP mySem.holds =
      s.driver.mySem + [Process.mk app result stack line].countP mySem.holds := by
  cases worked with
  | locked free =>
    simp
    omega
  | _ => simp [State.written]

theorem Worked.unlocked (worked : Worked s app result stack line progress s') (holds : line.Holds s app result stack)
    (unlocked : 0 < s.driver.mySem → s.driver.files = []) (busy : line.inside = true → s.driver.mySem = 0) :
    0 < s'.driver.mySem → s'.driver.files = [] := by
  intro free
  cases worked with
  | published | numbered => exact unlocked free
  | locked before => exact unlocked before
  | closed =>
    cases holds with
    | up serves =>
      have single := serves.file
      rw [World.driven_driver, List.filter_eq_nil_iff]
      intro file member
      have same := List.mem_map_of_mem (f := Prod.fst) member
      rw [single, List.mem_singleton] at same
      simpa using same
  | _ => exact absurd (busy rfl) (Nat.ne_of_gt free)

@[simp] def Line.left : Line → Nat
  | .open (.setTestdev _) => 14
  | .open (.readMinor _) => 13
  | .open (.down _ _) => 12
  | .open (.patchRead _ _) => 11
  | .open (.patchWrite _ _) => 10
  | .open _ => 9
  | .write _ (.callWrite _ _ _ _) => 8
  | .write _ (.copyIn _ _ _ _ _) => 7
  | .write _ _ => 6
  | .sleep _ => 5
  | .read _ (.callRead _) => 4
  | .read _ _ => 3
  | .printf _ => 2
  | .close _ => 1

def Process.left (p : Process) : Nat := p.line.left

theorem Worked.left (worked : Worked s app result stack line progress s') :
    line.left = 1 + load Process.left progress.calls := by
  cases worked <;> rfl

def Process.owes (app : App) (p : Process) : Bool :=
  match p.line with
  | .close _ => false
  | _ => p.app = app

private theorem Worked.report (worked : Worked s app result stack line progress s') (other : App) :
    (s'.printed.map Prod.fst).count other + progress.calls.countP (Process.owes other) =
      (s.printed.map Prod.fst).count other + [Process.mk app result stack line].countP (Process.owes other) := by
  cases worked with
  | printed => simp [Process.owes, List.count_cons]
  | _ => simp [Process.owes]

/-- What the printed number of a process of this program can be. -/
def World.Explains (s : World) (app : App) (value : BitVec 32) : Prop :=
  ∃ op, s.Offers op ∧ op.apply app.a app.b = some value

private theorem Worked.explained (worked : Worked s app result stack line progress s')
    (holds : line.Holds s app result stack) (explained : ∀ print ∈ s.printed, s.Explains print.1 print.2) :
    ∀ print ∈ s'.printed, s'.Explains print.1 print.2 := by
  cases worked with
  | printed =>
    cases holds with
    | printf serves applied =>
      exact List.forall_mem_append.mpr ⟨explained, List.forall_mem_singleton.mpr ⟨_, serves.offered, applied⟩⟩
  | _ => exact explained

/-- One process at most has the semaphore, every process is at a place of its program, what has
been printed can be explained, and every program started has printed once or has still to. -/
structure Orderly (m : Processes) : Prop where
  guarded : Guarded mySem (fun s p => Process.Holds s p) m
  explained : ∀ print ∈ m.shared.printed, m.shared.Explains print.1 print.2
  reported : ∀ app, (m.shared.printed.map Prod.fst).count app + m.calls.countP (Process.owes app) =
    m.shared.launched.count app

theorem Orderly.stepped {event : Event} (orderly : Orderly m) (stepped : m.step event = some m') :
    Turned m event m' := by
  cases event with
  | launch app result stack =>
    cases stepped
    exact .launched
  | run index =>
    obtain ⟨found, shape, _, taken⟩ := System.run_cases stepped
    have holds := orderly.guarded.asserted _ (List.mem_of_getElem? found)
    exact .ran shape holds (holds.worked taken)

theorem Orderly.disciplined {before after : List Process} (orderly : Orderly m) (shape : m.calls = before ++ p :: after)
    (holds : p.Holds m.shared) (worked : Worked m.shared p.app p.result p.stack p.line progress s') :
    Disciplined mySem (fun s p => Process.Holds s p) m.shared p progress s' := by
  have busy : p.line.inside = true → m.shared.driver.mySem = 0 := orderly.guarded.taken (by simp [shape])
  refine ⟨worked.balance, worked.own holds.2 holds.1 orderly.guarded.resource,
    worked.unlocked holds.2 orderly.guarded.resource busy, ?_⟩
  intro other apart held
  refine ⟨worked.launched ▸ held.1, held.2.frame ?_ (worked.testdev holds.1) ?_⟩
  · intro app member
    exact worked.launched ▸ member
  · intro inside
    obtain ⟨outside, busy⟩ := apart inside
    obtain ⟨files, table, results⟩ := worked.untouched outside busy
    exact ⟨congrArg (List.map Prod.fst) files, table, results⟩

theorem Orderly.step {event : Event} (orderly : Orderly m) (stepped : m.step event = some m') : Orderly m' := by
  cases orderly.stepped stepped with
  | @launched app result stack =>
    have more : ∀ other ∈ m.shared.launched, other ∈ m.shared.launched ++ [app] :=
      fun other => List.mem_append_left _
    refine ⟨orderly.guarded.joined rfl rfl id ?_ ?_, ?_, ?_⟩
    · intro other held
      exact ⟨more _ held.1, held.2.frame more (.inl rfl) fun _ => ⟨rfl, rfl, rfl⟩⟩
    · exact ⟨List.mem_append_right _ (List.mem_singleton_self _), .setTestdev⟩
    · intro print member
      obtain ⟨op, ⟨other, inside, same⟩, applied⟩ := orderly.explained print member
      exact ⟨op, ⟨other, more other inside, same⟩, applied⟩
    · intro other
      have reported := orderly.reported other
      simp only [List.countP_append, List.count_append, List.countP_singleton, List.count_singleton, Process.owes]
      simp only [decide_eq_true_eq, beq_iff_eq]
      omega
  | @ran index before p after progress s shape holds worked =>
    refine ⟨orderly.guarded.replaced shape (orderly.disciplined shape holds worked),
      worked.explained holds.2 orderly.explained, ?_⟩
    intro other
    have counted := count_replaced (Process.owes other) before after progress.calls p
    have report : (s.printed.map Prod.fst).count other + progress.calls.countP (Process.owes other) =
      (m.shared.printed.map Prod.fst).count other + [p].countP (Process.owes other) := worked.report other
    have reported := orderly.reported other
    rw [shape] at reported
    change (s.printed.map Prod.fst).count other + (before ++ progress.calls ++ after).countP (Process.owes other) =
      s.launched.count other
    rw [worked.launched]
    omega

theorem Orderly.initial : Orderly booted := by
  refine ⟨⟨rfl, fun _ => rfl, ?_⟩, ?_, ?_⟩
  · simp [Asserted, booted]
  · simp [booted]
  · simp [booted]

theorem Process.Holds.enabled (holds : p.Holds s) (free : p.line.inside = true ∨ 0 < s.driver.mySem) :
    (p.step s).isSome = true := by
  have unlocked : ∀ minor dispatch, p.line = .open (.down minor dispatch) → 0 < s.driver.mySem := by
    intro minor dispatch place
    apply free.resolve_left
    simp [place]
  obtain ⟨_, _, stepped, _⟩ := holds.2.works unlocked
  exact Option.isSome_of_eq_some stepped

theorem Orderly.ended (orderly : Orderly m) (stuck : ∀ index, m.step (.run index) = none) : m.calls = [] := by
  have holds := orderly.guarded.asserted
  have blocked : ∀ index, m.run (fun s (p : Process) => p.step s) index = none := stuck
  refine orderly.guarded.lively ?_ ?_ blocked
  · exact fun call member inside => (holds call member).enabled (.inl inside)
  · exact fun free call member _ => (holds call member).enabled (.inr free)

def Event.spent : Event → Nat
  | .launch _ _ _ => 0
  | .run _ => 1

def Event.granted : Event → Nat
  | .launch _ _ _ => 14
  | .run _ => 0

theorem Orderly.accounts {event : Event} (orderly : Orderly m) (stepped : m.step event = some m') :
    event.spent + load Process.left m'.calls ≤ load Process.left m.calls + event.granted := by
  cases orderly.stepped stepped with
  | launched => simp [Event.spent, Event.granted, Process.left]
  | ran shape holds worked =>
    have left := worked.left
    simp only [shape, load_append, load_cons, Event.spent, Event.granted, Process.left] at left ⊢
    omega

variable {events : List Event}

/-- Any number of processes of the programs run at once, launched at any time and interleaved
statement by statement. At most one of them is between `down` and `up`. What a process prints is its
own pair put through the operation of one of the programs launched. Each makes at most fourteen
steps, and where none can go on all have ended: each has printed once, no file is open and the
semaphore is free. -/
theorem programs_finish (run : Run Processes.step (fun _ _ => True) booted events m) :
    m.calls.countP (fun p => p.line.inside) ≤ 1 ∧
    (∀ print ∈ m.shared.printed, m.shared.Explains print.1 print.2) ∧
    load Event.spent events + load Process.left m.calls ≤ load Event.granted events ∧
    ((∀ index, m.step (.run index) = none) → m.calls = [] ∧
      (m.shared.printed.map Prod.fst).Perm m.shared.launched ∧ m.shared.driver.mySem = 1 ∧
      m.shared.driver.files = []) := by
  obtain ⟨orderly, spent⟩ := run.budgeted Orderly (fun m => load Process.left m.calls) Event.spent Event.granted
    Orderly.initial fun _ _ _ held _ stepped => ⟨held.step stepped, held.accounts stepped⟩
  have one := orderly.guarded.one
  refine ⟨?_, orderly.explained, by simpa [booted] using spent, ?_⟩
  · exact Nat.le.intro ((Nat.add_comm _ _).trans one)
  · intro stuck
    have ended := orderly.ended stuck
    rw [ended, List.countP_nil] at one
    refine ⟨ended, ?_, one, orderly.guarded.resource (Nat.lt_of_lt_of_eq Nat.zero_lt_one one.symm)⟩
    apply List.perm_iff_count.mpr
    intro app
    have reported := orderly.reported app
    rwa [ended, List.countP_nil] at reported

/-- Two processes, one of which takes the device number of the other: the sum is printed as a quotient. -/
theorem programs_finish_two : ∃ m, Run Processes.step (fun _ _ => True) booted
    ([.launch .add 0#32 [], .launch .div 0#32 [], .run 0, .run 1] ++ List.replicate 26 (.run 0)) m ∧
    m.shared.printed.map (fun print => (print.1.minor, print.2)) = [(0, 7#32), (3, 7#32)] ∧
    (m.shared.printed.map Prod.fst).Perm m.shared.launched := by
  have reached : ∃ m, Run Processes.step (fun _ _ => True) booted
      ([.launch .add 0#32 [], .launch .div 0#32 [], .run 0, .run 1] ++ List.replicate 26 (.run 0)) m ∧
      m.calls.length = 0 ∧ m.shared.printed.map (fun print => (print.1.minor, print.2)) = [(0, 7#32), (3, 7#32)] :=
    reaches_of_execute (by decide +kernel)
  obtain ⟨m, run, none, printed⟩ := reached
  have ended := List.eq_nil_of_length_eq_zero none
  refine ⟨m, run, printed, ((programs_finish run).2.2.2 ?_).2.1⟩
  intro index
  simp [Processes.step, System.run, ended]

def Process.call (p : Process) : Option Point :=
  match p.line with
  | .open call | .write _ call | .read _ call | .close call => some call
  | _ => none

def Event.opens : Event → List Nat
  | .launch app _ _ => [app.minor]
  | .run _ => []

def Action.opens : Action → List Nat
  | .open minor => [minor]
  | _ => []

/-- The driver under the processes: its state, and the methods they are in, in any order. -/
structure Beneath (m : Processes) (t : Machine) : Prop where
  orderly : Orderly m
  driver : t.shared = m.shared.driver
  calls : t.calls.Perm (m.calls.filterMap Process.call)

/-- The machine can get there without opening a file, and has these calls in progress. -/
def Answered (t : Machine) (driver : State) (calls : List Point) : Prop :=
  ∃ answer t', Run Machine.step (fun _ _ => True) t answer t' ∧ answer.flatMap Action.opens = [] ∧ t'.shared = driver ∧
    t'.calls.Perm calls

variable {t : Machine} {call : Point} {rest : Progress Point} {driver : State} {others : List Point} {fd : Filp}

private theorem answer_step {before : State} (below : t.shared = before) (calls : t.calls.Perm (call :: others))
    (stepped : call.step before = some (rest, driver)) : Answered t driver (rest.calls ++ others) := by
  subst below
  obtain ⟨before, after, shape⟩ := List.append_of_mem (calls.mem_iff.mpr List.mem_cons_self)
  have same : (before ++ after).Perm others := by
    rw [shape] at calls
    exact (List.perm_middle.symm.trans calls).cons_inv
  refine ⟨[.run before.length], _, Refinements.answered _ trivial (System.run_at shape stepped), rfl, rfl, ?_⟩
  refine (List.Perm.append_right after List.perm_append_comm).trans ?_
  rw [List.append_assoc]
  exact same.append_left rest.calls

theorem Answered.start (answered : Answered t driver others) (action : Action) (silent : action.opens = [])
    (starts : ∀ t' : Machine, t'.shared = driver → t'.calls.Perm others → t'.step action = some (t'.start call)) :
    Answered t driver (call :: others) := by
  obtain ⟨answer, t', run, opens, shared, calls⟩ := answered
  refine ⟨answer ++ [action], t'.start call, .snoc run trivial (starts t' shared calls), ?_, shared, ?_⟩
  · simp [opens, silent]
  · exact List.perm_append_comm.trans (calls.cons call)

private theorem usable_alone (single : t.shared.files.map Prod.fst = [fd]) (calls : t.calls.Perm others)
    (alone : ∀ other ∈ others, other.filp = none) : Usable t fd := by
  constructor
  · exact List.mem_map.mp (single ▸ List.mem_singleton_self fd)
  · intro other member
    have elsewhere := alone other (calls.mem_iff.mp member)
    cases other with
    | up => cases elsewhere
    | _ => rfl

/-- What a process does, the driver's machine can do: it goes on with the method the process is in, and
calls the next where the program comes to it. -/
theorem Worked.answered (worked : Worked s app result stack line progress s') (holds : line.Holds s app result stack)
    (below : t.shared = s.driver) (calls : t.calls.Perm ((Process.mk app result stack line).call.toList ++ others))
    (alone : line.inside = true → ∀ other ∈ others, other.filp = none) :
    Answered t s'.driver (progress.calls.filterMap Process.call ++ others) := by
  have still (calls : t.calls.Perm others) : Answered t s.driver others := ⟨[], t, .nil, rfl, below, calls⟩
  cases worked with
  | published | numbered => exact answer_step below calls rfl
  | locked free => exact answer_step below calls (if_neg (Nat.ne_of_gt free))
  | patchedRead known | patchedWrite known => exact answer_step below calls (by simp only [Point.step, known]; rfl)
  | opened =>
    cases holds with
    | returnOpen offered none table =>
      apply (answer_step below calls rfl).start (.write _ app.test 8 stack) rfl
      intro t' shared calls
      apply if_pos
      exact usable_alone (by rw [shared, none]; rfl) calls (alone rfl)
  | calledWrite there => exact answer_step below calls (by simp only [Point.step, there]; rfl)
  | copied => exact answer_step below calls (by simp only [Point.step, app.test_copied, Nat.zero_mod]; rfl)
  | computed pair applied =>
    exact answer_step below calls (by simp only [Point.step, pair, applied]; rfl)
  | slept =>
    cases holds with
    | sleep serves applied =>
      apply (still calls).start (.read _) rfl
      intro t' shared calls
      apply if_pos
      exact usable_alone (by rw [shared, serves.file]) calls (alone rfl)
  | calledRead there => exact answer_step below calls (by simp only [Point.step, there]; rfl)
  | copiedOut => exact answer_step below calls rfl
  | printed =>
    cases holds with
    | printf serves applied =>
      apply (still calls).start (.release _) rfl
      intro t' shared calls
      apply if_pos
      refine ⟨usable_alone (by rw [shared, serves.file]) calls (alone rfl), ?_⟩
      intro other member
      rw [alone rfl other (calls.mem_iff.mp member)]
      simp
  | closed => exact answer_step below calls rfl

theorem Line.Holds.unopened (holds : line.Holds s app result stack) (outside : line.inside = false)
    (inside : (Process.mk app result stack line).call = some call) : call.filp = none := by
  cases holds with
  | setTestdev | readMinor | down => cases inside; rfl
  | _ => cases outside

theorem Orderly.alone {before after : List Process} (orderly : Orderly m) (shape : m.calls = before ++ p :: after)
    (inside : p.line.inside = true) : ∀ other ∈ (before ++ after).filterMap Process.call, other.filp = none := by
  intro other member
  obtain ⟨process, elsewhere, in_call⟩ := List.mem_filterMap.mp member
  have holds := orderly.guarded.asserted process (other_mem shape elsewhere)
  apply holds.2.unopened ?_ in_call
  rw [← Bool.not_eq_true]
  intro also
  have apart := (orderly.guarded.apart shape process elsewhere also).1
  rw [mySem_holds, inside] at apart
  cases apart

private theorem beneath_simulates : Refinements.Simulates Processes.step (fun _ _ => True) Event.opens
    Machine.step (fun _ _ => True) Action.opens Beneath := by
  intro m t event m' beneath _ stepped
  have orderly := beneath.orderly.step stepped
  cases beneath.orderly.stepped stepped with
  | @launched app result stack =>
    refine ⟨[.open app.minor], _, Refinements.answered _ trivial (if_pos app.known), rfl, orderly, beneath.driver, ?_⟩
    simp only [System.start_calls, List.filterMap_append]
    exact beneath.calls.append_right _
  | @ran index before p after progress s shape holds worked =>
    have calls : t.calls.Perm (p.call.toList ++ (before ++ after).filterMap Process.call) := by
      refine beneath.calls.trans ?_
      rw [shape, List.filterMap_append, List.filterMap_append, List.filterMap_cons]
      cases p.call with
      | none => exact .refl _
      | some call => exact List.perm_middle
    obtain ⟨answer, t', run, opens, shared, reached⟩ :=
      worked.answered holds.2 beneath.driver calls (beneath.orderly.alone shape)
    refine ⟨answer, t', run, opens, orderly, shared, reached.trans ?_⟩
    simp only [List.filterMap_append, ← List.append_assoc]
    exact List.perm_append_comm.append_right _

/-- Whatever processes of the programs do, the driver's own machine can do, opening the same device files
in the same order: the programs use a file only while it is open, and release it when no call is on it. -/
theorem programs_refine (run : Run Processes.step (fun _ _ => True) booted events m) :
    ∃ actions t, Run Machine.step (fun _ _ => True) loaded actions t ∧
      actions.flatMap Action.opens = events.flatMap Event.opens ∧ t.shared = m.shared.driver ∧
      t.calls.Perm (m.calls.filterMap Process.call) := by
  have initial : Beneath booted loaded := ⟨Orderly.initial, rfl, .refl _⟩
  obtain ⟨answer, t, reached, opens, beneath⟩ := beneath_simulates.run initial run
  exact ⟨answer, t, reached, opens, beneath.driver, beneath.calls⟩

/-- The driver's side of the two processes: both files were opened, both reads got a quotient. -/
theorem programs_refine_two : ∃ actions t, Run Machine.step (fun _ _ => True) loaded actions t ∧
    actions.flatMap Action.opens = [0, 3] ∧ t.shared.readings.map (·.value) = [7#32, 7#32] := by
  have reached : ∃ m, Run Processes.step (fun _ _ => True) booted
      ([.launch .add 0#32 [], .launch .div 0#32 [], .run 0, .run 1] ++ List.replicate 26 (.run 0)) m ∧
      m.shared.driver.readings.map (·.value) = [7#32, 7#32] :=
    reaches_of_execute (by decide +kernel)
  obtain ⟨m, run, read⟩ := reached
  obtain ⟨actions, t, below, opens, shared, _⟩ := programs_refine run
  exact ⟨actions, t, below, opens, by rw [shared, read]⟩

end DeviceDrivers.Calculator
