import DeviceDrivers.Proofs.SerialSteps

/-! Which bank of registers the accesses of the serial driver meet. A baud rate
command switches the divisor latch in for two writes and switches it back; what
runs in between finds the latch in the place of the data and of the interrupt
mask, and a line setting may bring a stale bit 7 back. -/

namespace DeviceDrivers.Serial
open Runs Interleavings

def Point.switched : Point → Bool
  | .latchL _ _ _ _ | .latchH _ _ _ | .restore _ _ => true
  | _ => false

/-- All accesses met the bank they were meant for: what the handler got is what the
receive register held, and the divisor is the one that was set. -/
structure Banked (s : State) : Prop where
  accesses : ∀ access ∈ s.accesses, access.2 = access.1.inLatch
  received : s.received = s.arrived
  divisor : (s.uart.divisorLatchL, s.uart.divisorLatchH) = s.divisor

/-- With `latched` for another call having switched the latch in: no access to data
or interrupt mask meanwhile, and bit 7 is left as that call needs it. -/
def Point.Coherent (latched : Bool) : Point → Prop
  | .maskInts | .lineDefaults | .enableInts | .setInts _ | .transmit | .recieve => latched = false
  | .restore value _ | .writeLine value => value.getLsbD 7 = latched
  | _ => True

def Action.Coherent (m : Machine) : Action → Prop
  | .run index => ∀ point ∈ m.calls[index]?, point.Coherent ((m.calls.eraseIdx index).any Point.switched)
  | _ => True

instance (latched : Bool) (point : Point) : Decidable (point.Coherent latched) := by
  unfold Point.Coherent
  split <;> infer_instance

instance (m : Machine) : (action : Action) → Decidable (action.Coherent m)
  | .run index => inferInstanceAs (Decidable (∀ point ∈ m.calls[index]?, point.Coherent _))
  | .open | .ioctl _ | .write _ | .read _ | .interrupt | .signal _ _ => inferInstanceAs (Decidable True)

@[simp] theorem dlab_setLineCtrl (s : State) (value : Byte) : (s.setLineCtrl value).uart.dlab = value.getLsbD 7 := rfl

private theorem dlab_setLatchL (s : State) (low : Byte) : (s.setLatchL low).uart.dlab = s.uart.dlab := by
  simp only [State.setLatchL, Uart.outb_divisorLatchL]
  split <;> rfl

private theorem dlab_setLatchH (s : State) (high : Byte) : (s.setLatchH high).uart.dlab = s.uart.dlab := by
  simp only [State.setLatchH, Uart.outb_divisorLatchH]
  split <;> rfl

private theorem dlab_setIntEnable (s : State) (mask : Byte) : (s.setIntEnable mask).uart.dlab = s.uart.dlab := by
  simp only [State.setIntEnable, Uart.outb_intEnable]
  split <;> rfl

private theorem dlab_transmit (s : State) : s.transmit.uart.dlab = s.uart.dlab := by
  simp only [State.transmit, Uart.outb_transmit]
  split <;> rfl

namespace Banked

variable {s : State}

private theorem accessed (banked : Banked s) {register : Register} (meets : s.uart.dlab = register.inLatch) :
    ∀ access ∈ (s.access register).accesses, access.2 = access.1.inLatch :=
  List.forall_mem_append.mpr ⟨banked.accesses, List.forall_mem_singleton.mpr meets⟩

theorem setLineCtrl (banked : Banked s) (value : Byte) : Banked (s.setLineCtrl value) :=
  ⟨banked.accesses, banked.received, banked.divisor⟩

theorem setIntEnable (banked : Banked s) (mask : Byte) (off : s.uart.dlab = false) : Banked (s.setIntEnable mask) := by
  refine ⟨banked.accessed off, banked.received, ?_⟩
  simpa [State.setIntEnable, State.access, off] using banked.divisor

theorem setLatchL (banked : Banked s) (low : Byte) (on : s.uart.dlab = true) : Banked (s.setLatchL low) := by
  refine ⟨banked.accessed on, banked.received, ?_⟩
  simpa [State.setLatchL, State.access, on] using congrArg Prod.snd banked.divisor

theorem setLatchH (banked : Banked s) (high : Byte) (on : s.uart.dlab = true) : Banked (s.setLatchH high) := by
  refine ⟨banked.accessed on, banked.received, ?_⟩
  simpa [State.setLatchH, State.access, on] using congrArg Prod.fst banked.divisor

theorem transmit (banked : Banked s) (off : s.uart.dlab = false) : Banked s.transmit := by
  refine ⟨banked.accessed off, banked.received, ?_⟩
  simpa [State.transmit, State.access, off] using banked.divisor

theorem store (banked : Banked s) (off : s.uart.dlab = false) : Banked s.store := by
  refine ⟨banked.accessed off, ?_, banked.divisor⟩
  simp [State.store, off, banked.received]

end Banked

/-- A coherent step leaves the latch switched in for just the calls that need it. -/
private theorem Advance.switched {s s' : State} {point : Point} {progress : Progress Point} {latched : Bool}
    (advance : Advance s point progress s') (coherent : point.Coherent latched)
    (dlab : s.uart.dlab = (point.switched || latched)) (banked : Banked s) :
    s'.uart.dlab = (progress.calls.any Point.switched || latched) ∧ Banked s' := by
  cases advance with
  | masked | opened | setInts =>
    have off : s.uart.dlab = false := dlab.trans coherent
    exact ⟨(dlab_setIntEnable ..).trans dlab, banked.setIntEnable _ off⟩
  | transmitted =>
    have off : s.uart.dlab = false := dlab.trans coherent
    exact ⟨(dlab_transmit s).trans dlab, banked.transmit off⟩
  | stored =>
    have off : s.uart.dlab = false := dlab.trans coherent
    exact ⟨dlab, banked.store off⟩
  | openedLatch | switchedOn => exact ⟨by simp [Point.switched], banked.setLineCtrl _⟩
  | latchedL => exact ⟨(dlab_setLatchL ..).trans dlab, banked.setLatchL _ dlab⟩
  | latchedH => exact ⟨(dlab_setLatchH ..).trans dlab, banked.setLatchH _ dlab⟩
  | restoredOpen | restored | wroteLine => exact ⟨coherent, banked.setLineCtrl _⟩
  | lineDefaulted =>
    obtain rfl : latched = false := coherent
    exact ⟨by simp [Point.switched], banked.setLineCtrl _⟩
  | _ => exact ⟨dlab, ⟨banked.accesses, banked.received, banked.divisor⟩⟩

/-- The latch is switched in exactly while some call needs it. -/
structure Switched (m : Machine) : Prop where
  banked : Banked m.shared
  dlab : m.shared.uart.dlab = m.calls.any Point.switched

theorem Switched.step {m m' : Machine} {action : Action} (kept : Switched m) (coherent : action.Coherent m)
    (stepped : m.step action = some m') : Switched m' := by
  obtain ⟨banked, dlab⟩ := kept
  cases Machine.step_cases stepped with
  | @called _ call entry =>
    have outside : call.switched = false := by cases call <;> first | rfl | cases entry
    exact ⟨banked, by simp [dlab, outside]⟩
  | interrupted => exact ⟨banked, by simp [dlab, Point.switched]⟩
  | signalled => exact ⟨⟨banked.accesses, banked.received, banked.divisor⟩, dlab⟩
  | @ran index before point after progress s found shape others advance =>
    have alone : point.Coherent ((before ++ after).any Point.switched) := others ▸ coherent point found
    have before_step : m.shared.uart.dlab = (point.switched || (before ++ after).any Point.switched) := by
      rw [dlab, shape]
      simp only [List.any_append, List.any_cons]
      rw [Bool.or_left_comm]
    obtain ⟨after_step, banked⟩ := advance.switched alone before_step banked
    refine ⟨banked, after_step.trans ?_⟩
    simp only [List.any_append]
    rw [Bool.or_left_comm, Bool.or_assoc]

def Point.writesLine : Point → Bool
  | .openLatch | .lineDefaults | .switchOn _ _ _ | .restore _ _ | .writeLine _ => true
  | _ => false

theorem Switched.broken {m m' : Machine} {index : Nat} (kept : Switched m)
    (accesses : ∀ point ∈ m.calls[index]?, point.writesLine = false) (incoherent : ¬ (Action.run index).Coherent m)
    (stepped : m.step (.run index) = some m') : ¬ Banked m'.shared := by
  intro banked
  cases Machine.step_cases stepped with
  | called _ starts => exact starts index rfl
  | @ran _ before point after progress s found shape others advance =>
    have data := accesses point found
    simp only [Action.Coherent, found, others, Option.mem_def, Option.some.injEq, forall_eq'] at incoherent
    have met : point.Coherent false → m.shared.uart.dlab = true := by
      intro coherent
      have latched : (before ++ after).any Point.switched = true := by
        rw [← Bool.not_eq_false]
        intro none
        exact incoherent (none ▸ coherent)
      rw [kept.dlab, shape]
      simp only [List.any_append, List.any_cons, Bool.or_eq_true] at latched ⊢
      tauto
    have wrong (register : Register) (outside : register.inLatch = false)
        (logged : (register, m.shared.uart.dlab) ∈ s.accesses) (coherent : point.Coherent false) : False := by
      have meets := banked.accesses _ logged
      simp [outside, met coherent] at meets
    cases advance with
    | masked | opened | setInts => exact wrong .intEnable rfl (by simp [State.setIntEnable, State.access]) rfl
    | transmitted => exact wrong .transmit rfl (by simp [State.transmit, State.access]) rfl
    | stored => exact wrong .recieve rfl (by simp [State.store, State.access]) rfl
    | lineDefaulted | restoredOpen | restored | wroteLine => cases data
    | _ => exact incoherent trivial

/-- Every access meets its bank in every run in which all steps are coherent. After
such a run an access that is not coherent meets the wrong bank. -/
theorem banked_when_coherent (uart : Uart) (off : uart.dlab = false) (actions : List Action) (m : Machine)
    (run : Run Machine.step Action.Coherent (loaded uart) actions m) :
    Banked m.shared ∧ ∀ index m', (∀ point ∈ m.calls[index]?, point.writesLine = false) →
      ¬ (Action.run index).Coherent m → m.step (.run index) = some m' → ¬ Banked m'.shared := by
  have initial : Switched (loaded uart) := ⟨⟨by simp [loaded], rfl, rfl⟩, off⟩
  have kept := run.invariant Switched initial fun _ _ _ kept coherent stepped => kept.step coherent stepped
  exact ⟨kept.banked, fun _ _ accesses incoherent stepped => kept.broken accesses incoherent stepped⟩

/-- A byte is received after the baud rate has been changed. -/
theorem banked_when_coherent_changed : ∃ actions m,
    Run Machine.step Action.Coherent (loaded {}) actions m ∧ m.shared.received = [0x41#8] ∧
      m.shared.divisor = (0x06#8, 0x00#8) ∧ Banked m.shared := by
  have reached : ∃ m : Machine, Run Machine.step Action.Coherent (loaded {})
      (.open :: List.replicate 7 (.run 0) ++ .ioctl .setBaud19200 :: List.replicate 6 (.run 0) ++
        .signal 0x04#8 0x41#8 :: .interrupt :: List.replicate 4 (.run 0)) m ∧
      m.shared.received = [0x41#8] ∧ m.shared.divisor = (0x06#8, 0x00#8) :=
    reaches_of_execute (by decide +kernel)
  obtain ⟨m, run, received, divisor⟩ := reached
  exact ⟨_, m, run, received, divisor, (banked_when_coherent {} rfl _ m run).1⟩

/-- A byte arrives while a baud rate command has the divisor latch switched in. -/
theorem latch_received_run : ¬ ∀ (uart : Uart) (actions : List Action) (m : Machine), uart.dlab = false →
    Run Machine.step (fun _ _ => True) (loaded uart) actions m → Banked m.shared := by
  intro claim
  have reached : ∃ m : Machine, Run Machine.step (fun _ _ => True) (loaded {})
      (.open :: List.replicate 7 (.run 0) ++ .ioctl .setBaud19200 :: List.replicate 3 (.run 0) ++
        .signal 0x04#8 0x41#8 :: .interrupt :: List.replicate 3 (.run 1)) m ∧
      m.shared.received = [0x0c#8] ∧ m.shared.arrived = [0x41#8] :=
    reaches_of_execute (by decide +kernel)
  obtain ⟨m, run, received, arrived⟩ := reached
  have same := (claim {} _ m rfl run).received
  rw [received, arrived] at same
  exact absurd same (by decide)

end DeviceDrivers.Serial
