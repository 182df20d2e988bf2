import DeviceDrivers.Serial.Calls

/-! What one step of a serial call can do, and that a control command that is left
alone does what `nameIoctl` says. -/

namespace DeviceDrivers.Serial
open Runs Interleavings

/-- One constructor for each outcome of a step. -/
inductive Advance (s : State) : Point → Progress Point → State → Prop where
  | masked : Advance s .maskInts (.next .openLatch) (s.setIntEnable 0x0#8)
  | openedLatch :
      Advance s .openLatch (.next (.latchL baud9600L baud9600H 0x00#8 .nameOpen)) (s.setLineCtrl 0x80#8)
  | lineDefaulted : Advance s .lineDefaults (.next .enableInts) (s.setLineCtrl 0x0b#8)
  | opened : Advance s .enableInts (.returned 0) (s.setIntEnable 0x3#8)
  | divides {cmd low high} (body : cmd.body = .divisor low high) :
      Advance s (.switch cmd) (.next (.readPrev low high)) s
  | sets {cmd mask} (body : cmd.body = .setBits mask) : Advance s (.switch cmd) (.next (.readSet mask)) s
  | keeps {cmd mask} (body : cmd.body = .keepBits mask) : Advance s (.switch cmd) (.next (.readKeep mask)) s
  | interrupts {cmd mask} (body : cmd.body = .interrupts mask) : Advance s (.switch cmd) (.next (.setInts mask)) s
  | ignored {cmd} (body : cmd.body = .nothing) : Advance s (.switch cmd) (.returned 1) s
  | gotPrev {low high} : Advance s (.readPrev low high) (.next (.switchOn low high s.uart.lineCtrl)) s
  | switchedOn {low high modPrev} :
      Advance s (.switchOn low high modPrev) (.next (.latchL low high modPrev .nameIoctl))
        (s.setLineCtrl (modPrev ||| 0x80#8))
  | latchedL {low high modPrev caller} :
      Advance s (.latchL low high modPrev caller) (.next (.latchH high modPrev caller)) (s.setLatchL low)
  | latchedH {high modPrev caller} :
      Advance s (.latchH high modPrev caller) (.next (.restore modPrev caller)) (s.setLatchH high)
  | restoredOpen {modPrev} : Advance s (.restore modPrev .nameOpen) (.next .lineDefaults) (s.setLineCtrl modPrev)
  | restored {modPrev} : Advance s (.restore modPrev .nameIoctl) (.returned 1) (s.setLineCtrl modPrev)
  | readSet {mask} : Advance s (.readSet mask) (.next (.writeLine (s.uart.lineCtrl ||| mask))) s
  | readKept {mask} : Advance s (.readKeep mask) (.next (.writeLine (s.uart.lineCtrl &&& mask))) s
  | wroteLine {modReg} : Advance s (.writeLine modReg) (.returned 1) (s.setLineCtrl modReg)
  | setInts {mask} : Advance s (.setInts mask) (.returned 1) (s.setIntEnable mask)
  | leftTransmit {user} (idle : s.tflag ≠ 1) : Advance s (.waitTransmit user) (.next (.fetch user)) s
  | fetched {user} : Advance s (.fetch user) (.next .transmit) { s with tbuff := user.getD 0#8 }
  | transmitted : Advance s .transmit (.next .clearTflag) s.transmit
  | wrote : Advance s .clearTflag (.returned 1) { s with tflag := 0 }
  | leftRecieve {faults} (raised : s.rflag ≠ 0) : Advance s (.waitRecieve faults) (.next (.copyOut faults)) s
  | faulted : Advance s (.copyOut true) (.next .clearRflag) s
  | handedOver : Advance s (.copyOut false) (.next .clearRflag) s.handOver
  | read : Advance s .clearRflag (.returned 1) { s with rflag := 0 }
  | identified : Advance s .identify (.next .dispatch) { s with intId := s.uart.intIdentification }
  | empty : Advance s .dispatch (.next .transmitEmpty) s
  | available : Advance s .dispatch (.next .recieve) s
  | handled {value} : Advance s .dispatch (.returned value) s
  | emptied : Advance s .transmitEmpty (.returned 1) { s with tflag := 0, line := s.line ++ [.taken] }
  | stored : Advance s .recieve (.next .raiseRflag) s.store
  | raised : Advance s .raiseRflag (.returned 1) { s with rflag := 1 }

theorem Point.step_advance {s s' : State} {point : Point} {progress : Progress Point}
    (stepped : point.step s = some (progress, s')) : Advance s point progress s' := by
  cases point with
  | maskInts => cases stepped; exact .masked
  | openLatch => cases stepped; exact .openedLatch
  | lineDefaults => cases stepped; exact .lineDefaulted
  | enableInts => cases stepped; exact .opened
  | switch cmd =>
    simp only [Point.step] at stepped
    split at stepped
    next body => cases stepped; exact .divides body
    next body => cases stepped; exact .sets body
    next body => cases stepped; exact .keeps body
    next body => cases stepped; exact .interrupts body
    next body => cases stepped; exact .ignored body
  | readPrev low high => cases stepped; exact .gotPrev
  | switchOn low high modPrev => cases stepped; exact .switchedOn
  | latchL low high modPrev caller => cases stepped; exact .latchedL
  | latchH high modPrev caller => cases stepped; exact .latchedH
  | restore modPrev caller =>
    cases caller with
    | nameOpen => cases stepped; exact .restoredOpen
    | nameIoctl => cases stepped; exact .restored
  | readSet mask => cases stepped; exact .readSet
  | readKeep mask => cases stepped; exact .readKept
  | writeLine modReg => cases stepped; exact .wroteLine
  | setInts mask => cases stepped; exact .setInts
  | waitTransmit user =>
    obtain ⟨idle, same⟩ := Option.ite_none_left_eq_some.mp stepped
    cases same
    exact .leftTransmit idle
  | fetch user => cases stepped; exact .fetched
  | transmit => cases stepped; exact .transmitted
  | clearTflag => cases stepped; exact .wrote
  | waitRecieve faults =>
    obtain ⟨raised, same⟩ := Option.ite_none_left_eq_some.mp stepped
    cases same
    exact .leftRecieve raised
  | copyOut faults =>
    cases faults with
    | true => cases stepped; exact .faulted
    | false => cases stepped; exact .handedOver
  | clearRflag => cases stepped; exact .read
  | identify => cases stepped; exact .identified
  | dispatch =>
    simp only [Point.step] at stepped
    split at stepped
    next =>
      split at stepped
      next => cases stepped; exact .empty
      next =>
        split at stepped
        next => cases stepped; exact .available
        next => cases stepped; exact .handled
    next => cases stepped; exact .handled
  | transmitEmpty => cases stepped; exact .emptied
  | recieve => cases stepped; exact .stored
  | raiseRflag => cases stepped; exact .raised

def Point.entry : Point → Bool
  | .maskInts | .switch _ | .waitTransmit _ | .waitRecieve _ => true
  | _ => false

inductive Stepped (m : Machine) : Action → Machine → Prop where
  | called {action call} (entry : call.entry = true) (starts : ∀ index, action ≠ .run index) :
      Stepped m action (m.start call)
  | interrupted (outside : ∀ call ∈ m.calls, call.handler = false) : Stepped m .interrupt (m.start .identify)
  | signalled {identification recieve} : Stepped m (.signal identification recieve)
      { m with
        shared := { m.shared with
          uart := { m.shared.uart with intIdentification := identification, recieve := recieve } } }
  | ran {index before point after progress s} (found : m.calls[index]? = some point)
      (shape : m.calls = before ++ point :: after) (others : m.calls.eraseIdx index = before ++ after)
      (advance : Advance m.shared point progress s) : Stepped m (.run index) ⟨s, before ++ progress.calls ++ after⟩

theorem Machine.step_cases {m m' : Machine} {action : Action} (stepped : m.step action = some m') :
    Stepped m action m' := by
  cases action with
  | «open» => cases stepped; exact .called rfl (by simp)
  | ioctl cmd => cases stepped; exact .called rfl (by simp)
  | write user => cases stepped; exact .called rfl (by simp)
  | read faults => cases stepped; exact .called rfl (by simp)
  | interrupt =>
    obtain ⟨outside, same⟩ := Option.ite_none_left_eq_some.mp stepped
    cases same
    exact .interrupted (by simpa using outside)
  | signal identification recieve => cases stepped; exact .signalled
  | run index =>
    obtain ⟨found, shape, others, taken⟩ := System.run_cases stepped
    exact .ran found shape others (Point.step_advance taken)

/-- A control command that nothing interrupts returns what `nameIoctl` returns and
leaves the registers as it does. -/
theorem ioctl_alone (cmd : Command) (s : State) : ∃ s', s'.uart = (nameIoctl cmd s.uart).2 ∧
    Alone (fun s point => Point.step s point) s (.next (.switch cmd)) (nameIoctl cmd s.uart).1 s' := by
  cases body : cmd.body with
  | divisor low high =>
    refine ⟨(((s.setLineCtrl (s.uart.lineCtrl ||| 0x80#8)).setLatchL low).setLatchH high).setLineCtrl
      s.uart.lineCtrl, by simp only [nameIoctl, body]; rfl, ?_⟩
    have first : Point.step s (.switch cmd) = some (.next (.readPrev low high), s) := by simp only [Point.step, body]
    exact .step first (.step rfl (.step rfl (.step rfl (.step rfl (.step rfl .returned)))))
  | setBits mask =>
    refine ⟨s.setLineCtrl (s.uart.lineCtrl ||| mask), by simp only [nameIoctl, body]; rfl, ?_⟩
    have first : Point.step s (.switch cmd) = some (.next (.readSet mask), s) := by simp only [Point.step, body]
    exact .step first (.step rfl (.step rfl .returned))
  | keepBits mask =>
    refine ⟨s.setLineCtrl (s.uart.lineCtrl &&& mask), by simp only [nameIoctl, body]; rfl, ?_⟩
    have first : Point.step s (.switch cmd) = some (.next (.readKeep mask), s) := by simp only [Point.step, body]
    exact .step first (.step rfl (.step rfl .returned))
  | interrupts mask =>
    refine ⟨s.setIntEnable mask, by simp only [nameIoctl, body]; rfl, ?_⟩
    have first : Point.step s (.switch cmd) = some (.next (.setInts mask), s) := by simp only [Point.step, body]
    exact .step first (.step rfl .returned)
  | nothing =>
    refine ⟨s, by simp only [nameIoctl, body], ?_⟩
    have first : Point.step s (.switch cmd) = some (.returned 1, s) := by simp only [Point.step, body]
    exact .step first .returned

end DeviceDrivers.Serial
