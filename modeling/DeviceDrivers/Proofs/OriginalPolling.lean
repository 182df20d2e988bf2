import DeviceDrivers.Proofs.OriginalDelivery
import DeviceDrivers.Proofs.SnullStranding

/-! The polling mode of the original driver as an agreement between handler and kernel.
The handler masks receive interrupts and has a poll scheduled, and the poll unmasks them
when it has found the queue empty. Between the two a frame can be missed. -/

namespace DeviceDrivers.Snull.Original
open Runs
open Interleavings (mem_replaced)

variable {cfg : Config} {memory : Bool} {m m' : Machine} {c c' : Control} {on on' : Dev → Bool}
  {calls before after : List Point}
  {point : Point} {progress : Interleavings.Progress Point} {dev : Dev}

def Point.announcing (dev : Dev) (point : Point) : Bool := point.port.announcing dev

def Point.completing (dev : Dev) : Point → Bool
  | .common (.pollEnable other) => other = dev
  | _ => false

def announced (calls : List Point) (dev : Dev) : Prop := ∃ point ∈ calls, point.announcing dev = true

def completing (calls : List Point) (dev : Dev) : Prop := ∃ point ∈ calls, point.completing dev = true

/-- Masked, the device has a poll coming or about to unmask it, and whatever is in its
queue has a poll or an interrupt coming for it. -/
def Owed (c : Control) (on : Dev → Bool) (announced completing : Prop) (dev : Dev) : Prop :=
  (c.rxIntEnabled dev = false → on dev = true ∨ completing) ∧
    (c.links.rxQueue dev ≠ none → on dev = true ∨ announced ∨ raised (c.status dev) snullRxIntr = true)

def Attended (m : Machine) : Prop :=
  ∀ dev, Owed m.shared.driver.control m.shared.scheduled (announced m.calls dev) (completing m.calls dev) dev

/-- The four steps that could leave a device to itself do so only if somebody else still
minds it: a sender that finds interrupts masked, a poll that tells the kernel it is done,
the watchdog, which overwrites the status word, and a handler whose device is not up. -/
def Point.Careful (c : Control) (on : Dev → Bool) (announced completing : Dev → Prop) : Point → Prop
  | .common (.testRxInts tx) => c.rxIntEnabled tx.dest = false → c.links.rxQueue tx.dest ≠ none →
      on tx.dest = true ∨ announced tx.dest ∨ raised (c.status tx.dest) snullRxIntr = true
  | .pollComplete dev => c.links.rxQueue dev ≠ none → announced dev ∨ raised (c.status dev) snullRxIntr = true
  | .common (.enterTimeout dev) => c.links.rxQueue dev ≠ none → raised (c.status dev) snullRxIntr = true →
      on dev = true ∨ announced dev
  | .common (.interrupt dev _) => raised (c.status dev) snullRxIntr = true →
      c.up dev = true ∨ on dev = true ∨ completing dev ∧ (c.links.rxQueue dev ≠ none → announced dev)
  | _ => True

def Careful (m : Machine) : Action → Prop
  | .run index _ =>
    match m.calls[index]? with
    | some point => point.Careful m.shared.driver.control m.shared.scheduled (announced (m.calls.eraseIdx index))
        (completing (m.calls.eraseIdx index))
    | none => True
  | _ => True

private theorem exists_replaced {p : Point → Prop} (shape : calls = before ++ point :: after) :
    (∃ other ∈ calls, p other) ↔ p point ∨ ∃ other ∈ before ++ after, p other := by
  subst shape
  simp only [List.mem_append, List.mem_cons]
  constructor
  · rintro ⟨other, earlier | rfl | later, holds⟩
    · exact .inr ⟨other, .inl earlier, holds⟩
    · exact .inl holds
    · exact .inr ⟨other, .inr later, holds⟩
  · rintro (holds | ⟨other, earlier | later, holds⟩)
    · exact ⟨point, .inr (.inl rfl), holds⟩
    · exact ⟨other, .inl earlier, holds⟩
    · exact ⟨other, .inr (.inr later), holds⟩

private theorem exists_replacing {p : Point → Prop} {rest : List Point} :
    (∃ other ∈ before ++ rest ++ after, p other) ↔ (∃ other ∈ rest, p other) ∨ ∃ other ∈ before ++ after, p other := by
  simp only [mem_replaced, or_and_right, exists_or]

@[simp] theorem announced_next : announced [point] dev ↔ point.announcing dev = true := by simp [announced]
@[simp] theorem completing_next : completing [point] dev ↔ point.completing dev = true := by simp [completing]
@[simp] theorem announced_nil : ¬ announced [] dev := by simp [announced]
@[simp] theorem completing_nil : ¬ completing [] dev := by simp [completing]

@[simp] theorem announced_resume (caller : Caller) : ¬ announced (lift caller.resume).calls dev := by
  cases caller <;> simp [Caller.resume, lift, Point.announcing, Point.port]

@[simp] theorem completing_resume (caller : Caller) : ¬ completing (lift caller.resume).calls dev := by
  cases caller <;> simp [Caller.resume, lift, Point.completing]

section Step
variable {announces completes : Dev → Prop}

theorem Owed.kept {first second first' second' : Prop} (owed : Owed c on first second dev)
    (masks : c'.rxIntEnabled dev = c.rxIntEnabled dev) (queue : c'.links.rxQueue dev = c.links.rxQueue dev)
    (status : raised (c'.status dev) snullRxIntr = raised (c.status dev) snullRxIntr)
    (announces : first → first') (completes : second → second') : Owed c' on first' second' dev := by
  rw [Owed, masks, queue, status]
  exact ⟨fun masked => (owed.1 masked).imp_right completes, fun queued => (owed.2 queued).imp_right (Or.imp_left announces)⟩

private theorem common_owed {point : Snull.Point} {progress : Progress} (moved : Snull.Advance cfg c point progress c')
    (plain : Point.plain point = true) (careful : (Point.common point).Careful c on announces completes)
    (owed : Owed c on ((Point.common point).announcing dev = true ∨ announces dev)
      ((Point.common point).completing dev = true ∨ completes dev) dev) :
    Owed c' on (announced (lift progress).calls dev ∨ announces dev) (completing (lift progress).calls dev ∨ completes dev)
      dev := by
  cases moved with
  | pollEmpty | pollMore | received | handled => cases plain
  | @enqueued tx pkt =>
    by_cases same : dev = tx.dest
    · subst same
      refine ⟨fun masked => (owed.1 masked).imp_right ?_, fun _ => .inr (.inl (.inl ?_))⟩
      · simp [lift, Point.completing]
      · simp [lift, Point.announcing, Point.port]
    · apply owed.kept
      · rfl
      · simp [Links.enqueue, same]
      · rfl
      · simp [lift, Point.announcing, Point.port, Ne.symm same]
      · simp [lift, Point.completing]
  | @masked tx disabled =>
    by_cases same : dev = tx.dest
    · subst same
      refine ⟨fun masked => (owed.1 masked).imp_right ?_, fun queued => (careful disabled queued).imp_right ?_⟩
      · simp [lift, Point.completing]
      · exact Or.imp_left .inr
    · apply owed.kept rfl rfl rfl
      · simp [lift, Point.announcing, Point.port, Ne.symm same]
      · simp [lift, Point.completing]
  | @raisedRx tx =>
    by_cases same : dev = tx.dest
    · subst same
      refine ⟨fun masked => (owed.1 masked).imp_right ?_, fun _ => .inr (.inr ?_)⟩
      · simp [lift, Point.completing]
      · simp [raised_or]
    · apply owed.kept
      · rfl
      · rfl
      · simp [same]
      · simp [lift, Point.announcing, Point.port, Ne.symm same]
      · simp [lift, Point.completing]
  | @raisedTx tx =>
    apply owed.kept
    · rfl
    · rfl
    · by_cases same : dev = tx.dev
      · simp [same, raised_or]
      · simp [same]
    · simp [lift, Point.announcing, Point.port]
    · simp [lift, Point.completing]
  | @timedOut other =>
    by_cases same : dev = other
    · subst same
      refine ⟨fun masked => (owed.1 masked).imp_right ?_, fun queued => ?_⟩
      · simp [lift, Point.completing]
      · rcases owed.2 queued with scheduled | announced | signalled
        · exact .inl scheduled
        · exact .inr (.inl (.inr (by simpa [Point.announcing, Point.port] using announced)))
        · exact (careful queued signalled).imp_right fun announced => .inl (.inr announced)
    · apply owed.kept
      · rfl
      · rfl
      · simp [same]
      · simp [lift, Point.announcing, Point.port]
      · simp [lift, Point.completing]
  | @dequeued other npackets quota pkt head =>
    refine ⟨fun masked => (owed.1 masked).imp_right (by simp [lift, Point.completing]), fun queued => ?_⟩
    have waiting : c.links.rxQueue dev ≠ none := by
      by_cases same : dev = other
      · simp [same, head]
      · simpa [Links.dequeue, same] using queued
    exact (owed.2 waiting).imp_right (Or.imp_left (by simp [lift, Point.announcing, Point.port]))
  | @pollEnabled other =>
    refine ⟨fun masked => ?_, fun queued => (owed.2 queued).imp_right (Or.imp_left ?_)⟩
    · have different : dev ≠ other := by
        rintro rfl
        simp at masked
      have before : c.rxIntEnabled dev = false := by simpa [different] using masked
      exact (owed.1 before).imp_right (by simp [lift, Point.completing, Ne.symm different])
    · simp [lift, Point.announcing, Point.port]
  | wakeUnwanted | woken =>
    apply owed.kept rfl rfl rfl
    · simp [Point.announcing, Point.port]
    · simp [Point.completing]
  | _ =>
    apply owed.kept rfl rfl rfl
    · simp [lift, Point.announcing, Point.port]
    · simp [lift, Point.completing]

/-- What the handler does to the status, the mask and the schedule of its device. -/
private theorem interrupted_owed {other : Dev} {caller : Caller} {progress : Progress} (napi : cfg.useNapi = true)
    (moved : Snull.Advance cfg c (.interrupt other caller) progress c')
    (careful : (Point.common (.interrupt other caller)).Careful c on announces completes)
    (owed : Owed c on ((Point.common (.interrupt other caller)).announcing dev = true ∨ announces dev)
      ((Point.common (.interrupt other caller)).completing dev = true ∨ completes dev) dev) :
    Owed c'
      (if cfg.useNapi = true ∧ raised (c.status other) snullRxIntr = true ∧ c.up other = true then
        Function.update on other true
      else on)
      (announced (lift progress).calls dev ∨ announces dev) (completing (lift progress).calls dev ∨ completes dev) dev := by
  cases moved with
  | received signalled =>
    have regular := signalled.1
    rw [napi] at regular
    cases regular
  | handled nothing =>
    by_cases own : dev = other
    · subst own
      by_cases signalled : raised (c.status dev) snullRxIntr = true
      · simp only [napi, signalled, true_and]
        have on_stays (scheduled : on dev = true) :
            (if c.up dev = true then Function.update on dev true else on) dev = true := by
          split
          · simp
          · exact scheduled
        rcases careful signalled with up | scheduled | ⟨completes, announces⟩
        · simp [Owed, up]
        · exact ⟨fun _ => .inl (on_stays scheduled), fun _ => .inl (on_stays scheduled)⟩
        · exact ⟨fun _ => .inr (.inr completes), fun queued => .inr (.inl (.inr (announces queued)))⟩
      · rw [if_neg fun both => signalled both.2, if_neg fun both => signalled both.2.1]
        apply owed.kept
        · rfl
        · rfl
        · simp [signalled]
        · simp [Point.announcing, Point.port]
        · simp [Point.completing]
    · have mask : (if cfg.useNapi = true ∧ raised (c.status other) snullRxIntr = true then
          Function.update c.rxIntEnabled other false else c.rxIntEnabled) dev = c.rxIntEnabled dev := by
        split <;> simp [own]
      have schedule : (if cfg.useNapi = true ∧ raised (c.status other) snullRxIntr = true ∧ c.up other = true then
          Function.update on other true else on) dev = on dev := by
        split <;> simp [own]
      simp only [Owed, mask, schedule] at owed ⊢
      simpa [own, Point.announcing, Point.port, Point.completing] using owed

theorem Advance.owed (napi : cfg.useNapi = true) (advance : Advance cfg c on point progress c' on')
    (careful : point.Careful c on announces completes)
    (owed : Owed c on (point.announcing dev = true ∨ announces dev) (point.completing dev = true ∨ completes dev) dev) :
    Owed c' on' (announced progress.calls dev ∨ announces dev) (completing progress.calls dev ∨ completes dev) dev := by
  cases advance with
  | common moved plain => exact common_owed moved plain careful owed
  | interrupted moved => exact interrupted_owed napi moved careful owed
  | drained | left =>
    apply owed.kept
    · rfl
    · rfl
    · rfl
    · simp [Point.announcing, Point.port]
    · simp [Point.completing]
  | @completed other =>
    by_cases same : dev = other
    · subst same
      refine ⟨fun _ => .inr (.inl (by simp [Point.completing])), fun queued => .inr ?_⟩
      exact (careful queued).imp_left .inr
    · refine ⟨fun masked => ?_, fun queued => ?_⟩
      · simpa [same, Point.completing, Ne.symm same] using owed.1 masked
      · simpa [same, Point.announcing, Point.port] using owed.2 queued

/-- Any other step leaves a device to itself. -/
private theorem Advance.abandoned (napi : cfg.useNapi = true) (advance : Advance cfg c on point progress c' on')
    (careless : ¬ point.Careful c on announces completes) :
    ∃ dev, ¬ Owed c' on' (announced progress.calls dev ∨ announces dev)
      (completing progress.calls dev ∨ completes dev) dev := by
  cases advance with
  | common moved plain =>
    cases moved with
    | @unmasked tx enabled => simp [Point.Careful, enabled] at careless
    | @masked tx disabled =>
      refine ⟨tx.dest, fun owed => careless fun _ queued => ?_⟩
      simpa [lift, Point.announcing, Point.port] using owed.2 queued
    | @timedOut dev =>
      refine ⟨dev, fun owed => careless fun queued _ => ?_⟩
      simpa [lift, Point.announcing, Point.port] using owed.2 queued
    | received | handled => cases plain
    | _ => exact absurd trivial careless
  | @interrupted dev caller progress _ moved =>
    cases moved with
    | received signalled =>
      have regular := signalled.1
      rw [napi] at regular
      cases regular
    | handled nothing =>
      refine ⟨dev, fun owed => careless fun signalled => ?_⟩
      obtain ⟨masked, queued⟩ := owed
      by_cases up : c.up dev = true
      · exact .inl up
      · have unmasked : on dev = true ∨ completes dev := by simpa [napi, signalled, up] using masked
        have collected : c.links.rxQueue dev ≠ none → on dev = true ∨ announces dev := by simpa [up] using queued
        by_cases scheduled : on dev = true
        · exact .inr (.inl scheduled)
        · exact .inr (.inr ⟨unmasked.resolve_left scheduled, fun queued => (collected queued).resolve_left scheduled⟩)
  | @completed dev =>
    refine ⟨dev, fun owed => careless fun queued => ?_⟩
    simpa [Point.announcing, Point.port] using owed.2 queued
  | drained | left => exact absurd trivial careless

end Step

theorem Attended.start (attended : Attended m) (entry : Point) {state : State}
    (control : state.driver.control = m.shared.driver.control)
    (scheduled : state.scheduled = m.shared.scheduled) : Attended ⟨state, m.calls ++ [entry]⟩ := by
  have grows {p : Point → Prop} (holds : ∃ point ∈ m.calls, p point) : ∃ point ∈ m.calls ++ [entry], p point := by
    obtain ⟨point, member, holds⟩ := holds
    exact ⟨point, List.mem_append_left _ member, holds⟩
  intro dev
  simp only [scheduled]
  exact (attended dev).kept (by rw [control]) (by rw [control]) (by rw [control]) grows grows

theorem Attended.same (attended : Attended m) {state : State}
    (masks : state.driver.control.rxIntEnabled = m.shared.driver.control.rxIntEnabled)
    (links : state.driver.control.links = m.shared.driver.control.links)
    (status : state.driver.control.status = m.shared.driver.control.status)
    (scheduled : state.scheduled = m.shared.scheduled) : Attended { m with shared := state } := by
  intro dev
  simp only [scheduled]
  exact (attended dev).kept (by rw [masks]) (by rw [links]) (by rw [status]) id id

theorem Attended.step {action : Action} (napi : cfg.useNapi = true) (attended : Attended m) (careful : Careful m action)
    (stepped : m.step cfg action = some m') : Attended m' := by
  cases Machine.step_cases stepped with
  | opened | closed | mtu => exact attended.same (by simp [onDriver]) (by simp [onDriver]) (by simp [onDriver]) rfl
  | refilled => exact attended.same rfl rfl rfl rfl
  | startedTx | startedTimeout | startedInterrupt | startedPoll => exact attended.start _ rfl rfl
  | ran found shape others taken =>
    intro dev
    simp only [Careful, found, others] at careful
    have owed := attended dev
    simp only [announced, completing, exists_replaced shape] at owed
    simp only [announced, completing, exists_replacing]
    exact (Point.step_advance taken).owed napi careful owed

theorem Attended.broken {action : Action} (napi : cfg.useNapi = true) (careless : ¬ Careful m action)
    (stepped : m.step cfg action = some m') : ¬ Attended m' := by
  cases Machine.step_cases stepped with
  | ran found shape others taken =>
    simp only [Careful, found, others] at careless
    intro attended
    obtain ⟨dev, unpaid⟩ := (Point.step_advance taken).abandoned napi careless
    apply unpaid
    have owed := attended dev
    simp only [announced, completing, exists_replacing] at owed
    exact owed
  | _ => exact absurd trivial careless

/-- Whoever sets the receive bit enters the handler. -/
def Answered (m : Snull.Machine) : Prop :=
  ∀ dev, raised (m.state.control.status dev) snullRxIntr = true → ∃ caller, .interrupt dev caller ∈ m.calls

theorem Answered.same {calls : Snull.Machine} {state : Snull.State} (answered : Answered calls)
    (status : state.control.status = calls.state.control.status) : Answered ⟨state, calls.calls⟩ := by
  intro dev set
  exact answered dev (by simpa only [status] using set)

theorem Answered.grows {calls : Snull.Machine} (answered : Answered calls) (entry : Snull.Point) :
    Answered ⟨calls.state, calls.calls ++ [entry]⟩ := by
  intro dev set
  obtain ⟨caller, running⟩ := answered dev set
  exact ⟨caller, List.mem_append_left _ running⟩

theorem Answered.step {action : Action} (answered : Answered m.port) (stepped : m.step cfg action = some m') :
    Answered m'.port := by
  cases Machine.step_cases stepped with
  | opened | closed | mtu => exact answered.same (by simp [onDriver, Machine.port])
  | refilled => exact answered
  | startedTx | startedTimeout | startedInterrupt => exact port_started _ ▸ answered.grows _
  | startedPoll => exact port_started _ ▸ answered.grows _
  | @ran index memory before point after progress shared found shape others taken =>
    cases point with
    | pollComplete dev => exact port_completed shape taken ▸ answered
    | common point =>
      have advance := (Point.step_advance taken).port (by simp)
      rw [port_replaced]
      intro dev set
      rcases advance.answered set with ⟨caller, entered⟩ | ⟨earlier, elsewhere⟩
      · exact ⟨caller, mem_replaced.mpr (.inl entered)⟩
      · obtain ⟨caller, member⟩ := answered dev earlier
        rw [port_shape shape] at member
        have different := (elsewhere caller).symm
        refine ⟨caller, mem_replaced.mpr (.inr ?_)⟩
        rw [List.mem_append, List.mem_cons] at member
        exact List.mem_append.mpr (member.imp_right fun later => later.resolve_left different)

/-- Polling mode: in every state of a run, a masked device has a poll coming for it or about to
unmask it, and a queued frame has a poll or an interrupt coming for it, exactly if all
steps on the way are careful. Where that holds and nothing is left to do, receive
interrupts are on and the queues are empty. -/
theorem handshake_kept_iff (cfg : Config) (kmalloc : Dev → Nat → Bool) (memory : Addr → Packet)
    (napi : cfg.useNapi = true) (actions : List Action) (m : Machine)
    (run : Run (Machine.step cfg) (fun _ _ => True) ⟨loaded cfg kmalloc memory, []⟩ actions m) :
    (Throughout (Machine.step cfg) (fun _ _ => True) ⟨loaded cfg kmalloc memory, []⟩ actions Attended ↔
      Run (Machine.step cfg) (Both (fun _ _ => True) Careful) ⟨loaded cfg kmalloc memory, []⟩ actions m) ∧
    (Attended m → m.calls = [] → ∀ dev, m.shared.scheduled dev = false →
      (m.shared.driver.priv dev).rxIntEnabled = true ∧ (m.shared.driver.priv dev).rxQueue = none) := by
  have fresh (dev : Dev) : (loaded cfg kmalloc memory).driver.control.rxIntEnabled dev = true ∧
      (loaded cfg kmalloc memory).driver.control.links.rxQueue dev = none ∧
      (loaded cfg kmalloc memory).driver.control.status dev = 0#32 := by
    obtain ⟨head, device⟩ := @setUp_device cfg kmalloc memory dev
    simp [loaded, State.control, State.priv, device]
  constructor
  · apply run.throughout_iff Attended Attended
    · intro dev
      simp [Owed, fresh]
    · intro m action next attended _ careful stepped
      exact attended.step napi careful stepped
    · exact fun _ attended => attended
    · intro m action next _ _ careless stepped
      exact Attended.broken napi careless stepped
  · intro attended idle dev unscheduled
    have answered : Answered m.port := by
      apply run.invariant fun m => Answered m.port
      · intro dev set
        simp [Machine.port, fresh] at set
      · intro m action next answered _ stepped
        exact answered.step stepped
    have silent : ¬ raised (m.shared.driver.control.status dev) snullRxIntr = true := by
      intro set
      obtain ⟨caller, running⟩ := answered dev set
      simp [Machine.port, idle] at running
    obtain ⟨masked, queued⟩ := attended dev
    rw [idle] at masked queued
    simp only [unscheduled, announced_nil, completing_nil, silent, or_false, Bool.false_eq_true, imp_false] at masked queued
    exact ⟨Bool.not_eq_false _ ▸ masked, not_not.mp queued⟩

instance : Decidable (announced calls dev) := inferInstanceAs (Decidable (∃ point ∈ calls, _ = true))

instance : Decidable (completing calls dev) := inferInstanceAs (Decidable (∃ point ∈ calls, _ = true))

instance (announced completing : Dev → Prop) [DecidablePred announced] [DecidablePred completing] :
    Decidable (point.Careful c on announced completing) := by
  unfold Point.Careful
  split <;> infer_instance

instance (action : Action) : Decidable (Careful m action) := by
  unfold Careful
  split
  · split <;> infer_instance
  · infer_instance

/-- A frame is announced to sn1, polled and passed up, and nobody comes between. -/
theorem handshake_kept_iff_polled : ∃ (actions : List Action) (m : Machine), m.shared.driver.passedUp.length = 1 ∧
    Throughout (Machine.step polling) (fun _ _ => True) ⟨loaded polling (fun _ _ => true) sampleMemory, []⟩ actions
      Attended := by
  have reached : ∃ m : Machine, Run (Machine.step polling) (Both (fun _ _ => True) Careful)
      ⟨loaded polling (fun _ _ => true) sampleMemory, []⟩
      (.open .sn0 :: .open .sn1 :: .startTx .sn0 ⟨0, samplePlain⟩ [] :: List.replicate 11 (.run 0 true) ++
        .refill .sn1 64 :: .startPoll .sn1 64 :: List.replicate 9 (.run 0 true)) m ∧
      m.shared.driver.passedUp.length = 1 := reaches_of_execute (by decide +kernel)
  obtain ⟨m, run, passed⟩ := reached
  exact ⟨_, m, passed, (handshake_kept_iff _ _ _ rfl _ m (run.mono fun _ _ both => both.1)).1.mpr run⟩

end DeviceDrivers.Snull.Original
