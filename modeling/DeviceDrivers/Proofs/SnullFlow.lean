import DeviceDrivers.Library.Runs
import DeviceDrivers.Proofs.SnullSetup
import DeviceDrivers.Proofs.SnullSteps

/-! When a transmit queue may be running. Taking the last packet stops it and
only the owner takes packets, so everything depends on the steps that start it
again, none of which asks both questions that matter. -/

namespace DeviceDrivers.Snull
open Runs
open Interleavings (mem_replaced other_mem all_started all_replaced)

def Control.Usable (c : Control) (dev : Dev) : Prop := c.up dev = true ∧ c.links.ppool dev ≠ none

def Control.Promised (c : Control) : Prop := ∀ dev, c.stopped dev = false → c.Usable dev

@[simp] def Point.needsBuffer : Point → Option Dev
  | .enterTx dev _ _ => some dev
  | .getBuffer tx => some tx.dev
  | _ => none

@[simp] def Point.waking : Point → Option Dev
  | .wake dev _ | .wakeTimeout dev => some dev
  | _ => none

private theorem Point.needs_sender {point : Point} {dev : Dev} (needs : point.needsBuffer = some dev) :
    point.sender = some dev := by
  cases point <;> simp_all [Point.sender]

variable {cfg : Config} {c c' : Control} {point : Point} {progress : Progress}

private theorem Advance.needs (advance : Advance cfg c point progress c') {dev : Dev} :
    ∀ next ∈ progress.points, next.needsBuffer = some dev → point.needsBuffer = some dev ∧ c' = c := by
  have resumed (caller : Caller) : ∀ next ∈ caller.resume.points, next.needsBuffer ≠ some dev := by
    cases caller <;> simp [Caller.resume]
  cases advance with
  | entered sender => simp [sender]
  | handled | wakeUnwanted | woken =>
    intro next member needs
    exact absurd needs (resumed _ next member)
  | _ => simp

/-- Only its own transmission can empty a device's pool. -/
theorem Advance.supplied (advance : Advance cfg c point progress c') {dev : Dev}
    (supplied : c.links.ppool dev ≠ none) (other : ∀ tx, point = .getBuffer tx → tx.dev ≠ dev) :
    c'.links.ppool dev ≠ none := by
  cases advance with
  | @gotBuffer tx pkt =>
    simpa [Links.take, Ne.symm (other tx rfl)] using supplied
  | @released pkt caller =>
    simp only [Links.give, Function.update_apply]
    split
    · simp
    · exact supplied
  | _ => exact supplied

theorem Advance.up (advance : Advance cfg c point progress c') : c'.up = c.up := by
  cases advance <;> rfl

/-- A queue that runs after a step was woken by it or ran before. If a step
empties the pool, it does not leave the queue running. -/
theorem Advance.running (advance : Advance cfg c point progress c') {dev : Dev}
    (running : c'.stopped dev = false) :
    (point.waking = some dev ∨ c.stopped dev = false) ∧
      (c.links.ppool dev ≠ none → c'.links.ppool dev ≠ none) := by
  cases advance with
  | @gotBuffer tx pkt =>
    by_cases same : dev = tx.dev
    · subst same
      by_cases last : c.links.next pkt = none
      · simp [last] at running
      · exact ⟨.inr (by simpa [last] using running), fun _ => by simpa [Links.take] using last⟩
    · refine ⟨.inr ?_, fun supplied => by simpa [Links.take, same] using supplied⟩
      split at running
      · simpa [same] using running
      · exact running
  | @lockedUp tx =>
    by_cases same : dev = tx.dev
    · simp [same] at running
    · exact ⟨.inr (by simpa [same] using running), id⟩
  | @woken other | @timeoutWoken other =>
    by_cases same : dev = other
    · exact ⟨.inl (by simp [same]), id⟩
    · exact ⟨.inr (by simpa [same] using running), id⟩
  | @released pkt caller =>
    refine ⟨.inr running, fun supplied => ?_⟩
    simp only [Links.give, Function.update_apply]
    split
    · simp
    · exact supplied
  | _ => exact ⟨.inr running, id⟩

private theorem Advance.promised (advance : Advance cfg c point progress c') (promised : c.Promised)
    (usable : ∀ dev, point.waking = some dev → c.Usable dev) : c'.Promised := by
  intro dev running
  obtain ⟨source, supplied⟩ := advance.running running
  have before : c.Usable dev := source.elim (usable dev) (promised dev)
  exact ⟨advance.up ▸ before.1, supplied before.2⟩

/-- Calls that are still going to take a packet find one, and no two calls
transmit on one device. -/
structure Supplied (m : Machine) : Prop where
  promised : m.state.control.Promised
  alone : ∀ dev, m.calls.countP (fun point => point.sender = some dev) ≤ 1
  supplied : ∀ point ∈ m.calls, ∀ dev, point.needsBuffer = some dev → m.state.control.links.ppool dev ≠ none

def Action.WakesUsable (m : Machine) : Action → Prop
  | .open dev => (m.state.priv dev).ppool ≠ none
  | .run index _ => (m.calls[index]?.bind Point.waking).all fun dev =>
      (m.state.device dev).up && (m.state.priv dev).ppool.isSome
  | _ => True

instance (m : Machine) (action : Action) : Decidable (action.WakesUsable m) :=
  match action with
  | .open _ => inferInstanceAs (Decidable (_ ≠ _))
  | .run _ _ => inferInstanceAs (Decidable (_ = true))
  | .release _ | .changeMtu _ _ | .startTx _ _ _ | .startTimeout _ | .startInterrupt _ | .startPoll _ _ =>
    inferInstanceAs (Decidable True)

/-- `snull_tx` is called on a running queue, `snull_tx_timeout` on a stopped
one of an open device. -/
def Action.Permitted (m : Machine) : Action → Prop
  | .startTx dev _ _ => (m.state.device dev).stopped = false
  | .startTimeout dev => (m.state.device dev).stopped = true ∧ (m.state.device dev).up = true
  | _ => True

instance (m : Machine) (action : Action) : Decidable (action.Permitted m) :=
  match action with
  | .startTx _ _ _ => inferInstanceAs (Decidable (_ = _))
  | .startTimeout _ => inferInstanceAs (Decidable (_ ∧ _))
  | .open _ | .release _ | .changeMtu _ _ | .startInterrupt _ | .startPoll _ _ | .run _ _ =>
    inferInstanceAs (Decidable True)

private theorem wakesUsable_run {m : Machine} {index : Nat} {memory : Bool} {dev : Dev}
    (found : m.calls[index]? = some point) (waking : point.waking = some dev) :
    (Action.run index memory).WakesUsable m ↔ m.state.control.Usable dev := by
  simp only [Action.WakesUsable, found, Option.bind_some, waking]
  simp [Control.Usable, Option.isSome_iff_ne_none, State.control]

private theorem Supplied.start {m : Machine} {entry : Point} (kept : Supplied m)
    (alone : ∀ dev, entry.sender = some dev → ∀ point ∈ m.calls, point.sender ≠ some dev)
    (supplied : ∀ dev, entry.needsBuffer = some dev → m.state.control.links.ppool dev ≠ none) :
    Supplied (m.start entry) := by
  refine ⟨kept.promised, ?_, ?_⟩
  · intro dev
    have before := kept.alone dev
    by_cases sender : entry.sender = some dev
    · have none : m.calls.countP (fun point => point.sender = some dev) = 0 := by
        simpa [List.countP_eq_zero] using alone dev sender
      simp [Machine.start, none, sender]
    · simpa [Machine.start, sender] using before
  · exact all_started kept.supplied supplied

private theorem apart {before after : List Point} {other : Point} {dev : Dev}
    (alone : (before ++ point :: after).countP (fun point => point.sender = some dev) ≤ 1)
    (elsewhere : other ∈ before ++ after) (sender : other.sender = some dev) : point.sender ≠ some dev := by
  intro same
  have found : 0 < (before ++ after).countP (fun point => point.sender = some dev) :=
    List.countP_pos_iff.mpr ⟨other, elsewhere, by simp [sender]⟩
  simp only [List.countP_append, List.countP_cons, same, decide_true, if_true] at alone found
  omega

theorem Supplied.step {m m' : Machine} {action : Action} (kept : Supplied m) (permitted : action.Permitted m)
    (usable : action.WakesUsable m) (stepped : m.step cfg action = some m') : Supplied m' := by
  cases Machine.step_cases stepped with
  | @opened dev =>
    refine ⟨?_, kept.alone, by simpa using kept.supplied⟩
    intro other running
    by_cases same : other = dev
    · subst same
      refine ⟨by simp, ?_⟩
      rw [control_open]
      exact usable
    · simpa [Control.Usable, same] using kept.promised other (by simpa [same] using running)
  | @closed dev =>
    refine ⟨?_, kept.alone, by simpa using kept.supplied⟩
    intro other running
    by_cases same : other = dev
    · simp [same] at running
    · simpa [Control.Usable, same] using kept.promised other (by simpa [same] using running)
  | mtu => exact ⟨by simpa using kept.promised, kept.alone, by simpa using kept.supplied⟩
  | startedTx idle =>
    apply kept.start
    · intro other same
      cases same
      exact idle
    · intro other same
      cases same
      exact (kept.promised _ permitted).2
  | startedTimeout | startedInterrupt | startedPoll =>
    apply kept.start
    · simp [Point.sender, Caller.sender]
    · simp
  | @ran index memory before point after progress state found shape taken =>
    have advance := Point.step_advance taken
    have running : point ∈ m.calls := by simp [shape]
    refine ⟨?_, ?_, ?_⟩
    · exact advance.promised kept.promised fun dev waking => (wakesUsable_run found waking).mp usable
    · intro dev
      have whole := kept.alone dev
      have here : progress.points.countP (fun point => point.sender = some dev) ≤
          [point].countP (fun point => point.sender = some dev) := by
        cases progress with
        | returned value => simp
        | next next => simp [advance.sender next (by simp)]
      simp only [shape, List.countP_append, List.countP_cons, List.countP_nil] at whole here ⊢
      omega
    · intro other member dev needs
      rcases mem_replaced.mp member with rest | elsewhere
      · obtain ⟨needed, same⟩ := advance.needs other rest needs
        rw [same]
        exact kept.supplied point running dev needed
      · apply advance.supplied (kept.supplied other (other_mem shape elsewhere) dev needs)
        rintro tx rfl same
        apply apart (shape ▸ kept.alone dev) elsewhere (Point.needs_sender needs)
        simp [Point.sender, same]

/-- A running queue belongs to an open device with a packet left, and every
transmission about to take a packet finds one. -/
def Machine.FlowControlled (m : Machine) : Prop :=
  (∀ dev, (m.state.device dev).stopped = false →
    (m.state.device dev).up = true ∧ (m.state.priv dev).ppool ≠ none) ∧
  ∀ tx, .getBuffer tx ∈ m.calls → (m.state.priv tx.dev).ppool ≠ none

private theorem Supplied.flowControlled {m : Machine} (kept : Supplied m) : m.FlowControlled :=
  ⟨kept.promised, fun tx member => kept.supplied _ member tx.dev rfl⟩

theorem Supplied.initial {kmalloc : Dev → Nat → Bool} {contents : Addr → Packet} :
    Supplied ⟨setUp cfg kmalloc contents, []⟩ := by
  refine ⟨?_, by simp, by simp⟩
  intro dev running
  obtain ⟨head, device⟩ := @setUp_device cfg kmalloc contents dev
  simp [State.control, device] at running

private theorem flow_broken {m m' : Machine} {action : Action} (unusable : ¬ action.WakesUsable m)
    (stepped : m.step cfg action = some m') : ¬ m'.FlowControlled := by
  intro controlled
  have promised : m'.state.control.Promised := controlled.1
  cases Machine.step_cases stepped with
  | @opened dev =>
    have usable := (promised dev (by simp)).2
    rw [control_open] at usable
    exact unusable usable
  | @ran index memory before point after progress state found shape taken =>
    have advance := Point.step_advance taken
    cases waking : point.waking with
    | none => simp only [Action.WakesUsable, found, Option.bind_some, waking, Option.all_none, not_true] at unusable
    | some dev =>
      rw [wakesUsable_run found waking] at unusable
      apply unusable
      generalize state.control = after at advance promised
      cases advance with
      | woken | timeoutWoken =>
        cases waking
        apply promised dev
        simp
      | _ => cases waking
  | _ => exact unusable trivial

/-- In either mode, from the set-up devices and over any interleaving of calls
that keeps the kernel's side of the contract: flow control holds in every state
passed through exactly if every step that starts or wakes a queue finds the
device open, where that is not the step itself, and its pool not empty. -/
theorem flow_controlled_iff_wakes_usable (cfg : Config) (kmalloc : Dev → Nat → Bool) (contents : Addr → Packet)
    (actions : List Action) (m : Machine)
    (run : Run (Machine.step cfg) Action.Permitted ⟨setUp cfg kmalloc contents, []⟩ actions m) :
    Throughout (Machine.step cfg) Action.Permitted ⟨setUp cfg kmalloc contents, []⟩ actions
        Machine.FlowControlled ↔
      Run (Machine.step cfg) (Both Action.Permitted Action.WakesUsable)
        ⟨setUp cfg kmalloc contents, []⟩ actions m :=
  run.throughout_iff Supplied Machine.FlowControlled Supplied.initial
    (fun _ _ _ kept permitted usable stepped => kept.step permitted usable stepped)
    (fun _ kept => kept.flowControlled)
    (fun _ _ _ _ _ unusable stepped => flow_broken unusable stepped)

/-- A ping with a single packet: its queue is stopped when the packet is taken
and woken when it comes back. -/
theorem flow_controlled_iff_wakes_usable_ping : ∃ actions,
    Throughout (Machine.step (sample 1 0)) Action.Permitted
      ⟨setUp (sample 1 0) (fun _ _ => true) sampleMemory, []⟩ actions Machine.FlowControlled := by
  have reached : ∃ m : Machine, Run (Machine.step (sample 1 0)) (Both Action.Permitted Action.WakesUsable)
      ⟨setUp (sample 1 0) (fun _ _ => true) sampleMemory, []⟩
      (.open .sn0 :: .startTx .sn0 ⟨0, samplePing⟩ [] :: List.replicate 14 (.run 0 true)) m ∧
      m.calls = [] := reaches_of_execute (by decide +kernel)
  obtain ⟨m, usable, _⟩ := reached
  have run : Run _ Action.Permitted _ _ m := usable.mono fun _ _ both => both.1
  exact ⟨_, (flow_controlled_iff_wakes_usable _ _ _ _ m run).mpr usable⟩

/-- In NAPI mode the only packet of sn0 waits at sn1 to be polled. The watchdog
wakes the queue it has stopped, and the next transmission finds no packet. -/
theorem woken_without_buffer : ¬ ∀ (cfg : Config) (kmalloc : Dev → Nat → Bool) (contents : Addr → Packet)
    (actions : List Action) (m : Machine),
    (∀ dev, ((setUp cfg kmalloc contents).priv dev).ppool ≠ none) →
    Run (Machine.step cfg) Action.Permitted ⟨setUp cfg kmalloc contents, []⟩ actions m →
    m.FlowControlled := by
  intro claim
  let cfg : Config := { sample 1 0 with useNapi := true }
  have stocked (dev : Dev) : ((setUp cfg (fun _ _ => true) sampleMemory).priv dev).ppool ≠ none := by
    cases dev <;> decide
  have reached : ∃ m : Machine, Run (Machine.step cfg) Action.Permitted
      ⟨setUp cfg (fun _ _ => true) sampleMemory, []⟩
      (.open .sn0 :: .open .sn1 :: .startTx .sn0 ⟨0, samplePlain⟩ [] :: List.replicate 11 (.run 0 true) ++
        .startTimeout .sn0 :: List.replicate 4 (.run 0 true) ++
        [.startTx .sn0 ⟨1, samplePlain⟩ [], .run 0 true]) m ∧
      (m.state.device .sn0).stopped = false ∧ (m.state.priv .sn0).ppool = none :=
    reaches_of_execute (by decide +kernel)
  obtain ⟨m, run, woken, empty⟩ := reached
  exact ((claim _ _ _ _ m stocked run).1 .sn0 woken).2 empty

end DeviceDrivers.Snull
