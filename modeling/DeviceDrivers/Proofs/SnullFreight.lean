import DeviceDrivers.Proofs.SnullOwnership
import DeviceDrivers.Proofs.SnullTransmit

/-! What the packets hold while they wait, under any interleaving: each packet
in a receive queue was filled by one transmission, and nobody writes to it
until it is received. -/

namespace DeviceDrivers.Snull
open Runs Touches
open Interleavings (mem_replaced other_mem all_started all_replaced)

@[ext] structure Cargo where
  payload : Addr → Payload
  touched : List (Touch Buffer)
  passedUp : List (Dev × List UInt8)
  fresh : Addr
  kfreed : List Addr

namespace Cargo
variable (g : Cargo)

def touching (touches : List (Touch Buffer)) : Cargo := { g with touched := g.touched ++ touches }

def fill (pkt : Addr) (buf : Block Buffer) : Cargo :=
  { g with
    payload := Function.update g.payload pkt (fillPayload (g.payload pkt) buf).value
    touched := g.touched ++ (fillPayload (g.payload pkt) buf).touches }

def unpack (dev : Dev) (skb : Traced Buffer (Block Buffer)) : Cargo :=
  { g with touched := g.touched ++ skb.touches, passedUp := g.passedUp ++ [(dev, skb.value.bytes)] }

end Cargo

def State.cargo (s : State) : Cargo := ⟨fun pkt => (s.heap pkt).payload, s.touched, s.passedUp, s.fresh, s.kfreed⟩

section Operations
variable (s : State) (dev : Dev) (pkt : Addr)

theorem cargo_fill (buf : Block Buffer) : (fillPacket pkt buf s).cargo = s.cargo.fill pkt buf := by
  ext1
  · funext other
    simp only [State.cargo, Cargo.fill, fillPacket, State.touching_heap, State.onPacket_heap, Function.update_apply]
    split <;> rfl
  all_goals rfl

private theorem cargo_relinked {f : Packet → Packet} (same : (f (s.heap pkt)).payload = (s.heap pkt).payload) :
    (s.onPacket pkt f).cargo = s.cargo := by
  ext1
  · funext other
    simp only [State.cargo, State.onPacket_heap, Function.update_apply]
    split
    next found => rw [same, found]
    next => rfl
  all_goals rfl

private theorem cargo_onDevice (f : NetDevice → NetDevice) : (s.onDevice dev f).cargo = s.cargo := rfl

@[simp] theorem cargo_return : (returnBuffer pkt s).cargo = s.cargo := by
  rw [returnBuffer, State.onPriv, cargo_onDevice, cargo_relinked]
  rfl

@[simp] theorem cargo_enqueue : (snullEnqueueBuf dev pkt s).cargo = s.cargo := by
  rw [snullEnqueueBuf, State.onPriv, cargo_onDevice, cargo_relinked]
  rfl

@[simp] theorem cargo_changeMtu (mtu : Int) : (snullChangeMtu dev mtu s).2.cargo = s.cargo := by
  unfold snullChangeMtu
  split <;> rfl

@[simp] theorem cargo_kfreeSkb (skb : Option Skb) : (devKfreeSkb dev skb s).cargo = s.cargo := by
  cases skb <;> rfl

@[simp] theorem cargo_transmissionOver : (transmissionOver dev s).cargo = s.cargo := by
  rw [transmissionOver, cargo_kfreeSkb]
  rfl

private theorem cargo_snullRx (memory : Bool) : (snullRx memory dev pkt s).cargo =
    if memory then s.cargo.unpack dev (snullRxFrame (s.cargo.payload pkt)) else s.cargo := by
  cases memory <;> rfl

private theorem cargo_receiveOne (memory : Bool) : (receiveOne memory dev s).2.cargo =
    (receiveOne memory dev s).1.elim s.cargo fun pkt =>
      if memory then s.cargo.unpack dev (snullRxFrame (s.cargo.payload pkt)) else s.cargo := by
  unfold receiveOne
  split
  · rfl
  · exact cargo_snullRx ..

end Operations

private theorem interruptSection_cargo (cfg : Config) (memory : Bool) (dev : Dev) (s : State) :
    (interruptSection cfg memory dev s).2.cargo =
      (interruptSection cfg memory dev s).1.elim s.cargo fun pkt =>
        if memory then s.cargo.unpack dev (snullRxFrame (s.cargo.payload pkt)) else s.cargo := by
  have completed (state : State) (finished : Bool) :
      (if finished = true then transmissionOver dev state else state).cargo = state.cargo := by
    cases finished <;> simp
  unfold interruptSection
  by_cases napi : cfg.useNapi = true
  · simp only [napi, if_true, napiSection, completed, Option.elim_none]
    split <;> rfl
  · have regular : cfg.useNapi = false := by simpa using napi
    simp only [regular, Bool.false_eq_true, if_false, regularSection, completed]
    split
    · exact cargo_receiveOne ..
    · rfl

def transmit (cfg : Config) (beyond : List UInt8) (skb : Skb) (dev : Dev) : Transmit :=
  ⟨dev, route skb dev, { padded skb.data with bytes := sent (padded skb.data) cfg.ipFastCsum beyond }⟩

def enterTouches (cfg : Config) (beyond : List UInt8) (skb : Skb) : List (Touch Buffer) :=
  (snullTxData skb.data).touches ++ (snullHwTxFrame cfg.ipFastCsum beyond (padded skb.data)).touches

def Point.still : Point → Bool
  | .enterTx _ _ _ | .fill _ _ => false
  | _ => true

/-- One step of a call as far as the contents of the packets show it. -/
inductive Hauled (cfg : Config) (c : Control) (g : Cargo) : Point → Progress → Cargo → Prop where
  | entered {dev skb beyond} :
      Hauled cfg c g (.enterTx dev skb beyond) (.next (.getBuffer (transmit cfg beyond skb dev)))
        (g.touching (enterTouches cfg beyond skb))
  | filled {tx pkt} : Hauled cfg c g (.fill tx pkt) (.next (.enqueue tx pkt)) (g.fill pkt tx.buf)
  | received {dev caller pkt} (signalled : c.Signalled cfg dev) (head : c.links.rxQueue dev = some pkt) :
      Hauled cfg c g (.interrupt dev caller) (.next (.release pkt caller))
        (g.unpack dev (snullRxFrame (g.payload pkt)))
  | polled {dev pkt npackets quota progress} :
      Hauled cfg c g (.pollReceive dev pkt npackets quota) progress (g.unpack dev (copyOut (g.payload pkt)))
  | rested {point progress} (still : point.still = true) : Hauled cfg c g point progress g

private theorem Hauled.storage {cfg : Config} {c : Control} {g g' : Cargo} {point : Point} {progress : Progress}
    (hauled : Hauled cfg c g point progress g') : g'.fresh = g.fresh ∧ g'.kfreed = g.kfreed := by
  cases hauled <;> exact ⟨rfl, rfl⟩

private theorem enterTx_step {cfg : Config} {memory : Bool} {s : State} {dev : Dev} {skb : Skb} {beyond : List UInt8} :
    ∃ s', (Point.enterTx dev skb beyond).step cfg memory s =
        some (.next (.getBuffer (transmit cfg beyond skb dev)), s') ∧
      s'.cargo = s.cargo.touching (enterTouches cfg beyond skb) := by
  let frame := snullHwTxFrame cfg.ipFastCsum beyond (padded skb.data)
  let entered := rememberSkb dev skb (s.touching (snullTxData skb.data).touches)
  have value : frame.value = _ := hwTxFrame_value (padded_enough_bytes _)
  refine ⟨entered.touching frame.touches, ?_, Cargo.ext rfl ?_ rfl rfl rfl⟩
  · change (if (padded skb.data).size < headerLen then some (.returned 0, entered) else
      some (Progress.next (.getBuffer ⟨dev, destination frame.value.1 dev, frame.value.2⟩), _)) = _
    rw [if_neg (padded_long _), value]
    rfl
  · exact List.append_assoc ..

theorem Point.step_hauled {cfg : Config} {memory : Bool} {s s' : State} {point : Point} {progress : Progress}
    (stepped : point.step cfg memory s = some (progress, s')) :
    Hauled cfg s.control s.cargo point progress s'.cargo := by
  have kept (same : s'.cargo = s.cargo) (still : point.still = true) :
      Hauled cfg s.control s.cargo point progress s'.cargo := same ▸ .rested still
  cases point with
  | enterTx dev skb beyond =>
    obtain ⟨after, entered, cargo⟩ := @enterTx_step cfg memory s dev skb beyond
    rw [entered] at stepped
    cases stepped
    exact cargo ▸ .entered
  | fill tx pkt =>
    cases stepped
    rw [cargo_fill]
    exact .filled
  | getBuffer tx =>
    obtain ⟨⟨pkt, after⟩, taken, same⟩ := Option.map_eq_some_iff.mp stepped
    cases same
    refine kept ?_ rfl
    unfold snullGetTxBuffer at taken
    split at taken
    · cases taken
    · cases taken
      split <;> rfl
  | interrupt dev caller =>
    have cargo := interruptSection_cargo cfg memory dev s
    simp only [Point.step] at stepped
    split at stepped
    next pkt after found =>
      cases stepped
      obtain ⟨signalled, head⟩ := interruptSection_some found
      simp only [found, Option.elim_some] at cargo
      rw [cargo]
      cases memory with
      | true => exact .received signalled head
      | false => exact .rested rfl
    next after found =>
      cases stepped
      simp only [found, Option.elim_none] at cargo
      exact kept cargo rfl
  | release pkt caller => cases stepped; exact kept (cargo_return ..) rfl
  | enqueue tx pkt => cases stepped; exact kept (cargo_enqueue ..) rfl
  | testLockup | pollTest =>
    simp only [Point.step] at stepped
    split at stepped <;>
      · cases stepped
        exact kept rfl rfl
  | pollDone dev npackets quota =>
    obtain ⟨rfl, ⟨_, rfl⟩ | ⟨_, rfl⟩⟩ := Point.pollDone_cases stepped
    · exact kept rfl rfl
    · exact kept rfl rfl
  | pollDequeue dev npackets quota =>
    simp only [Point.step, snullDequeueBuf] at stepped
    split at stepped
    · cases stepped
    next removed =>
      cases stepped
      split at removed
      · cases removed
      · cases removed
        exact kept rfl rfl
  | pollReceive dev pkt npackets quota =>
    simp only [Point.step] at stepped
    split at stepped
    · cases stepped
      exact .polled
    · cases stepped
      exact kept rfl rfl
  | _ => cases stepped; exact kept rfl rfl

variable {cfg : Config} {F : Dev → Skb → List UInt8 → Prop} {l : Lists} {payload payload' : Addr → Payload}

/-- A packet for `dest` as one of the transmissions `F` filled it. -/
def Shipped (cfg : Config) (F : Dev → Skb → List UInt8 → Prop) (dest : Dev) (pkt : Payload) : Prop :=
  ∃ dev skb beyond old, F dev skb beyond ∧ dest = route skb dev ∧
    pkt = (fillPayload old (transmit cfg beyond skb dev).buf).value

/-- What a call brings with it is from one of the transmissions `F`. -/
@[simp] def Point.Laden (cfg : Config) (F : Dev → Skb → List UInt8 → Prop) (payload : Addr → Payload) : Point → Prop
  | .enterTx dev skb beyond => F dev skb beyond
  | .getBuffer tx | .fill tx _ => ∃ dev skb beyond, F dev skb beyond ∧ tx = transmit cfg beyond skb dev
  | .enqueue tx pkt => Shipped cfg F tx.dest (payload pkt)
  | .pollReceive dev pkt _ _ => Shipped cfg F dev (payload pkt)
  | _ => True

private theorem Point.Laden.frame {point : Point} (laden : point.Laden cfg F payload)
    (same : ∀ pkt ∈ point.held, payload' pkt = payload pkt) : point.Laden cfg F payload' := by
  cases point with
  | enqueue tx pkt | pollReceive dev pkt npackets quota =>
    simp only [Point.Laden] at laden ⊢
    rw [same pkt (by simp)]
    exact laden
  | _ => exact laden

private theorem resume_laden (caller : Caller) : ∀ next ∈ caller.resume.points, next.Laden cfg F payload := by
  cases caller <;> simp [Caller.resume]

theorem Advance.laden {c c' : Control} {point : Point} {progress : Progress}
    (advance : Advance cfg c point progress c') (holds : Represents c.links l) (still : point.still = true)
    (queued : ∀ dev, ∀ pkt ∈ l.rx dev, Shipped cfg F dev (payload pkt)) (laden : point.Laden cfg F payload) :
    (∀ dev, ∀ pkt ∈ (point.effect cfg c l).rx dev, Shipped cfg F dev (payload pkt)) ∧
      ∀ next ∈ progress.points, next.Laden cfg F payload := by
  have unlinked (dev : Dev) : ∀ other, ∀ pkt ∈ (l.dequeue dev).rx other, Shipped cfg F other (payload pkt) := by
    intro other pkt member
    apply queued other
    by_cases same : other = dev
    · subst same
      apply List.mem_of_mem_tail
      simpa [Lists.dequeue] using member
    · simpa [Lists.dequeue, same] using member
  cases advance with
  | tooShort | entered | filled => cases still
  | gotBuffer head => exact ⟨queued, by simpa using laden⟩
  | @enqueued tx pkt =>
    refine ⟨?_, by simp⟩
    intro other pkt' member
    by_cases same : other = tx.dest
    · subst same
      simp only [Point.effect, Lists.enqueue, Function.update_self, List.mem_cons] at member
      rcases member with rfl | member
      · exact laden
      · exact queued _ _ member
    · apply queued other pkt'
      simpa [Lists.enqueue, same] using member
  | @received dev caller pkt signalled head =>
    simp only [Point.effect, signalled, if_true]
    exact ⟨unlinked dev, by simp⟩
  | @handled dev caller nothing =>
    refine ⟨?_, resume_laden caller⟩
    simp only [Point.effect]
    split
    · exact unlinked dev
    · exact queued
  | @dequeued dev npackets quota pkt head =>
    obtain ⟨rest, front, _⟩ := holds.rx_front head
    refine ⟨unlinked dev, ?_⟩
    simpa using queued dev pkt (by simp [front])
  | released => exact ⟨queued, by simp⟩
  | wakeUnwanted | woken => exact ⟨queued, resume_laden _⟩
  | _ => exact ⟨queued, by simp⟩

/-- All packets waiting or on their way to a queue were filled by the
transmissions `F`, and only the polled mode polls. -/
structure Freight (cfg : Config) (F : Dev → Skb → List UInt8 → Prop) (bufs : List Addr) (m : Machine) (l : Lists) : Prop
    extends Conserved bufs m l where
  queued : ∀ dev, ∀ pkt ∈ l.rx dev, Shipped cfg F dev (m.state.cargo.payload pkt)
  laden : ∀ point ∈ m.calls, point.Laden cfg F m.state.cargo.payload
  polls : ∀ point ∈ m.calls, point.poller ≠ none → cfg.useNapi = true

def Action.Sends (F : Dev → Skb → List UInt8 → Prop) : Action → Prop
  | .startTx dev skb beyond => F dev skb beyond
  | _ => True

theorem Conserved.exclusive {bufs : List Addr} {m : Machine} (kept : Conserved bufs m l)
    (distinct : bufs.Nodup) {before after : List Point} {point : Point}
    (shape : m.calls = before ++ point :: after) {pkt : Addr} (held : pkt ∈ point.held) :
    pkt ∉ l.all ∧ ∀ other ∈ before ++ after, pkt ∉ other.held := by
  have once := kept.partition.nodup_iff.mpr distinct
  refine ⟨kept.held_apart distinct (by simp [shape]) pkt held, ?_⟩
  intro other member again
  have calls := (List.nodup_append.mp once).2.1
  rw [shape, List.flatMap_append, List.flatMap_cons, List.nodup_append, List.nodup_append] at calls
  obtain ⟨_, ⟨_, _, right⟩, left⟩ := calls
  rcases List.mem_append.mp member with member | member
  · exact left pkt (List.mem_flatMap.mpr ⟨other, member, again⟩) pkt (List.mem_append_left _ held) rfl
  · exact right pkt held pkt (List.mem_flatMap.mpr ⟨other, member, again⟩) rfl

private theorem Freight.start {bufs : List Addr} {m : Machine} {entry : Point} (kept : Freight cfg F bufs m l)
    (conserved : Conserved bufs (m.start entry) l) (laden : entry.Laden cfg F m.state.cargo.payload)
    (polls : entry.poller ≠ none → cfg.useNapi = true) : Freight cfg F bufs (m.start entry) l := by
  refine ⟨conserved, kept.queued, ?_, ?_⟩
  · exact all_started kept.laden laden
  · exact all_started kept.polls polls

theorem Freight.step {bufs : List Addr} {m m' : Machine} {action : Action} (distinct : bufs.Nodup)
    (kept : Freight cfg F bufs m l) (sends : action.Sends F) (stepped : m.step cfg action = some m') :
    Freight cfg F bufs m' (action.effect cfg m l) := by
  have conserved := kept.toConserved.step distinct stepped
  cases Machine.step_cases stepped with
  | opened | closed => exact ⟨conserved, kept.queued, kept.laden, kept.polls⟩
  | mtu => exact ⟨conserved, by simpa [Action.effect] using kept.queued, by simpa using kept.laden, kept.polls⟩
  | startedTx => exact kept.start conserved sends (by simp [Point.poller])
  | startedTimeout | startedInterrupt => exact kept.start conserved trivial (by simp [Point.poller, Caller.poller])
  | startedPoll napi => exact kept.start conserved trivial fun _ => napi
  | @ran index memory before point after progress state found shape taken =>
    have running : point ∈ m.calls := by simp [shape]
    have advance := Point.step_advance taken
    have here := kept.laden point running
    have polls : ∀ other ∈ before ++ progress.points ++ after, other.poller ≠ none → cfg.useNapi = true := by
      apply all_replaced kept.polls shape
      intro polls other rest
      rw [advance.poller other rest]
      exact polls
    have assemble (queued : ∀ dev, ∀ pkt ∈ (point.effect cfg m.state.control l).rx dev,
          Shipped cfg F dev (state.cargo.payload pkt))
        (moved : ∀ next ∈ progress.points, next.Laden cfg F state.cargo.payload)
        (others : ∀ other ∈ before ++ after, other.Laden cfg F state.cargo.payload) :
        Freight cfg F bufs ⟨state, before ++ progress.points ++ after⟩ ((Action.run index memory).effect cfg m l) := by
      refine ⟨conserved, by simpa only [Action.effect, found] using queued, ?_, polls⟩
      intro other member
      rcases mem_replaced.mp member with rest | elsewhere
      · exact moved other rest
      · exact others other elsewhere
    have elsewhere : ∀ other ∈ before ++ after, other.Laden cfg F m.state.cargo.payload :=
      fun other member => kept.laden other (other_mem shape member)
    have unwritten (still : point.still = true) (same : state.cargo.payload = m.state.cargo.payload) :
        Freight cfg F bufs ⟨state, before ++ progress.points ++ after⟩ ((Action.run index memory).effect cfg m l) := by
      obtain ⟨queued, moved⟩ := advance.laden kept.represents still kept.queued here
      rw [← same] at queued moved elsewhere
      exact assemble queued moved elsewhere
    have hauled := Point.step_hauled taken
    generalize same : state.cargo = cargo at hauled
    cases hauled with
    | @entered dev skb beyond =>
      refine assemble (by rw [same]; exact kept.queued) ?_ (by rw [same]; exact elsewhere)
      simpa using ⟨dev, skb, beyond, here, rfl⟩
    | @filled tx pkt =>
      have held : pkt ∈ (Point.fill tx pkt).held := by simp
      obtain ⟨unlisted, unheld⟩ := kept.toConserved.exclusive distinct shape held
      have kept' {other : Addr} (different : other ≠ pkt) :
          (m.state.cargo.fill pkt tx.buf).payload other = m.state.cargo.payload other :=
        Function.update_of_ne different _ _
      refine assemble ?_ ?_ ?_
      · intro dev other member
        have different : other ≠ pkt := by
          rintro rfl
          exact unlisted (Lists.mem_all.mpr ⟨dev, .inr member⟩)
        rw [same, kept' different]
        exact kept.queued dev other member
      · obtain ⟨dev, skb, beyond, sent, rfl⟩ := here
        have filled : (m.state.cargo.fill pkt (transmit cfg beyond skb dev).buf).payload pkt = _ :=
          Function.update_self ..
        simpa [same, filled] using ⟨dev, skb, beyond, _, sent, rfl, rfl⟩
      · intro other member
        refine (elsewhere other member).frame fun held inside => ?_
        rw [same, kept']
        rintro rfl
        exact unheld other member inside
    | received | polled => exact unwritten rfl (by rw [same]; rfl)
    | rested still => exact unwritten still (by rw [same])

theorem Machine.step_storage {m m' : Machine} {action : Action} (stepped : m.step cfg action = some m') :
    m'.state.fresh = m.state.fresh ∧ m'.state.kfreed = m.state.kfreed := by
  cases Machine.step_cases stepped with
  | opened | closed | startedTx | startedTimeout | startedInterrupt | startedPoll => exact ⟨rfl, rfl⟩
  | @mtu dev mtu =>
    have same := cargo_changeMtu m.state dev mtu
    exact ⟨congrArg Cargo.fresh same, congrArg Cargo.kfreed same⟩
  | ran found shape taken => exact (Point.step_hauled taken).storage

theorem Freight.initial {kmalloc : Dev → Nat → Bool} {contents : Addr → Packet} :
    ∃ l, Freight cfg F (List.range (setUp cfg kmalloc contents).fresh) ⟨setUp cfg kmalloc contents, []⟩ l := by
  obtain ⟨l, stocked⟩ := @setUp_stocked cfg kmalloc contents
  exact ⟨l, ⟨stocked.represents, by simpa using stocked.complete⟩, by simp [stocked.quiet], by simp, by simp⟩

def receivedFrame (cfg : Config) (beyond : List UInt8) (skb : Skb) : List UInt8 :=
  if cfg.useNapi then sent (padded skb.data) cfg.ipFastCsum beyond
  else delivered (sent (padded skb.data) cfg.ipFastCsum beyond)

private def Received (cfg : Config) (F : Dev → Skb → List UInt8 → Prop) (g : Cargo) : Prop :=
  ∀ dest frame, (dest, frame) ∈ g.passedUp →
    ∃ dev skb beyond, F dev skb beyond ∧ dest = route skb dev ∧ frame = receivedFrame cfg beyond skb

private theorem Received.unpack {g : Cargo} {dev : Dev} {pkt : Payload} {skb : Traced Buffer (Block Buffer)}
    (received : Received cfg F g) (shipped : Shipped cfg F dev pkt)
    (frame : ∀ sender skb' beyond old, pkt = (fillPayload old (transmit cfg beyond skb' sender).buf).value →
      skb.value.bytes = receivedFrame cfg beyond skb') : Received cfg F (g.unpack dev skb) := by
  intro dest bytes member
  rcases List.mem_append.mp member with member | member
  · exact received dest bytes member
  · cases List.mem_singleton.mp member
    obtain ⟨sender, skb', beyond, old, sent, target, filled⟩ := shipped
    exact ⟨sender, skb', beyond, sent, target, frame sender skb' beyond old filled⟩

theorem transmit_full (beyond : List UInt8) (skb : Skb) (dev : Dev) : (transmit cfg beyond skb dev).buf.Full :=
  (sent_length (padded_enough_bytes _)).trans (padded_full skb.data)

private theorem Received.step {bufs : List Addr} {m m' : Machine} {action : Action} (kept : Freight cfg F bufs m l)
    (received : Received cfg F m.state.cargo) (stepped : m.step cfg action = some m') :
    Received cfg F m'.state.cargo := by
  cases Machine.step_cases stepped with
  | opened | closed | startedTx | startedTimeout | startedInterrupt | startedPoll => exact received
  | mtu => simpa using received
  | @ran index memory before point after progress state found shape taken =>
    have running : point ∈ m.calls := by simp [shape]
    have hauled := Point.step_hauled taken
    generalize state.cargo = cargo at hauled ⊢
    cases hauled with
    | entered | filled | rested => exact received
    | @received dev caller pkt signalled head =>
      obtain ⟨rest, front, _⟩ := kept.represents.rx_front head
      apply received.unpack (kept.queued dev pkt (by simp [front]))
      intro sender skb beyond old filled
      have regular : ¬ cfg.useNapi = true := by simp [signalled.1]
      rw [receivedFrame, if_neg regular, filled]
      exact (rxFrame_fill old (transmit_full beyond skb sender)).2
    | @polled dev pkt npackets quota =>
      apply received.unpack (kept.laden _ running)
      intro sender skb beyond old filled
      have napi : cfg.useNapi = true := kept.polls _ running (by simp [Point.poller])
      rw [receivedFrame, if_pos napi, filled]
      exact congrArg Block.bytes (copyOut_fill old (transmit_full beyond skb sender))

/-- In either mode and over any interleaving of any calls, only frames that
were transmitted are passed up, each on the device it was sent to. -/
theorem passed_up_transmitted (cfg : Config) (kmalloc : Dev → Nat → Bool) (contents : Addr → Packet)
    (actions : List Action) (m : Machine)
    (run : Run (Machine.step cfg) (fun _ _ => True) ⟨setUp cfg kmalloc contents, []⟩ actions m)
    (dest : Dev) (frame : List UInt8) (passed : (dest, frame) ∈ m.state.passedUp) :
    ∃ dev skb beyond, .startTx dev skb beyond ∈ actions ∧ dest = route skb dev ∧
      frame = receivedFrame cfg beyond skb := by
  let F (dev : Dev) (skb : Skb) (beyond : List UInt8) : Prop := .startTx dev skb beyond ∈ actions
  have sends : ∀ action ∈ actions, action.Sends F := by
    intro action member
    cases action with
    | startTx => exact member
    | _ => trivial
  have distinct := List.nodup_range (n := (setUp cfg kmalloc contents).fresh)
  refine ((run.restrict sends).invariant
    (fun m => (∃ l, Freight cfg F (List.range (setUp cfg kmalloc contents).fresh) m l) ∧
      Received cfg F m.state.cargo) ⟨Freight.initial, ?_⟩ ?_).2 dest frame passed
  · intro dest frame member
    simp [State.cargo, setUp_logs] at member
  · intro m action m' ⟨⟨l, kept⟩, received⟩ permitted stepped
    exact ⟨⟨_, kept.step distinct permitted.2 stepped⟩, received.step kept stepped⟩

end DeviceDrivers.Snull
