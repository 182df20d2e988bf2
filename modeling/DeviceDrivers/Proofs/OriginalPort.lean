import DeviceDrivers.Library.Refinements
import DeviceDrivers.Proofs.OriginalDelivery
import DeviceDrivers.Proofs.SnullAlike
import DeviceDrivers.Proofs.SnullIdentifier

/-! With the regular handler the port does what the original does, where nobody pings. Its
frames are for the same device, with other octets in the addresses. In polling mode it does
not: the port asks for no polls. -/

namespace DeviceDrivers.Snull.Original
open Runs Touches Refinements
open Interleavings (System)

inductive Entry where
  | open (dev : Dev)
  | release (dev : Dev)
  | changeMtu (dev : Dev) (mtu : Int)
  | tx (dev : Dev) (skb : Skb) (beyond : List UInt8)
  | timeout (dev : Dev)
  | interrupt (dev : Dev)
  | poll (dev : Dev)

def Action.entries : Action → List Entry
  | .open dev => [.open dev]
  | .release dev => [.release dev]
  | .changeMtu dev mtu => [.changeMtu dev mtu]
  | .startTx dev skb beyond => [.tx dev skb beyond]
  | .startTimeout dev => [.timeout dev]
  | .startInterrupt dev => [.interrupt dev]
  | .startPoll dev _ => [.poll dev]
  | .refill _ _ | .run _ _ => []

def portEntries : Snull.Action → List Entry
  | .open dev => [.open dev]
  | .release dev => [.release dev]
  | .changeMtu dev mtu => [.changeMtu dev mtu]
  | .startTx dev skb beyond => [.tx dev skb beyond]
  | .startTimeout dev => [.timeout dev]
  | .startInterrupt dev => [.interrupt dev]
  | .startPoll dev _ => [.poll dev]
  | .run _ _ => []

def Silent (skb : Skb) : Prop := isPing (frameProt (zeroPadded skb.data)) = false

def Action.Silent : Action → Prop
  | .startTx _ skb _ => Original.Silent skb
  | _ => True

variable {cfg : Config} {memory : Bool} {s s' : State} {t : Snull.State} {dev : Dev} {pkt : Addr} {skb : Skb}
  {beyond : List UInt8}

private theorem launched_alike (silent : Silent skb) :
    (launchFrame cfg dev skb beyond).Alike (transmit cfg beyond skb dev) := by
  have long := enough skb.data
  have untouched : sent (padded skb.data) cfg.ipFastCsum beyond = rebuilt cfg.ipFastCsum beyond (zeroPadded skb.data) := by
    rw [sent, padded_zeroPadded, if_neg (by rw [silent]; decide)]
  refine ⟨rfl, ?_, rfl, launch_full dev skb beyond, transmit_full beyond skb dev, ?_, ?_⟩
  · simp only [transmit, launchFrame, route, destination, padded_zeroPadded]
    exact if_neg (by rw [silent]; decide)
  · simp only [transmit, launchFrame, untouched]
    rw [translated_length long, rebuilt_length long]
  · intro i outside saddr daddr
    simp only [transmit, launchFrame, untouched]
    rw [translated_bytes long outside, if_neg (by omega), rebuilt_bytes long outside]

/-- The bytes that tell a ping are neither rewritten nor the port's to convert. -/
private theorem silent_sent (silent : Silent skb) :
    isPing (frameProt (sent (padded skb.data) cfg.ipFastCsum beyond)) = false := by
  have long := padded_enough_bytes skb.data
  have byte {i : Nat} (behind : 34 ≤ i) (other : i ≠ 38) :
      (sent (padded skb.data) cfg.ipFastCsum beyond).getD i 0 = (zeroPadded skb.data).getD i 0 := by
    rw [List.getD_eq_getElem?_getD, sent_behind long behind, if_neg (by simp [other]), padded_zeroPadded,
      List.getD_eq_getElem?_getD]
  rw [frameProt, byte (by decide) (by decide), byte (by decide) (by decide)]
  exact silent

private theorem delivered_silent {bytes : List UInt8} (silent : isPing (frameProt bytes) = false) :
    delivered bytes = bytes := by
  rw [delivered, if_neg]
  rintro ⟨request, code⟩
  rw [(isPing_frameProt bytes).mpr ⟨.inl request, code⟩] at silent
  cases silent

/-- A handler of the port receives what the original's does, if that is no ping. -/
private theorem interruptSection_alike (regular : cfg.useNapi = false) (alike : Alike s.driver t)
    (silent : ∀ pkt, (t.priv dev).rxQueue = some pkt → isPing (frameProt (contents (t.payloads pkt))) = false) :
    (interruptSection cfg memory dev s).1 = (Snull.interruptSection cfg memory dev t).1 ∧
      Alike (interruptSection cfg memory dev s).2.driver (Snull.interruptSection cfg memory dev t).2 := by
  have received (pkt : Addr) (head : (t.priv dev).rxQueue = some pkt) :
      Alike (snullRx memory dev pkt (unlinkRx dev pkt (setStatus dev 0#32 s.driver)))
        (Snull.snullRx memory dev pkt (unlinkRx dev pkt (setStatus dev 0#32 t))) := by
    have calm := (alike.setStatus dev 0#32).unlinkRx dev pkt
    cases memory with
    | false => exact calm.countRxDropped dev
    | true =>
      have plain : (snullRxFrame (t.payloads pkt)).value.bytes = contents (t.payloads pkt) :=
        (convertEcho_value _).trans (delivered_silent (silent pkt head))
      have similar : Similar (contents (s.driver.payloads pkt)) (snullRxFrame (t.payloads pkt)).value.bytes :=
        plain ▸ alike.contents pkt
      have datalen : (s.driver.payloads pkt).datalen = (t.payloads pkt).datalen := alike.datalen pkt
      have taken := (calm.touching (copyOut (s.driver.payloads pkt)).touches (snullRxFrame (t.payloads pkt)).touches).received
        dev (s.driver.payloads pkt).datalen similar
      nth_rewrite 2 [datalen] at taken
      exact taken
  obtain ⟨same, after⟩ := alike.section_with dev received
  rw [interruptSection, Snull.interruptSection, regular]
  exact ⟨same, after⟩

/-- One step of either driver, but for the polls and the start of a transmission. -/
private theorem Point.step_follows {point : Point} {progress : Interleavings.Progress Point} {new : Transmit}
    (regular : cfg.useNapi = false) (alike : Alike s.driver t)
    (frames : ∀ old, point.port.frame = some old → old.Alike new)
    (silent : ∀ dev pkt, (t.priv dev).rxQueue = some pkt → isPing (frameProt (contents (t.payloads pkt))) = false)
    (unpolled : point.port.poller = none) (entered : ∀ dev skb beyond, point ≠ .common (.enterTx dev skb beyond))
    (stepped : point.step cfg memory s = some (progress, s')) :
    ∃ t', (point.port.swap new).step cfg memory t = some ((toPort progress).swap new, t') ∧ Alike s'.driver t' := by
  cases point with
  | pollComplete dev => cases unpolled
  | common point =>
    have shared (common : point.common = true)
        (same : (Point.common point).step cfg memory s =
          (point.step cfg memory s.driver).map fun taken => (lift taken.1, { s with driver := taken.2 })) :
        ∃ t', (point.swap new).step cfg memory t = some ((toPort progress).swap new, t') ∧ Alike s'.driver t' := by
      rw [same] at stepped
      obtain ⟨⟨rest, driver⟩, taken, here⟩ := Option.map_eq_some_iff.mp stepped
      cases here
      rw [toPort_lift]
      exact Snull.Point.step_alike alike frames common unpolled taken
    cases point with
    | enterTx dev skb beyond => exact absurd rfl (entered dev skb beyond)
    | interrupt dev caller =>
      obtain ⟨same, after⟩ := @interruptSection_alike cfg memory s t dev regular alike (silent dev)
      rw [interrupt_step] at stepped
      cases stepped
      refine ⟨_, ?_, after⟩
      simp only [port, Snull.Point.swap, Snull.interrupt_step, swap_handlerExit, toPort_lift, same]
    | pollDone dev npackets quota => cases unpolled
    | _ => exact shared rfl rfl

private theorem enterTx_follows {progress : Interleavings.Progress Point} (alike : Alike s.driver t)
    (stepped : (Point.common (.enterTx dev skb beyond)).step cfg memory s = some (progress, s')) :
    ∃ t', (Snull.Point.enterTx dev skb beyond).step cfg memory t =
      some (.next (.getBuffer (transmit cfg beyond skb dev)), t') ∧ Alike s'.driver t' := by
  have long : ¬ (snullTxData skb.data).value.size < headerLen := padded_long skb.data
  have remembered := (alike.touching (snullTxData skb.data).touches (snullTxData skb.data).touches).rememberSkb dev skb
  simp only [Point.step, if_neg long, Option.some.injEq, Prod.mk.injEq] at stepped
  obtain ⟨-, rfl⟩ := stepped
  have entered : ∃ rest t', (Snull.Point.enterTx dev skb beyond).step cfg memory t = some (rest, t') ∧
      t' = (rememberSkb dev skb (t.touching (snullTxData skb.data).touches)).touching
        (Snull.snullHwTxFrame cfg.ipFastCsum beyond (snullTxData skb.data).value).touches := by
    simp only [Snull.Point.step, if_neg long]
    exact ⟨_, _, rfl, rfl⟩
  obtain ⟨rest, t', taken, same⟩ := entered
  have going : rest = .next (.getBuffer (transmit cfg beyond skb dev)) := by
    have hauled := Snull.Point.step_hauled taken
    generalize t'.cargo = cargo at hauled
    cases hauled with
    | entered => rfl
    | rested still => cases still
  subst going same
  exact ⟨_, taken, remembered.touching _ _⟩

/-- The port is where the original is, nobody polls, and no ping is on its way. -/
structure Follows (cfg : Config) (bufs : List Addr) (m : Machine) (n : Snull.Machine) : Prop where
  alike : Alike m.shared.driver n.state
  calls : List.Forall₂ Snull.Point.Matches m.port.calls n.calls
  unscheduled : ∀ dev, m.shared.scheduled dev = false
  unpolled : ∀ point ∈ m.port.calls, point.poller = none
  freight : ∃ l, Freight cfg (fun _ skb _ => Silent skb) bufs n l

private theorem matches_refl {point : Snull.Point} (frameless : point.frame = none) : point.Matches point := by
  refine ⟨⟨.sn0, .sn0, ⟨.skbData, 0, []⟩⟩, fun _ found => absurd (frameless.symm.trans found) (by simp), ?_⟩
  cases point with
  | interrupt dev caller | release pkt caller | testWake pkt caller | wake dev caller =>
    cases caller with
    | rxInterrupt | txInterrupt => cases frameless
    | _ => rfl
  | enterTx | enterTimeout | countError | wakeTimeout | pollTest | pollDequeue | pollReceive | pollDone | pollEnable => rfl
  | _ => cases frameless

theorem Advance.unscheduled {c c' : Control} {on on' : Dev → Bool} {point : Point}
    {progress : Interleavings.Progress Point} (advance : Advance cfg c on point progress c' on')
    (regular : cfg.useNapi = false) (unscheduled : ∀ dev, on dev = false) : ∀ dev, on' dev = false := by
  cases advance with
  | common | drained | left => exact unscheduled
  | interrupted =>
    rw [if_neg (by simp [regular])]
    exact unscheduled
  | completed =>
    intro other
    rw [Function.update_apply]
    split
    · rfl
    · exact unscheduled other

private theorem freight_silent {bufs : List Addr} {n : Snull.Machine} {l : Lists}
    (freight : Freight cfg (fun _ skb _ => Silent skb) bufs n l) (head : (n.state.priv dev).rxQueue = some pkt) :
    isPing (frameProt (contents (n.state.payloads pkt))) = false := by
  obtain ⟨rest, front, _⟩ := freight.represents.rx_front head
  obtain ⟨sender, skb, beyond, old, silent, _, filled⟩ := freight.queued dev pkt (by simp [front])
  have payload : n.state.payloads pkt = (fillPayload old (transmit cfg beyond skb sender).buf).value := filled
  have bytes : contents (n.state.payloads pkt) = sent (padded skb.data) cfg.ipFastCsum beyond := by
    rw [payload]
    exact (contents_fill (transmit_full beyond skb sender)).1
  rw [bytes]
  exact silent_sent silent

/-- A step of the original and the port's step at the same place go on at the same place. -/
private theorem Point.step_matched {point : Point} {progress : Interleavings.Progress Point} {new : Transmit}
    (regular : cfg.useNapi = false) (alike : Alike s.driver t)
    (frames : ∀ old, point.port.frame = some old → old.Alike new)
    (launched : ∀ dev skb beyond, point = .common (.enterTx dev skb beyond) → Silent skb)
    (waiting : ∀ dev pkt, (t.priv dev).rxQueue = some pkt → isPing (frameProt (contents (t.payloads pkt))) = false)
    (unpolled : point.port.poller = none) (stepped : point.step cfg memory s = some (progress, s')) :
    ∃ progress' t', (point.port.swap new).step cfg memory t = some (progress', t') ∧ Alike s'.driver t' ∧
      List.Forall₂ Snull.Point.Matches (toPort progress).points progress'.points := by
  by_cases entering : ∃ dev skb beyond, point = .common (.enterTx dev skb beyond)
  · obtain ⟨dev, skb, beyond, rfl⟩ := entering
    obtain ⟨rfl, -, -⟩ := enterTx_driver stepped
    obtain ⟨t', taken, after⟩ := enterTx_follows alike stepped
    refine ⟨_, t', taken, after, .cons ⟨_, ?_, rfl⟩ .nil⟩
    rintro _ ⟨⟩
    exact launched_alike (launched dev skb beyond rfl)
  · have entered (dev : Dev) (skb : Skb) (beyond : List UInt8) : point ≠ .common (.enterTx dev skb beyond) :=
      fun same => entering ⟨dev, skb, beyond, same⟩
    have own (dev : Dev) : point ≠ .pollComplete dev := by
      rintro rfl
      cases unpolled
    obtain ⟨t', taken, after⟩ := step_follows regular alike frames waiting unpolled entered stepped
    have kept := ((Point.step_advance stepped).port own).frame fun dev skb beyond same => by
      cases point with
      | common point => exact entered dev skb beyond (congrArg Point.common same)
      | pollComplete dev => cases same
    refine ⟨_, t', taken, after, ?_⟩
    cases progress with
    | returned value => exact .nil
    | next next => exact .cons ⟨new, fun old found => frames old (kept _ (by simp [toPort]) old found), rfl⟩ .nil

section Matched
variable {first second : List Snull.Point} (matched : List.Forall₂ Snull.Point.Matches first second)
include matched

private theorem matched_senders : first.map Snull.Point.sender = second.map Snull.Point.sender := by
  rw [← List.forall₂_eq_eq_eq, List.forall₂_map_left_iff, List.forall₂_map_right_iff]
  apply matched.imp
  rintro point _ ⟨new, frames, rfl⟩
  exact (swap_sender frames).symm

private theorem matched_started {point : Snull.Point} (frameless : point.frame = none) :
    List.Forall₂ Snull.Point.Matches (first ++ [point]) (second ++ [point]) :=
  List.rel_append matched (.cons (matches_refl frameless) .nil)

private theorem matched_split {before after : List Snull.Point} {point : Snull.Point}
    (shape : first = before ++ point :: after) :
    ∃ before' after' new, second = before' ++ point.swap new :: after' ∧
      (∀ old, point.frame = some old → old.Alike new) ∧ List.Forall₂ Snull.Point.Matches before before' ∧
      List.Forall₂ Snull.Point.Matches after after' := by
  subst shape
  induction before generalizing second with
  | nil =>
    cases matched with
    | cons here rest =>
      obtain ⟨new, frames, rfl⟩ := here
      exact ⟨[], _, new, rfl, frames, .nil, rest⟩
  | cons head tail ih =>
    cases matched with
    | cons here rest =>
      obtain ⟨before', after', new, rfl, frames, left, right⟩ := ih rest
      exact ⟨_ :: before', after', new, rfl, frames, .cons here left, right⟩

end Matched

variable {bufs : List Addr} {m m' : Machine} {n : Snull.Machine} {action : Action}

theorem Follows.start (follows : Follows cfg bufs m n) {entry : Snull.Point} (frameless : entry.frame = none)
    (unpolled : entry.poller = none) {state : State} (driver : state.driver = m.shared.driver)
    (scheduled : state.scheduled = m.shared.scheduled)
    (freight : ∃ l, Freight cfg (fun _ skb _ => Silent skb) bufs (n.start entry) l) :
    Follows cfg bufs ⟨state, m.calls ++ [.common entry]⟩ (n.start entry) := by
  refine ⟨driver ▸ follows.alike, ?_, scheduled ▸ follows.unscheduled, ?_, freight⟩
  · rw [port_started]
    exact matched_started follows.calls frameless
  · rw [port_started]
    exact Interleavings.all_started follows.unpolled unpolled

theorem Follows.answers (distinct : bufs.Nodup) (regular : cfg.useNapi = false) (follows : Follows cfg bufs m n)
    (silent : action.Silent) (stepped : m.step cfg action = some m') :
    ∃ answer n', Run (Snull.Machine.step cfg) (fun _ action => action.Sends fun _ skb _ => Silent skb) n answer n' ∧
      answer.flatMap portEntries = action.entries ∧ Follows cfg bufs m' n' := by
  obtain ⟨l, freight⟩ := follows.freight
  have reply {answer : Snull.Action} {n' : Snull.Machine} (sends : answer.Sends fun _ skb _ => Silent skb)
      (taken : n.step cfg answer = some n') (same : portEntries answer = action.entries)
      (again : (∃ l, Freight cfg (fun _ skb _ => Silent skb) bufs n' l) → Follows cfg bufs m' n') :
      ∃ answer n', Run (Snull.Machine.step cfg) (fun _ action => action.Sends fun _ skb _ => Silent skb) n answer n' ∧
        answer.flatMap portEntries = action.entries ∧ Follows cfg bufs m' n' :=
    ⟨[answer], n', answered answer sends taken, by simp [same], again ⟨_, freight.step distinct sends taken⟩⟩
  cases Machine.step_cases stepped with
  | @opened dev =>
    exact @reply (.open dev) _ trivial rfl rfl fun laden =>
      ⟨follows.alike.open dev, follows.calls, follows.unscheduled, follows.unpolled, laden⟩
  | @closed dev =>
    exact @reply (.release dev) _ trivial rfl rfl fun laden =>
      ⟨follows.alike.release dev, follows.calls, follows.unscheduled, follows.unpolled, laden⟩
  | @mtu dev mtu =>
    exact @reply (.changeMtu dev mtu) _ trivial rfl rfl fun laden =>
      ⟨follows.alike.changeMtu dev mtu, follows.calls, follows.unscheduled, follows.unpolled, laden⟩
  | @startedTx dev skb beyond idle =>
    apply @reply (.startTx dev skb beyond) _ silent (if_neg ?_) rfl (follows.start rfl rfl rfl rfl)
    rintro ⟨point, member, busy⟩
    have sender : some dev ∈ m.port.calls.map Snull.Point.sender :=
      matched_senders follows.calls ▸ List.mem_map.mpr ⟨point, member, busy⟩
    simp only [Machine.port, List.map_map, List.mem_map] at sender
    obtain ⟨other, running, same⟩ := sender
    apply idle other running
    cases other with
    | common => exact same
    | pollComplete => cases same
  | @startedTimeout dev => exact @reply (.startTimeout dev) _ trivial rfl rfl (follows.start rfl rfl rfl rfl)
  | @startedInterrupt dev => exact @reply (.startInterrupt dev) _ trivial rfl rfl (follows.start rfl rfl rfl rfl)
  | refilled =>
    exact ⟨[], n, .nil, rfl, follows.alike, follows.calls, follows.unscheduled, follows.unpolled, l, freight⟩
  | @startedPoll dev budget scheduled =>
    rw [follows.unscheduled dev] at scheduled
    cases scheduled
  | @ran index memory before point after progress shared found shape others taken =>
    have still : point.port.poller = none := follows.unpolled _ (by simp [port_shape shape])
    have apart (dev : Dev) : point ≠ .pollComplete dev := by
      rintro rfl
      cases still
    have advance := Point.step_advance taken
    have unpolled : ∀ next ∈ (toPort progress).points, next.poller = none := by
      intro next member
      rw [(advance.port apart).poller next member, still]
    obtain ⟨left, right, new, calls, frames, first, last⟩ := matched_split follows.calls (port_shape shape)
    have launched (dev : Dev) (skb : Skb) (beyond : List UInt8) (same : point = .common (.enterTx dev skb beyond)) :
        Silent skb := by
      subst same
      exact freight.laden (.enterTx dev skb beyond) (by simp [calls, Point.port])
    obtain ⟨progress', t', moved, alike, rest⟩ := Point.step_matched regular follows.alike frames launched
      (fun dev pkt => freight_silent freight) still taken
    have answer : n.step cfg (.run left.length memory) = some ⟨t', left ++ progress'.points ++ right⟩ := by
      simp [Snull.Machine.step, calls, moved, -Snull.Point.swap]
    refine @reply (.run left.length memory) _ trivial answer rfl fun laden =>
      ⟨alike, ?_, advance.unscheduled regular follows.unscheduled, ?_, laden⟩
    · rw [port_replaced]
      exact List.rel_append (List.rel_append first rest) last
    · rw [port_replaced]
      exact Interleavings.all_replaced follows.unpolled (port_shape shape) fun _ => unpolled

/-- With the regular handler, called alike and with no pings to send, the port can go wherever the
original does: to the same pointers, flags and counters, with the same buffers freed and the same
frames passed up, but for the header checksums and the third octets of the addresses. -/
theorem port_follows (cfg : Config) (kmalloc : Dev → Nat → Bool) (memory : Addr → Packet) (actions : List Action)
    (m : Machine) (regular : cfg.useNapi = false)
    (run : Run (Machine.step cfg) (fun _ _ => True) ⟨loaded cfg kmalloc memory, []⟩ actions m)
    (silent : ∀ dev skb beyond, .startTx dev skb beyond ∈ actions → isPing (frameProt (zeroPadded skb.data)) = false) :
    ∃ calls n, Run (Snull.Machine.step cfg) (fun _ _ => True) ⟨setUp cfg kmalloc memory, []⟩ calls n ∧
      calls.flatMap portEntries = actions.flatMap Action.entries ∧ Alike m.shared.driver n.state ∧
      List.Forall₂ Snull.Point.Matches m.port.calls n.calls := by
  have distinct := List.nodup_range (n := (setUp cfg kmalloc memory).fresh)
  have quiet : ∀ action ∈ actions, action.Silent := by
    intro action member
    cases action with
    | startTx dev skb beyond => exact silent dev skb beyond member
    | _ => trivial
  have simulates : Simulates (Machine.step cfg) (fun _ action => True ∧ action.Silent) Action.entries (Snull.Machine.step cfg)
      (fun _ action => action.Sends fun _ skb _ => Silent skb) portEntries
      (Follows cfg (List.range (setUp cfg kmalloc memory).fresh)) :=
    fun _ _ _ _ follows met stepped => follows.answers distinct regular met.2 stepped
  have initial : Follows cfg (List.range (setUp cfg kmalloc memory).fresh) ⟨loaded cfg kmalloc memory, []⟩
      ⟨setUp cfg kmalloc memory, []⟩ := ⟨.refl _, .nil, fun _ => rfl, nofun, Freight.initial⟩
  obtain ⟨calls, n, answers, same, follows⟩ := simulates.run initial (run.restrict quiet)
  exact ⟨calls, n, answers.mono fun _ _ _ => trivial, same, follows.alike, follows.calls⟩

/-- The frame that reaches the original's sn1 reaches the port's as well. -/
theorem port_follows_sent : ∃ (actions : List Action) (m : Machine), m.shared.driver.passedUp.length = 1 ∧
    ∃ calls n, Run (Snull.Machine.step (sample 2 0)) (fun _ _ => True)
        ⟨setUp (sample 2 0) (fun _ _ => true) sampleMemory, []⟩ calls n ∧
      calls.flatMap portEntries = actions.flatMap Action.entries ∧ Alike m.shared.driver n.state ∧
      List.Forall₂ Snull.Point.Matches m.port.calls n.calls := by
  have reached : ∃ m : Machine, Run (Machine.step (sample 2 0)) (fun _ _ => True)
      ⟨loaded (sample 2 0) (fun _ _ => true) sampleMemory, []⟩
      (.open .sn0 :: .open .sn1 :: .startTx .sn0 ⟨0, samplePlain⟩ [] :: List.replicate 11 (.run 0 true)) m ∧
      m.shared.driver.passedUp.length = 1 :=
    reaches_of_execute (by decide +kernel)
  obtain ⟨m, run, passed⟩ := reached
  refine ⟨_, m, passed, port_follows _ _ _ _ m rfl run ?_⟩
  intro dev skb beyond member
  simp at member
  obtain ⟨-, rfl, -⟩ := member
  decide

end DeviceDrivers.Snull.Original
