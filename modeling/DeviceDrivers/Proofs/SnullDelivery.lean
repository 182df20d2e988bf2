import DeviceDrivers.Proofs.SnullFreight
import DeviceDrivers.Proofs.SnullLedger

/-! Where the frames are. Each frame that the kernel has handed to a device is, under any
interleaving, in just one place: with the call that transmits it, in a receive queue, in
the hands of a poll, passed up, or dropped and counted. What a driver does to the bytes
is a parameter, and so is what its receive path does. -/

namespace DeviceDrivers.Snull
open Runs Touches
open Interleavings (mem_replaced other_mem all_started all_replaced)

abbrev Item := Dev × List UInt8

@[ext] structure Receipts where
  passedUp : List Item
  packets : Dev → UInt64
  bytes : Dev → UInt64
  dropped : Dev → UInt64

namespace Receipts
variable (r : Receipts) (dev : Dev)

def take (datalen : Nat) (frame : List UInt8) : Receipts :=
  { r with
    passedUp := r.passedUp ++ [(dev, frame)]
    packets := Function.update r.packets dev (r.packets dev + 1)
    bytes := Function.update r.bytes dev (r.bytes dev + .ofNat datalen) }

def lose : Receipts := { r with dropped := Function.update r.dropped dev (r.dropped dev + 1) }

/-- What has been noted when these frames were received and those were dropped. -/
def noted (convert : List UInt8 → List UInt8) (passed dropped : List Item) : Receipts where
  passedUp := passed.map fun item => (item.1, convert item.2)
  packets dev := .ofNat (passed.countP (·.1 = dev))
  bytes dev := .ofNat ((passed.filter (·.1 = dev)).map (·.2.length)).sum
  dropped dev := .ofNat (dropped.countP (·.1 = dev))

private theorem noted_take (convert : List UInt8 → List UInt8) (passed dropped : List Item) (frame : List UInt8) :
    (noted convert passed dropped).take dev frame.length (convert frame) =
      noted convert (passed ++ [(dev, frame)]) dropped := by
  ext1
  · simp [noted, take]
  · funext other
    by_cases same : other = dev
    · subst same
      simp [noted, take, UInt64.ofNat_add]
    · simp [noted, take, same, Ne.symm same]
  · funext other
    by_cases same : other = dev
    · subst same
      simp [noted, take, UInt64.ofNat_add]
    · simp [noted, take, same, Ne.symm same]
  · rfl

private theorem noted_lose (convert : List UInt8 → List UInt8) (passed dropped : List Item) (frame : List UInt8) :
    (noted convert passed dropped).lose dev = noted convert passed (dropped ++ [(dev, frame)]) := by
  ext1
  · rfl
  · rfl
  · rfl
  · funext other
    by_cases same : other = dev
    · subst same
      simp [noted, lose, UInt64.ofNat_add]
    · simp [noted, lose, same, Ne.symm same]

end Receipts

def State.receipts (s : State) : Receipts where
  passedUp := s.passedUp
  packets dev := (s.priv dev).stats.rxPackets
  bytes dev := (s.priv dev).stats.rxBytes
  dropped dev := (s.priv dev).stats.rxDropped

def State.payloads (s : State) (pkt : Addr) : Payload := (s.heap pkt).payload

def contents (pkt : Payload) : List UInt8 := (copyOut pkt).value.bytes

@[simp] def Point.calm : Point → Bool
  | .enterTx _ _ _ | .fill _ _ | .interrupt _ _ | .pollReceive _ _ _ _ => false
  | _ => true

/-- One step of a call as far as frames and receipts show it. -/
inductive Handed (cfg : Config) (convert : List UInt8 → List UInt8) (launch : Dev → Skb → List UInt8 → Transmit)
    (c : Control) (payload : Addr → Payload) (r : Receipts) : Point → Progress → (Addr → Payload) → Receipts → Prop where
  | entered {dev skb beyond} : Handed cfg convert launch c payload r (.enterTx dev skb beyond)
      (.next (.getBuffer (launch dev skb beyond))) payload r
  | filled {tx pkt} : Handed cfg convert launch c payload r (.fill tx pkt) (.next (.enqueue tx pkt))
      (Function.update payload pkt (fillPayload (payload pkt) tx.buf).value) r
  | received {dev caller pkt} (signalled : c.Signalled cfg dev) (head : c.links.rxQueue dev = some pkt) :
      Handed cfg convert launch c payload r (.interrupt dev caller) (.next (.release pkt caller)) payload
        (r.take dev (payload pkt).datalen (convert (contents (payload pkt))))
  | lost {dev caller pkt} (signalled : c.Signalled cfg dev) (head : c.links.rxQueue dev = some pkt) :
      Handed cfg convert launch c payload r (.interrupt dev caller) (.next (.release pkt caller)) payload (r.lose dev)
  | handled {dev caller} (nothing : c.Signalled cfg dev → c.links.rxQueue dev = none) :
      Handed cfg convert launch c payload r (.interrupt dev caller) caller.resume payload r
  | polled {dev pkt npackets quota count} :
      Handed cfg convert launch c payload r (.pollReceive dev pkt npackets quota)
        (.next (.release pkt (.poll dev count quota))) payload
        (r.take dev (payload pkt).datalen (convert (contents (payload pkt))))
  | pollLost {dev pkt npackets quota count} :
      Handed cfg convert launch c payload r (.pollReceive dev pkt npackets quota)
        (.next (.release pkt (.poll dev count quota))) payload (r.lose dev)
  | rested {point progress} (calm : point.calm = true) : Handed cfg convert launch c payload r point progress payload r

section Places
variable (launch : Dev → Skb → List UInt8 → Transmit) (payload : Addr → Payload) (l : Lists)

def boxed (pkt : Addr) (dev : Dev) : Item := (dev, contents (payload pkt))

@[simp] def Point.carrying : Point → List Item
  | .enterTx dev skb beyond => [((launch dev skb beyond).dest, (launch dev skb beyond).buf.bytes)]
  | .getBuffer tx | .fill tx _ => [(tx.dest, tx.buf.bytes)]
  | .enqueue tx pkt => [boxed payload pkt tx.dest]
  | .pollReceive dev pkt _ _ => [boxed payload pkt dev]
  | _ => []

def waiting : List Item :=
  (l.rx .sn0).map (boxed payload · .sn0) ++ (l.rx .sn1).map (boxed payload · .sn1)

end Places

def Sound (pkt : Payload) : Prop := (contents pkt).length = pkt.datalen

@[simp] def Point.Whole (payload : Addr → Payload) : Point → Prop
  | .getBuffer tx | .fill tx _ => tx.buf.Full
  | .enqueue _ pkt | .pollReceive _ pkt _ _ => Sound (payload pkt)
  | _ => True

variable {cfg : Config} {convert : List UInt8 → List UInt8} {launch : Dev → Skb → List UInt8 → Transmit}
  {c c' : Control} {payload payload' : Addr → Payload} {r r' : Receipts} {l : Lists} {point : Point} {progress : Progress}
  {dev : Dev} {pkt : Addr}

private theorem waiting_enqueue :
    (waiting payload (l.enqueue dev pkt)).Perm (boxed payload pkt dev :: waiting payload l) := by
  cases dev with
  | sn0 => simp [waiting, Lists.enqueue]
  | sn1 => simp [waiting, Lists.enqueue]

private theorem waiting_dequeue {rest : List Addr} (front : l.rx dev = pkt :: rest) :
    (waiting payload l).Perm (boxed payload pkt dev :: waiting payload (l.dequeue dev)) := by
  cases dev with
  | sn0 => simp [waiting, Lists.dequeue, front]
  | sn1 => simp [waiting, Lists.dequeue, front]

private theorem waiting_congr (same : ∀ pkt ∈ l.all, payload' pkt = payload pkt) :
    waiting payload' l = waiting payload l := by
  have boxes (dev : Dev) : (l.rx dev).map (boxed payload' · dev) = (l.rx dev).map (boxed payload · dev) := by
    apply List.map_congr_left
    intro pkt member
    rw [boxed, boxed, same pkt (Lists.mem_all.mpr ⟨dev, .inr member⟩)]
  rw [waiting, waiting, boxes, boxes]

theorem contents_fill {old : Payload} {buf : Block Buffer} (full : buf.Full) :
    contents (fillPayload old buf).value = buf.bytes ∧ Sound (fillPayload old buf).value := by
  have bytes : contents (fillPayload old buf).value = buf.bytes := by rw [contents, copyOut_fill old full]
  refine ⟨bytes, ?_⟩
  rw [Sound, bytes]
  exact full

private theorem resume_carrying (caller : Caller) :
    caller.resume.points.flatMap (Point.carrying launch payload) = [] := by
  cases caller <;> rfl

private theorem resume_whole (caller : Caller) : ∀ next ∈ caller.resume.points, next.Whole payload := by
  cases caller <;> simp [Caller.resume]

private theorem sound_dequeue (sound : ∀ dev, ∀ pkt ∈ l.rx dev, Sound (payload pkt)) (dev : Dev) :
    ∀ other, ∀ pkt ∈ (l.dequeue dev).rx other, Sound (payload pkt) := by
  intro other pkt member
  apply sound other
  by_cases same : other = dev
  · subst same
    apply List.mem_of_mem_tail
    simpa [Lists.dequeue] using member
  · simpa [Lists.dequeue, same] using member

private theorem sound_enqueue (sound : ∀ dev, ∀ pkt ∈ l.rx dev, Sound (payload pkt)) (whole : Sound (payload pkt))
    (dev : Dev) :
    ∀ other, ∀ pkt' ∈ (l.enqueue dev pkt).rx other, Sound (payload pkt') := by
  intro other pkt' member
  by_cases same : other = dev
  · subst same
    simp only [Lists.enqueue, Function.update_self, List.mem_cons] at member
    rcases member with rfl | member
    · exact whole
    · exact sound other pkt' member
  · apply sound other
    simpa [Lists.enqueue, same] using member

/-- What a step has done with frames: those it passed up and dropped are noted, and with
them all that were there are there still. -/
structure Outcome (convert : List UInt8 → List UInt8) (launch : Dev → Skb → List UInt8 → Transmit)
    (payload payload' : Addr → Payload) (r r' : Receipts) (l l' : Lists) (point : Point) (progress : Progress)
    (passed dropped : List Item) : Prop where
  noted : ∀ earlier lost, r = .noted convert earlier lost → r' = .noted convert (earlier ++ passed) (lost ++ dropped)
  shared : (point.carrying launch payload ++ waiting payload l).Perm
    (progress.points.flatMap (Point.carrying launch payload') ++ waiting payload' l' ++ (passed ++ dropped))
  whole : ∀ next ∈ progress.points, next.Whole payload'
  sound : ∀ dev, ∀ pkt ∈ l'.rx dev, Sound (payload' pkt)
  written : ∀ pkt, pkt ∉ point.held → payload' pkt = payload pkt

theorem Outcome.quiet {l' : Lists} (shared : (point.carrying launch payload ++ waiting payload l).Perm
      (progress.points.flatMap (Point.carrying launch payload) ++ waiting payload l'))
    (whole : ∀ next ∈ progress.points, next.Whole payload) (sound : ∀ dev, ∀ pkt ∈ l'.rx dev, Sound (payload pkt)) :
    Outcome convert launch payload payload r r l l' point progress [] [] := by
  refine ⟨?_, by simpa using shared, whole, sound, fun _ _ => rfl⟩
  intro earlier lost same
  simpa using same

/-- A step that leaves frames and receipts alone moves packets about. -/
theorem Advance.outcome (advance : Advance cfg c point progress c') (calm : point.calm = true)
    (holds : Represents c.links l) (whole : point.Whole payload) (sound : ∀ dev, ∀ pkt ∈ l.rx dev, Sound (payload pkt)) :
    Outcome convert launch payload payload r r l (point.effect cfg c l) point progress [] [] := by
  cases advance with
  | tooShort | entered | filled | received | handled | polled => cases calm
  | gotBuffer => exact .quiet (.refl _) (by simpa using whole) sound
  | @enqueued tx pkt => exact .quiet waiting_enqueue.symm (by simp) (sound_enqueue sound whole tx.dest)
  | @dequeued dev npackets quota pkt head =>
    obtain ⟨rest, front, _⟩ := holds.rx_front head
    exact .quiet (waiting_dequeue front) (by simpa using sound dev pkt (by simp [front])) (sound_dequeue sound dev)
  | wakeUnwanted | woken =>
    apply Outcome.quiet
    · simp [resume_carrying]
    · exact resume_whole _
    · exact sound
  | _ => exact .quiet (.refl _) (by simp) sound

theorem Outcome.arrived {l' : Lists} {item : Item} {passed dropped : List Item}
    (once : passed ++ dropped = [item])
    (noted : ∀ earlier lost, r = .noted convert earlier lost → r' = .noted convert (earlier ++ passed) (lost ++ dropped))
    (shared : (point.carrying launch payload ++ waiting payload l).Perm (item :: waiting payload l'))
    (rest : progress.points.flatMap (Point.carrying launch payload) = []) (whole : ∀ next ∈ progress.points, next.Whole payload)
    (sound : ∀ dev, ∀ pkt ∈ l'.rx dev, Sound (payload pkt)) :
    Outcome convert launch payload payload r r' l l' point progress passed dropped := by
  refine ⟨noted, ?_, whole, sound, fun _ _ => rfl⟩
  rw [rest, once, List.nil_append]
  exact shared.trans (List.perm_append_singleton _ _).symm

private theorem noted_received (sound : Sound (payload pkt)) : ∀ earlier lost, r = .noted convert earlier lost →
    r.take dev (payload pkt).datalen (convert (contents (payload pkt))) =
      .noted convert (earlier ++ [boxed payload pkt dev]) (lost ++ []) := by
  rintro earlier lost rfl
  rw [List.append_nil, ← sound]
  exact Receipts.noted_take dev convert earlier lost _

private theorem noted_lost : ∀ earlier lost, r = .noted convert earlier lost →
    r.lose dev = .noted convert (earlier ++ []) (lost ++ [boxed payload pkt dev]) := by
  rintro earlier lost rfl
  rw [List.append_nil]
  exact Receipts.noted_lose dev convert earlier lost _

theorem Handed.outcome (handed : Handed cfg convert launch c payload r point progress payload' r')
    (advance : Advance cfg c point progress c') (launched : ∀ dev skb beyond, (launch dev skb beyond).buf.Full)
    (holds : Represents c.links l) (absent : ∀ pkt ∈ point.held, pkt ∉ l.all) (whole : point.Whole payload)
    (sound : ∀ dev, ∀ pkt ∈ l.rx dev, Sound (payload pkt)) :
    ∃ passed dropped, Outcome convert launch payload payload' r r' l (point.effect cfg c l) point progress passed dropped := by
  cases handed with
  | @entered dev skb beyond => exact ⟨[], [], .quiet (.refl _) (by simpa using launched dev skb beyond) sound⟩
  | @filled tx pkt =>
    obtain ⟨bytes, fits⟩ := @contents_fill (payload pkt) tx.buf whole
    have kept {other : Addr} (different : other ≠ pkt) :
        Function.update payload pkt (fillPayload (payload pkt) tx.buf).value other = payload other :=
      Function.update_of_ne different _ _
    have unlisted {other : Addr} (member : other ∈ l.all) : other ≠ pkt := by
      rintro rfl
      exact absent other (by simp) member
    refine ⟨[], [], ?_, ?_, ?_, ?_, ?_⟩
    · intro earlier lost same
      simpa using same
    · have same := waiting_congr fun other member => kept (@unlisted other member)
      simp only [Point.effect, same]
      simp [boxed, bytes]
    · simpa using fits
    · intro dev other member
      rw [kept (unlisted (Lists.mem_all.mpr ⟨dev, .inr member⟩))]
      exact sound dev other member
    · intro other apart
      exact kept (by simpa using apart)
  | @received dev caller pkt signalled head =>
    obtain ⟨rest, front, _⟩ := holds.rx_front head
    refine ⟨[boxed payload pkt dev], [], .arrived rfl (noted_received (sound dev pkt (by simp [front]))) ?_ rfl (by simp) ?_⟩
    · simpa [signalled] using waiting_dequeue front
    · simpa [signalled] using sound_dequeue sound dev
  | @lost dev caller pkt signalled head =>
    obtain ⟨rest, front, _⟩ := holds.rx_front head
    refine ⟨[], [boxed payload pkt dev], .arrived rfl noted_lost ?_ rfl (by simp) ?_⟩
    · simpa [signalled] using waiting_dequeue front
    · simpa [signalled] using sound_dequeue sound dev
  | @handled dev caller nothing =>
    have unchanged : (if c.Signalled cfg dev then l.dequeue dev else l) = l := by
      split
      next signalled => exact Lists.dequeue_empty (holds.rx_nil.mpr (nothing signalled))
      next => rfl
    refine ⟨[], [], .quiet ?_ (resume_whole caller) ?_⟩
    · simp [resume_carrying, unchanged]
    · simpa [unchanged] using sound
  | @polled dev pkt => exact ⟨[boxed payload pkt dev], [], .arrived rfl (noted_received whole) (.refl _) rfl (by simp) sound⟩
  | @pollLost dev pkt => exact ⟨[], [boxed payload pkt dev], .arrived rfl noted_lost (.refl _) rfl (by simp) sound⟩
  | rested calm => exact ⟨[], [], advance.outcome calm holds whole sound⟩

/-- Every packet is in one place, and so is every frame of those that were `handed` to the devices. -/
structure Accounted (convert : List UInt8 → List UInt8) (launch : Dev → Skb → List UInt8 → Transmit) (bufs : List Addr)
    (handed : List Item) (m : Machine) (l : Lists) (passed dropped : List Item) : Prop extends Conserved bufs m l where
  whole : ∀ point ∈ m.calls, point.Whole m.state.payloads
  sound : ∀ dev, ∀ pkt ∈ l.rx dev, Sound (m.state.payloads pkt)
  noted : m.state.receipts = .noted convert passed dropped
  shared : handed.Perm
    (m.calls.flatMap (Point.carrying launch m.state.payloads) ++ waiting m.state.payloads l ++ (passed ++ dropped))

theorem Point.Whole.frame (whole : point.Whole payload) (same : ∀ pkt ∈ point.held, payload' pkt = payload pkt) :
    point.Whole payload' := by
  cases point with
  | enqueue tx pkt | pollReceive dev pkt npackets quota =>
    simp only [Point.Whole] at whole ⊢
    rw [same pkt (by simp)]
    exact whole
  | _ => exact whole

private theorem Point.carrying_frame (same : ∀ pkt ∈ point.held, payload' pkt = payload pkt) :
    point.carrying launch payload' = point.carrying launch payload := by
  cases point with
  | enqueue tx pkt | pollReceive dev pkt npackets quota =>
    simp only [Point.carrying, boxed]
    rw [same pkt (by simp)]
  | _ => rfl

namespace Accounted
variable {bufs : List Addr} {handed passed dropped : List Item} {m : Machine} {state : State}

theorem same (kept : Accounted convert launch bufs handed m l passed dropped)
    (links : state.control.links = m.state.control.links)
    (payloads : state.payloads = m.state.payloads) (receipts : state.receipts = m.state.receipts) :
    Accounted convert launch bufs handed { m with state } l passed dropped := by
  refine ⟨⟨links ▸ kept.represents, kept.partition⟩, ?_, ?_, receipts ▸ kept.noted, ?_⟩
  · rw [payloads]
    exact kept.whole
  · rw [payloads]
    exact kept.sound
  · rw [payloads]
    exact kept.shared

theorem start (entry : Point) (kept : Accounted convert launch bufs handed m l passed dropped) (free : entry.held = [])
    (whole : entry.Whole m.state.payloads) :
    Accounted convert launch bufs (handed ++ entry.carrying launch m.state.payloads) (m.start entry) l passed dropped := by
  have shared := kept.shared
  have held : (m.start entry).calls.flatMap Point.held = m.calls.flatMap Point.held := by
    rw [Machine.start, List.flatMap_append, List.flatMap_singleton, free, List.append_nil]
  refine ⟨⟨kept.represents, held ▸ kept.partition⟩, all_started kept.whole whole, kept.sound, kept.noted, ?_⟩
  rw [List.perm_iff_count] at shared ⊢
  intro item
  have here := shared item
  simp only [Machine.start, List.flatMap_append, List.flatMap_cons, List.flatMap_nil, List.append_nil,
    List.count_append] at here ⊢
  omega

theorem advanced {before after : List Point} (kept : Accounted convert launch bufs handed m l passed dropped)
    (distinct : bufs.Nodup) (launched : ∀ dev skb beyond, (launch dev skb beyond).buf.Full)
    (shape : m.calls = before ++ point :: after) (advance : Advance cfg m.state.control point progress state.control)
    (step : Handed cfg convert launch m.state.control m.state.payloads m.state.receipts point progress
      state.payloads state.receipts) :
    ∃ l passed dropped,
      Accounted convert launch bufs handed ⟨state, before ++ progress.points ++ after⟩ l passed dropped := by
  have apart {pkt : Addr} (held : pkt ∈ point.held) := kept.toConserved.exclusive distinct shape held
  obtain ⟨received, lost, outcome⟩ := step.outcome advance launched kept.represents (fun _ held => (apart held).1)
    (kept.whole point (by simp [shape])) kept.sound
  have unwritten {other : Point} (member : other ∈ before ++ after) :
      ∀ pkt ∈ other.held, state.payloads pkt = m.state.payloads pkt := by
    intro pkt held
    apply outcome.written
    intro own
    exact (apart own).2 other member held
  refine ⟨_, passed ++ received, dropped ++ lost, kept.toConserved.advanced distinct shape advance, ?_, outcome.sound,
    outcome.noted passed dropped kept.noted, ?_⟩
  · intro other member
    rcases mem_replaced.mp member with here | elsewhere
    · exact outcome.whole other here
    · exact (kept.whole other (other_mem shape elsewhere)).frame (unwritten elsewhere)
  · have others (calls : List Point) (among : ∀ other ∈ calls, other ∈ before ++ after) :
        calls.flatMap (Point.carrying launch state.payloads) = calls.flatMap (Point.carrying launch m.state.payloads) := by
      apply List.flatMap_congr
      intro other member
      exact Point.carrying_frame (unwritten (among other member))
    have shared := kept.shared
    have moved := outcome.shared
    rw [List.perm_iff_count] at shared moved ⊢
    intro item
    have total := shared item
    have here := moved item
    rw [List.flatMap_append, List.flatMap_append, others before (by simp +contextual), others after (by simp +contextual)]
    simp only [shape, List.flatMap_append, List.flatMap_cons, List.count_append] at total here ⊢
    omega

end Accounted

end DeviceDrivers.Snull
