import DeviceDrivers.Proofs.SnullReceipts

/-! What the driver does with packets does not depend on the bytes in them, but for the
test for a ping. Two states that differ only in some bytes of their frames stay so. -/

namespace DeviceDrivers.Snull
open Touches

/-- Frames of one length that may differ in the checksum and in the two third octets. -/
def Similar (first second : List UInt8) : Prop :=
  first.length = second.length ∧
    ∀ i, ¬ (24 ≤ i ∧ i < 26) → i ≠ 28 → i ≠ 32 → first[i]? = second[i]?

/-- The same state but for the bytes of frames, and for what was touched. -/
structure Alike (s t : State) : Prop where
  control : s.control = t.control
  account : s.ledger.account = t.ledger.account
  freed : s.freed = t.freed
  datalen : ∀ pkt, (s.payloads pkt).datalen = (t.payloads pkt).datalen
  contents : ∀ pkt, Similar (contents (s.payloads pkt)) (contents (t.payloads pkt))
  passedUp : List.Forall₂ (fun first second => first.1 = second.1 ∧ Similar first.2 second.2) s.passedUp t.passedUp

@[simp] theorem ledger_close (dev : Dev) (s : State) : (snullRelease dev s).ledger = s.ledger := by
  rw [snullRelease, netifStopQueue, ledger_onDevice, ledger_onDevice]
  · rfl
  · rfl

@[simp] theorem ledger_changeMtu (dev : Dev) (mtu : Int) (s : State) :
    (snullChangeMtu dev mtu s).2.ledger = s.ledger := by
  unfold snullChangeMtu
  split
  · rfl
  · rw [ledger_onDevice]
    rfl

private theorem on_congr {g h : Ledger} (same : g.account = h.account) (dev : Dev) (f : Account → Account) :
    (g.on dev f).account = (h.on dev f).account := by
  funext other
  simp only [Ledger.on_account, same]

theorem Similar.refl (bytes : List UInt8) : Similar bytes bytes := ⟨rfl, fun _ _ _ _ => rfl⟩

theorem Alike.refl (s : State) : Alike s s :=
  ⟨rfl, rfl, rfl, fun _ => rfl, fun _ => .refl _, List.forall₂_same.mpr fun item _ => ⟨rfl, .refl item.2⟩⟩

namespace Alike
variable {s s' t t' : State} (alike : Alike s t) (dev : Dev) (pkt : Addr)
include alike

theorem kept (control : s'.control = t'.control) (account : s'.ledger.account = t'.ledger.account)
    (freed : s'.freed = t'.freed) (first : s'.payloads = s.payloads) (second : t'.payloads = t.payloads)
    (left : s'.passedUp = s.passedUp) (right : t'.passedUp = t.passedUp) : Alike s' t' := by
  refine ⟨control, account, freed, ?_, ?_, ?_⟩
  · rw [first, second]
    exact alike.datalen
  · rw [first, second]
    exact alike.contents
  · rw [left, right]
    exact alike.passedUp

theorem status : (s.priv dev).status = (t.priv dev).status := congrFun (congrArg Control.status alike.control) dev

theorem rxQueue : (s.priv dev).rxQueue = (t.priv dev).rxQueue :=
  congrFun (congrArg (Links.rxQueue ∘ Control.links) alike.control) dev

theorem ppool : (s.priv dev).ppool = (t.priv dev).ppool :=
  congrFun (congrArg (Links.ppool ∘ Control.links) alike.control) dev

theorem setStatus (word : BitVec 32) : Alike (setStatus dev word s) (setStatus dev word t) :=
  alike.kept (by simp [alike.control]) (by simp [alike.account]) alike.freed rfl rfl rfl rfl

theorem raiseStatus (flag : BitVec 32) : Alike (raiseStatus dev flag s) (raiseStatus dev flag t) := by
  rw [Snull.raiseStatus, Snull.raiseStatus, alike.status]
  exact alike.setStatus dev _

theorem touching (first second : List (Touch Buffer)) : Alike (s.touching first) (t.touching second) :=
  alike.kept alike.control alike.account alike.freed rfl rfl rfl rfl

private theorem wakeQueue : Alike (netifWakeQueue dev s) (netifWakeQueue dev t) :=
  alike.kept (by simp [alike.control]) (by simp [alike.account]) alike.freed rfl rfl rfl rfl

private theorem stopQueue : Alike (netifStopQueue dev s) (netifStopQueue dev t) :=
  alike.kept (by simp [alike.control]) (by simp [alike.account]) alike.freed rfl rfl rfl rfl

theorem «open» : Alike (snullOpen dev s) (snullOpen dev t) :=
  alike.kept (by simp [alike.control]) (by simp [alike.account]) alike.freed rfl rfl rfl rfl

theorem release : Alike (snullRelease dev s) (snullRelease dev t) :=
  alike.kept (by simp [alike.control]) (by simp [alike.account]) alike.freed rfl rfl rfl rfl

theorem changeMtu (mtu : Int) : Alike (snullChangeMtu dev mtu s).2 (snullChangeMtu dev mtu t).2 := by
  have freed (s : State) : (snullChangeMtu dev mtu s).2.freed = s.freed := congrArg Ledger.freed (ledger_changeMtu dev mtu s)
  have payloads (s : State) : (snullChangeMtu dev mtu s).2.payloads = s.payloads :=
    congrArg Cargo.payload (cargo_changeMtu s dev mtu)
  have passedUp (s : State) : (snullChangeMtu dev mtu s).2.passedUp = s.passedUp :=
    congrArg Cargo.passedUp (cargo_changeMtu s dev mtu)
  exact alike.kept (by simp [alike.control]) (by simp [alike.account]) (by rw [freed, freed, alike.freed]) (payloads s)
    (payloads t) (passedUp s) (passedUp t)

theorem unlinkRx : Alike (unlinkRx dev pkt s) (unlinkRx dev pkt t) :=
  alike.kept (by simp [alike.control]) (by simp [alike.account]) alike.freed rfl rfl rfl rfl

theorem unlinkPool : Alike (unlinkPool dev pkt s) (unlinkPool dev pkt t) :=
  alike.kept (by simp [alike.control]) (by simp [alike.account]) alike.freed rfl rfl rfl rfl

theorem countTxError : Alike (countTxError dev s) (countTxError dev t) := by
  refine alike.kept (by simp [alike.control]) ?_ alike.freed rfl rfl rfl rfl
  rw [ledger_countTxError, ledger_countTxError]
  exact on_congr alike.account dev _

theorem setTxPacketlen (len : Nat) : Alike (setTxPacketlen dev len s) (setTxPacketlen dev len t) := by
  refine alike.kept (by simp [alike.control]) ?_ alike.freed rfl rfl rfl rfl
  rw [ledger_setTxPacketlen, ledger_setTxPacketlen]
  exact on_congr alike.account dev _

theorem rememberSkb (skb : Skb) : Alike (rememberSkb dev skb s) (rememberSkb dev skb t) := by
  refine alike.kept (by simp [alike.control]) ?_ alike.freed rfl rfl rfl rfl
  rw [ledger_remember, ledger_remember]
  exact on_congr alike.account dev _

theorem countRxDropped : Alike (countRxDropped dev s) (countRxDropped dev t) := by
  refine alike.kept (by simp [alike.control]) ?_ alike.freed rfl rfl rfl rfl
  rw [ledger_countRxDropped, ledger_countRxDropped]
  exact on_congr alike.account dev _

theorem transmissionOver : Alike (transmissionOver dev s) (transmissionOver dev t) := by
  have skb : (s.ledger.account dev).skb = (t.ledger.account dev).skb := congrArg Account.skb (congrFun alike.account dev)
  apply alike.kept
  · simp [alike.control]
  · rw [ledger_transmissionOver, ledger_transmissionOver]
    exact on_congr alike.account dev _
  · have freed (s : State) : (Snull.transmissionOver dev s).freed = s.freed ++ (s.ledger.account dev).skb.toList.map (dev, ·) :=
      congrArg Ledger.freed (ledger_transmissionOver s dev)
    rw [freed, freed, skb, alike.freed]
  · exact congrArg Cargo.payload (cargo_transmissionOver s dev)
  · exact congrArg Cargo.payload (cargo_transmissionOver t dev)
  · exact congrArg Cargo.passedUp (cargo_transmissionOver s dev)
  · exact congrArg Cargo.passedUp (cargo_transmissionOver t dev)

theorem returnBuffer : Alike (returnBuffer pkt s) (returnBuffer pkt t) :=
  alike.kept (by simp [alike.control]) (by simp [alike.account]) alike.freed (congrArg Cargo.payload (cargo_return s pkt))
    (congrArg Cargo.payload (cargo_return t pkt)) rfl rfl

theorem enqueue : Alike (snullEnqueueBuf dev pkt s) (snullEnqueueBuf dev pkt t) :=
  alike.kept (by simp [alike.control]) (by simp [alike.account]) alike.freed
    (congrArg Cargo.payload (cargo_enqueue s dev pkt)) (congrArg Cargo.payload (cargo_enqueue t dev pkt)) rfl rfl

theorem received {first second : List UInt8} (datalen : Nat) (similar : Similar first second) :
    Alike (passUp dev first (countRx dev datalen s)) (passUp dev second (countRx dev datalen t)) := by
  refine ⟨by simp [alike.control], ?_, alike.freed, alike.datalen, alike.contents, ?_⟩
  · have counted (s : State) (frame : List UInt8) : (passUp dev frame (countRx dev datalen s)).ledger.account =
        (s.ledger.on dev (.countRx datalen)).account := by
      rw [← ledger_countRx]
      rfl
    rw [counted, counted]
    exact on_congr alike.account dev _
  · exact List.rel_append alike.passedUp (.cons ⟨rfl, similar⟩ .nil)

theorem fill {first second : Block Buffer} (size : first.size = second.size) (left : first.Full) (right : second.Full)
    (similar : Similar first.bytes second.bytes) : Alike (fillPacket pkt first s) (fillPacket pkt second t) := by
  have payloads (s : State) (buf : Block Buffer) : (fillPacket pkt buf s).payloads =
      Function.update s.payloads pkt (fillPayload (s.payloads pkt) buf).value :=
    congrArg Cargo.payload (cargo_fill s pkt buf)
  have bytes {old : Payload} {buf : Block Buffer} (full : buf.Full) : Snull.contents (fillPayload old buf).value = buf.bytes :=
    (contents_fill full).1
  refine ⟨by simp [alike.control], by simp [alike.account], alike.freed, fun other => ?_, fun other => ?_, alike.passedUp⟩
  · rw [payloads, payloads]
    by_cases same : other = pkt
    · subst same
      rw [Function.update_self, Function.update_self]
      exact size
    · rw [Function.update_of_ne same, Function.update_of_ne same]
      exact alike.datalen other
  · rw [payloads, payloads]
    by_cases same : other = pkt
    · subst same
      rw [Function.update_self, Function.update_self, bytes left, bytes right]
      exact similar
    · rw [Function.update_of_ne same, Function.update_of_ne same]
      exact alike.contents other

private theorem getTxBuffer (taken : snullGetTxBuffer dev s = some (pkt, s')) :
    ∃ t', snullGetTxBuffer dev t = some (pkt, t') ∧ Alike s' t' := by
  unfold snullGetTxBuffer at taken ⊢
  rw [← alike.ppool]
  split at taken
  · cases taken
  next pkt head =>
    have unlinked := alike.unlinkPool dev pkt
    simp only [Option.some.injEq, Prod.mk.injEq] at taken
    obtain ⟨rfl, rfl⟩ := taken
    refine ⟨_, rfl, ?_⟩
    rw [← unlinked.ppool]
    split
    · exact unlinked.stopQueue dev
    · exact unlinked

theorem ended (finished : Bool) : Alike (if finished = true then Snull.transmissionOver dev s else s)
    (if finished = true then Snull.transmissionOver dev t else t) := by
  cases finished with
  | false => exact alike
  | true => exact alike.transmissionOver dev

/-- Two ways to receive a packet that agree on the one at the head of the queue. -/
theorem section_with {first second : Addr → State → State}
    (receives : ∀ pkt, (t.priv dev).rxQueue = some pkt → Alike (first pkt (Snull.unlinkRx dev pkt (Snull.setStatus dev 0#32 s)))
      (second pkt (Snull.unlinkRx dev pkt (Snull.setStatus dev 0#32 t)))) :
    (sectionWith first dev s).1 = (sectionWith second dev t).1 ∧
      Alike (sectionWith first dev s).2 (sectionWith second dev t).2 := by
  have calm := alike.setStatus dev 0#32
  have queue (state : State) : ((Snull.setStatus dev 0#32 state).priv dev).rxQueue = (state.priv dev).rxQueue := by
    simp [Snull.setStatus, State.onPriv, State.priv]
  simp only [sectionWith, alike.status dev, queue, alike.rxQueue dev]
  split
  · split
    · exact ⟨rfl, calm.ended dev _⟩
    next pkt head => exact ⟨rfl, (receives pkt head).ended dev _⟩
  · exact ⟨rfl, calm.ended dev _⟩

end Alike

/-! The calls of two such states: the same ones, with frames that may differ likewise. -/

structure Transmit.Alike (old new : Transmit) : Prop where
  dev : new.dev = old.dev
  dest : new.dest = old.dest
  size : old.buf.size = new.buf.size
  before : old.buf.Full
  after : new.buf.Full
  similar : Similar old.buf.bytes new.buf.bytes

@[simp] def Caller.swap (tx : Transmit) : Caller → Caller
  | .rxInterrupt _ => .rxInterrupt tx
  | .txInterrupt _ => .txInterrupt tx
  | .timeout dev => .timeout dev
  | .hardware => .hardware
  | .poll dev npackets quota => .poll dev npackets quota

@[simp] def Caller.frame : Caller → Option Transmit
  | .rxInterrupt tx | .txInterrupt tx => some tx
  | _ => none

@[simp] def Point.swap (tx : Transmit) : Point → Point
  | .getBuffer _ => .getBuffer tx
  | .fill _ pkt => .fill tx pkt
  | .enqueue _ pkt => .enqueue tx pkt
  | .testRxInts _ => .testRxInts tx
  | .raiseRx _ => .raiseRx tx
  | .recordLen _ => .recordLen tx
  | .raiseTx _ => .raiseTx tx
  | .testLockup _ => .testLockup tx
  | .interrupt dev caller => .interrupt dev (caller.swap tx)
  | .release pkt caller => .release pkt (caller.swap tx)
  | .testWake pkt caller => .testWake pkt (caller.swap tx)
  | .wake dev caller => .wake dev (caller.swap tx)
  | point => point

@[simp] def Point.frame : Point → Option Transmit
  | .getBuffer tx | .fill tx _ | .enqueue tx _ | .testRxInts tx | .raiseRx tx | .recordLen tx | .raiseTx tx
  | .testLockup tx => some tx
  | .interrupt _ caller | .release _ caller | .testWake _ caller | .wake _ caller => caller.frame
  | _ => none

@[simp] def Progress.swap (tx : Transmit) : Progress → Progress
  | .next point => .next (point.swap tx)
  | .returned value => .returned value

def Point.Matches (first second : Point) : Prop :=
  ∃ new, (∀ old, first.frame = some old → old.Alike new) ∧ second = first.swap new

variable {cfg : Config} {memory : Bool} {s s' t : State} {point : Point} {progress : Progress} {new : Transmit}

@[simp] theorem swap_resume (caller : Caller) : (caller.swap new).resume = caller.resume.swap new := by
  cases caller <;> rfl

@[simp] theorem swap_handlerExit (caller : Caller) (taken : Option Addr) :
    handlerExit (caller.swap new) taken = (handlerExit caller taken).swap new := by
  cases taken with
  | none => exact swap_resume caller
  | some pkt => rfl

private theorem simulatesLockup_alike (alike : Alike s t) (dev : Dev) :
    simulatesLockup cfg dev s = simulatesLockup cfg dev t := by
  have stats : (s.priv dev).stats = (t.priv dev).stats := congrArg Account.stats (congrFun alike.account dev)
  rw [simulatesLockup, simulatesLockup, stats]

private theorem wakeWanted_alike (alike : Alike s t) (pkt : Addr) :
    (s.heap pkt).dev = (t.heap pkt).dev ∧ wakeWanted pkt s = wakeWanted pkt t := by
  have dev : (s.heap pkt).dev = (t.heap pkt).dev := congrFun (congrArg (Links.dev ∘ Control.links) alike.control) pkt
  have next : (s.heap pkt).next = (t.heap pkt).next := congrFun (congrArg (Links.next ∘ Control.links) alike.control) pkt
  have stopped := congrFun (congrArg Control.stopped alike.control) (t.heap pkt).dev
  refine ⟨dev, ?_⟩
  rw [wakeWanted, wakeWanted, dev, next]
  exact congrArg (· && _) stopped

private theorem resume_frame (caller : Caller) : ∀ next ∈ caller.resume.points, next.frame = caller.frame := by
  cases caller <;> simp [Caller.resume]

/-- A call goes on with the frame that it entered with. -/
theorem Advance.frame {c c' : Control} (advance : Advance cfg c point progress c')
    (entered : ∀ dev skb beyond, point ≠ .enterTx dev skb beyond) :
    ∀ next ∈ progress.points, ∀ tx, next.frame = some tx → point.frame = some tx := by
  cases advance with
  | entered => exact absurd rfl (entered _ _ _)
  | handled | wakeUnwanted | woken =>
    intro next member tx
    rw [resume_frame _ next member]
    exact id
  | _ => simp

theorem swap_sender (frames : ∀ old, point.frame = some old → old.Alike new) :
    (point.swap new).sender = point.sender := by
  have inside (caller : Caller) (frames : ∀ old, caller.frame = some old → old.Alike new) :
      (caller.swap new).sender = caller.sender := by
    cases caller with
    | rxInterrupt tx | txInterrupt tx => simp [Caller.sender, (frames tx rfl).dev]
    | _ => rfl
  cases point with
  | getBuffer tx | fill tx | enqueue tx | testRxInts tx | raiseRx tx | recordLen tx | raiseTx tx | testLockup tx =>
    simp [Point.sender, (frames tx rfl).dev]
  | interrupt _ caller | release _ caller | testWake _ caller | wake _ caller => exact inside caller frames
  | _ => rfl

/-- A step that the two drivers share does the same to both states. -/
theorem Point.step_alike (alike : Alike s t) (frames : ∀ old, point.frame = some old → old.Alike new)
    (common : point.common = true) (unpolled : point.poller = none) (stepped : point.step cfg memory s = some (progress, s')) :
    ∃ t', (point.swap new).step cfg memory t = some (progress.swap new, t') ∧ Alike s' t' := by
  cases point with
  | enterTx | interrupt => cases common
  | getBuffer tx =>
    obtain ⟨⟨pkt, after⟩, taken, same⟩ := Option.map_eq_some_iff.mp stepped
    cases same
    obtain ⟨t', again, alike⟩ := alike.getTxBuffer tx.dev pkt taken
    refine ⟨t', ?_, alike⟩
    simp only [swap, step, (frames tx rfl).dev, again, Option.map_some, Progress.swap]
  | fill tx pkt =>
    cases stepped
    obtain ⟨_, _, size, before, after, similar⟩ := frames tx rfl
    exact ⟨_, rfl, alike.fill pkt size before after similar⟩
  | enqueue tx pkt =>
    cases stepped
    refine ⟨_, rfl, ?_⟩
    rw [(frames tx rfl).dest]
    exact alike.enqueue tx.dest pkt
  | testRxInts tx =>
    cases stepped
    have enabled : (s.priv tx.dest).rxIntEnabled = (t.priv tx.dest).rxIntEnabled :=
      congrFun (congrArg Control.rxIntEnabled alike.control) tx.dest
    refine ⟨t, ?_, alike⟩
    simp only [swap, step, (frames tx rfl).dest, enabled]
    split <;> rfl
  | raiseRx tx =>
    cases stepped
    refine ⟨_, ?_, alike.raiseStatus tx.dest snullRxIntr⟩
    simp only [swap, step, (frames tx rfl).dest, Progress.swap, Caller.swap]
  | recordLen tx =>
    cases stepped
    refine ⟨_, ?_, alike.setTxPacketlen tx.dev tx.buf.size⟩
    simp only [swap, step, (frames tx rfl).dev, (frames tx rfl).size, Progress.swap]
  | raiseTx tx =>
    cases stepped
    refine ⟨_, ?_, alike.raiseStatus tx.dev snullTxIntr⟩
    simp only [swap, step, (frames tx rfl).dev, Progress.swap]
  | testLockup tx =>
    simp only [step] at stepped
    simp only [swap, step, (frames tx rfl).dev, ← simulatesLockup_alike alike]
    split at stepped
    next locks => cases stepped; exact ⟨_, by rw [if_pos locks]; rfl, alike.stopQueue tx.dev⟩
    next free => cases stepped; exact ⟨t, by rw [if_neg free]; rfl, alike⟩
  | release pkt caller => cases stepped; exact ⟨_, rfl, alike.returnBuffer pkt⟩
  | testWake pkt caller =>
    cases stepped
    obtain ⟨dev, wanted⟩ := wakeWanted_alike alike pkt
    refine ⟨t, ?_, alike⟩
    simp only [swap, step, ← dev, ← wanted, swap_resume]
    split <;> rfl
  | wake dev caller =>
    cases stepped
    refine ⟨_, ?_, alike.wakeQueue dev⟩
    simp only [swap, step, swap_resume]
  | enterTimeout dev => cases stepped; exact ⟨_, rfl, alike.setStatus dev snullTxIntr⟩
  | countError dev => cases stepped; exact ⟨_, rfl, alike.countTxError dev⟩
  | wakeTimeout dev => cases stepped; exact ⟨_, rfl, alike.wakeQueue dev⟩
  | pollTest | pollDequeue | pollReceive | pollDone | pollEnable => cases unpolled

end DeviceDrivers.Snull
