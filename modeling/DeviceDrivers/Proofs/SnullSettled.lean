import DeviceDrivers.Library.Runs
import DeviceDrivers.Proofs.SnullSetup
import DeviceDrivers.Proofs.SnullTransmit

/-! Sequences of complete calls in regular mode. Each starts and ends in a
settled state, where nothing is queued and all lists are as they were set up. -/

namespace DeviceDrivers.Snull
open Touches

@[ext] structure Outgoing where
  packets : UInt64
  bytes : UInt64
  len : Nat
  skb : Option Skb

@[ext] structure Incoming where
  packets : UInt64
  bytes : UInt64
  dropped : UInt64

def Account.outgoing (account : Account) : Outgoing :=
  ⟨account.stats.txPackets, account.stats.txBytes, account.txPacketlen, account.skb⟩

def Account.incoming (account : Account) : Incoming :=
  ⟨account.stats.rxPackets, account.stats.rxBytes, account.stats.rxDropped⟩

def Outgoing.complete (out : Outgoing) : Outgoing :=
  { out with packets := out.packets + 1, bytes := out.bytes + .ofNat out.len }

def Incoming.arrive (memory : Bool) (size : Nat) (incoming : Incoming) : Incoming :=
  if memory then { incoming with packets := incoming.packets + 1, bytes := incoming.bytes + .ofNat size }
  else { incoming with dropped := incoming.dropped + 1 }

section Sides
variable (g : Ledger) (dev dest other : Dev) (memory : Bool) (size : Nat) (frame : List UInt8)

private theorem arriveFrame_outgoing : ((g.arriveFrame dest memory size frame).account other).outgoing =
    (g.account other).outgoing := by
  unfold Ledger.arriveFrame
  by_cases same : other = dest
  · subst same
    split <;> simp [Ledger.received, Ledger.dropped, Account.countRx, Account.outgoing]
  · split <;> simp [Ledger.received, Ledger.dropped, same]

private theorem arriveFrame_incoming : ((g.arriveFrame dest memory size frame).account other).incoming =
    if other = dest then (g.account other).incoming.arrive memory size else (g.account other).incoming := by
  unfold Ledger.arriveFrame Incoming.arrive
  by_cases same : other = dest
  · subst same
    split <;> simp [Ledger.received, Ledger.dropped, Account.countRx, Account.incoming]
  · split <;> simp [Ledger.received, Ledger.dropped, same]

private theorem arriveFrame_passedUp : (g.arriveFrame dest memory size frame).passedUp =
    g.passedUp ++ if memory then [(dest, delivered frame)] else [] := by
  unfold Ledger.arriveFrame
  split <;> simp [Ledger.received, Ledger.dropped]

private theorem arriveFrame_freed : (g.arriveFrame dest memory size frame).freed = g.freed := by
  unfold Ledger.arriveFrame
  split <;> rfl

theorem completed_outgoing : ((g.completed dev).account other).outgoing =
    if other = dev then (g.account other).outgoing.complete else (g.account other).outgoing := by
  by_cases same : other = dev
  · subst same
    simp [Ledger.completed, Account.countTx, Account.outgoing, Outgoing.complete]
  · simp [Ledger.completed, same]

theorem completed_incoming : ((g.completed dev).account other).incoming = (g.account other).incoming := by
  by_cases same : other = dev
  · subst same
    simp [Ledger.completed, Account.countTx, Account.incoming]
  · simp [Ledger.completed, same]

private theorem completedIf_outgoing (finished : Bool) : ((g.completedIf dev finished).account other).outgoing =
    if other = dev ∧ finished = true then (g.account other).outgoing.complete else (g.account other).outgoing := by
  cases finished <;> simp [Ledger.completedIf, completed_outgoing]

private theorem completedIf_incoming (finished : Bool) : ((g.completedIf dev finished).account other).incoming =
    (g.account other).incoming := by
  cases finished <;> simp [Ledger.completedIf, completed_incoming]

private theorem completedIf_freed (finished : Bool) : (g.completedIf dev finished).freed =
    g.freed ++ if finished then (g.account dev).outgoing.skb.toList.map (dev, ·) else [] := by
  cases finished
  · simp [Ledger.completedIf]
  · rfl

private theorem completedIf_passedUp (finished : Bool) : (g.completedIf dev finished).passedUp = g.passedUp := by
  cases finished <;> rfl

private theorem remember_outgoing (skb : Skb) : ((g.remember dev skb).account other).outgoing =
    if other = dev then { (g.account dev).outgoing with skb := some skb } else (g.account other).outgoing := by
  by_cases same : other = dev
  · subst same
    simp [Ledger.remember, Account.outgoing]
  · simp [Ledger.remember, same]

private theorem setLen_outgoing : ((g.setLen dev size).account other).outgoing =
    if other = dev then { (g.account dev).outgoing with len := size } else (g.account other).outgoing := by
  by_cases same : other = dev
  · subst same
    simp [Ledger.setLen, Account.outgoing]
  · simp [Ledger.setLen, same]

private theorem remember_incoming (skb : Skb) : ((g.remember dev skb).account other).incoming =
    (g.account other).incoming := by
  by_cases same : other = dev
  · subst same
    simp [Ledger.remember, Account.incoming]
  · simp [Ledger.remember, same]

private theorem setLen_incoming : ((g.setLen dev size).account other).incoming = (g.account other).incoming := by
  by_cases same : other = dev
  · subst same
    simp [Ledger.setLen, Account.incoming]
  · simp [Ledger.setLen, same]

end Sides

/-- What complete calls of the regular mode keep. The lists are those the pools
started with, and a device whose queue runs has no transmission outstanding. -/
structure Settled (links : Links) (s : State) : Prop where
  restored : s.control.links = links
  quiet : ∀ dev, links.rxQueue dev = none
  owned : ∀ dev pkt, links.ppool dev = some pkt → links.dev pkt = dev
  enabled : ∀ dev, s.control.rxIntEnabled dev = true
  word : ∀ dev, s.control.status dev = 0#32 ∨ s.control.status dev = snullTxIntr
  clear : ∀ dev, s.control.stopped dev = false → s.control.status dev = 0#32

def State.outstanding (s : State) (dev : Dev) : Bool := raised (s.control.status dev) snullTxIntr

variable {cfg : Config} {s : State} {dev : Dev} {around : Surroundings} {links : Links} {skb : Skb}

theorem Settled.idle (settled : Settled links s) (running : s.control.stopped dev = false) :
    s.outstanding dev = false := by
  simp [State.outstanding, settled.clear dev running]

/-- The transmit side when the frame has arrived: the sender remembers what it
sends, and a receiver with a transmission outstanding has completed it. -/
theorem Settled.arrived_outgoing (settled : Settled links s) (running : s.control.stopped dev = false) (other : Dev) :
    ((s.arrived cfg around skb dev).account other).outgoing =
      if other = dev then
        { (s.ledger.account dev).outgoing with len := (padded skb.data).size, skb := some skb }
      else if other = route skb dev ∧ s.outstanding other = true then
        (s.ledger.account other).outgoing.complete
      else (s.ledger.account other).outgoing := by
  have idle : raised (s.control.status dev) snullTxIntr = false := settled.idle running
  simp only [State.arrived, setLen_outgoing, completedIf_outgoing, arriveFrame_outgoing, remember_outgoing]
  by_cases same : other = dev
  · subst same
    have apart : ¬ (other = route skb other ∧ raised (s.control.status (route skb other)) snullTxIntr = true) := by
      rintro ⟨same, waiting⟩
      rw [← same, idle] at waiting
      cases waiting
    simp only [if_true, if_neg apart]
  · simp only [if_neg same]
    split
    next both => rw [if_pos ⟨both.1, by rw [State.outstanding, both.1]; exact both.2⟩]
    next neither => rw [if_neg fun both => neither ⟨both.1, by rw [← both.1]; exact both.2⟩]

theorem Settled.arrived_freed (settled : Settled links s) (running : s.control.stopped dev = false) :
    (s.arrived cfg around skb dev).freed =
      s.freed ++ if s.outstanding (route skb dev) then
        (s.priv (route skb dev)).skb.toList.map (route skb dev, ·) else [] := by
  have idle := settled.idle running
  change (Ledger.completedIf _ _ (s.outstanding (route skb dev))).freed = _
  rw [completedIf_freed, arriveFrame_freed, arriveFrame_outgoing, remember_outgoing]
  cases waiting : s.outstanding (route skb dev) with
  | false => rfl
  | true =>
    have other : route skb dev ≠ dev := by
      intro same
      rw [same, idle] at waiting
      cases waiting
    rw [if_neg other]
    rfl

theorem arrived_incoming (other : Dev) : ((s.arrived cfg around skb dev).account other).incoming =
    if other = route skb dev then
      (s.ledger.account other).incoming.arrive around.rxMemory (padded skb.data).size
    else (s.ledger.account other).incoming := by
  simp only [State.arrived, setLen_incoming, completedIf_incoming, arriveFrame_incoming, remember_incoming]

theorem arrived_passedUp : (s.arrived cfg around skb dev).passedUp =
    s.passedUp ++ if around.rxMemory then
      [(route skb dev, delivered (sent (padded skb.data) cfg.ipFastCsum around.beyond))] else [] := by
  change (Ledger.completedIf _ _ _).passedUp = _
  rw [completedIf_passedUp, arriveFrame_passedUp]
  rfl

private theorem Settled.arrived_locks (settled : Settled links s) (running : s.control.stopped dev = false) :
    (s.arrived cfg around skb dev).locks dev cfg = simulatesLockup cfg dev s := by
  have same : ((s.arrived cfg around skb dev).account dev).outgoing.packets =
      (s.ledger.account dev).outgoing.packets := by
    rw [settled.arrived_outgoing running dev, if_pos rfl]
  rw [simulatesLockup_ledger, Ledger.locks, Ledger.locks]
  exact congrArg (fun packets => cfg.lockup != 0#32 && (packets + 1) % _ == 0) same

theorem Settled.transmit (settled : Settled links s) (regular : cfg.useNapi = false)
    (running : s.control.stopped dev = false) (head : links.ppool dev ≠ none) :
    ∃ s', snullTx cfg around skb dev s = some s' ∧
      if simulatesLockup cfg dev s then
        s'.control =
          { s.control with
            status := Function.update (Function.update s.control.status (route skb dev) 0#32) dev snullTxIntr
            stopped := Function.update s.control.stopped dev true } ∧
        s'.ledger = s.arrived cfg around skb dev
      else
        s'.control = { s.control with status := Function.update s.control.status (route skb dev) 0#32 } ∧
        s'.ledger = (s.arrived cfg around skb dev).completed dev := by
  obtain ⟨pkt, head⟩ := Option.ne_none_iff_exists'.mp head
  have spec := @snullTx_spec cfg s dev around skb pkt regular settled.enabled
    (fun _ => by rw [settled.restored]; exact settled.quiet dev) (by rw [settled.restored]; exact head)
    (by rw [settled.restored]; exact settled.owned dev pkt head)
  rw [settled.arrived_locks running] at spec
  obtain ⟨s', ran, after⟩ := spec
  have cleared : Function.update s.control.status (route skb dev) 0#32 dev = 0#32 := by
    rw [Function.update_apply, settled.clear dev running]
    split <;> rfl
  have stays : Function.update (Function.update s.control.status (route skb dev) 0#32) dev 0#32 =
      Function.update s.control.status (route skb dev) 0#32 :=
    Function.update_eq_self_iff.mpr cleared.symm
  refine ⟨s', ran, ?_⟩
  split
  next locks =>
    rw [if_pos locks] at after
    simpa [cleared] using after
  next completes =>
    rw [if_neg completes] at after
    have running' : Function.update s.control.stopped dev false = s.control.stopped := by
      rw [← running, Function.update_eq_self]
    simpa [stays, running, running'] using after

private theorem snullTx_faults (empty : s.control.links.ppool dev = none) : snullTx cfg around skb dev s = none := by
  have untaken {state : State} (same : state.control = s.control) : snullGetTxBuffer dev state = none := by
    have pointer : (state.priv dev).ppool = none := by
      rw [← empty, ← same]
      rfl
    rw [snullGetTxBuffer, pointer]
  change snullHwTx cfg around (padded skb.data) dev _ = none
  rw [snullHwTx, if_neg (padded_long _)]
  exact Option.map_eq_none_iff.mpr (untaken (by simp))

theorem Settled.transmitted {s' : State} (settled : Settled links s) (regular : cfg.useNapi = false)
    (running : s.control.stopped dev = false) (ran : snullTx cfg around skb dev s = some s') :
    if simulatesLockup cfg dev s then
      s'.control =
        { s.control with
          status := Function.update (Function.update s.control.status (route skb dev) 0#32) dev snullTxIntr
          stopped := Function.update s.control.stopped dev true } ∧
      s'.ledger = s.arrived cfg around skb dev
    else
      s'.control = { s.control with status := Function.update s.control.status (route skb dev) 0#32 } ∧
      s'.ledger = (s.arrived cfg around skb dev).completed dev := by
  have head : links.ppool dev ≠ none := by
    intro empty
    rw [snullTx_faults (by rw [settled.restored, empty])] at ran
    cases ran
  obtain ⟨after, ran', spec⟩ := @Settled.transmit cfg s dev around links skb settled regular running head
  obtain rfl : after = s' := Option.some.inj (ran'.symm.trans ran)
  exact spec

theorem Settled.stopped {s' : State} (settled : Settled links s) (regular : cfg.useNapi = false)
    (running : s.control.stopped dev = false) (ran : snullTx cfg around skb dev s = some s') :
    s'.control.stopped = Function.update s.control.stopped dev (simulatesLockup cfg dev s) := by
  have spec := settled.transmitted regular running ran
  split at spec
  next locks => rw [spec.1, locks]
  next completes =>
    have completes : simulatesLockup cfg dev s = false := by simpa using completes
    rw [spec.1, completes, ← running, Function.update_eq_self]

private theorem word_update {status : Dev → BitVec 32} {word : BitVec 32} (known : word = 0#32 ∨ word = snullTxIntr)
    (words : ∀ other, status other = 0#32 ∨ status other = snullTxIntr) (other : Dev) :
    Function.update status dev word other = 0#32 ∨ Function.update status dev word other = snullTxIntr := by
  rw [Function.update_apply]
  split
  · exact known
  · exact words other

private theorem clear_update {status : Dev → BitVec 32} {stopped : Dev → Bool} {word : BitVec 32} {flag : Bool}
    (own : flag = false → word = 0#32) (clear : ∀ other, stopped other = false → status other = 0#32) (other : Dev)
    (running : Function.update stopped dev flag other = false) : Function.update status dev word other = 0#32 := by
  rw [Function.update_apply] at running ⊢
  split at running
  next same => rw [if_pos same, own running]
  next different => rw [if_neg different, clear other running]

theorem Settled.step {call : Call} {s' : State} (settled : Settled links s) (regular : cfg.useNapi = false)
    (allowed : call.Allowed s) (ran : call.run cfg s = some s') : Settled links s' := by
  cases call with
  | tx dev skb around =>
    have running : s.control.stopped dev = false := allowed
    have spec := settled.transmitted regular running ran
    have word := @word_update (route skb dev) _ 0#32 (.inl rfl) settled.word
    have clear (other : Dev) (stopped : s.control.stopped other = false) :
        Function.update s.control.status (route skb dev) 0#32 other = 0#32 := by
      rw [Function.update_apply, settled.clear other stopped]
      split <;> rfl
    split at spec
    · obtain ⟨control, _⟩ := spec
      refine ⟨by rw [control]; exact settled.restored, settled.quiet, settled.owned,
        by rw [control]; exact settled.enabled, ?_, ?_⟩
      · rw [control]
        exact word_update (.inr rfl) word
      · rw [control]
        exact clear_update nofun clear
    · obtain ⟨control, _⟩ := spec
      exact ⟨by rw [control]; exact settled.restored, settled.quiet, settled.owned,
        by rw [control]; exact settled.enabled, by rw [control]; exact word, by rw [control]; exact clear⟩
  | txTimeout dev memory =>
    cases ran
    obtain ⟨control, _⟩ := @snullTxTimeout_spec cfg s dev memory regular
    refine ⟨by rw [control]; exact settled.restored, settled.quiet, settled.owned,
      by rw [control]; exact settled.enabled, ?_, ?_⟩
    · rw [control]
      exact word_update (.inl rfl) settled.word
    · rw [control]
      exact clear_update (fun _ => rfl) settled.clear

theorem Settled.initial {kmalloc : Dev → Nat → Bool} {contents : Addr → Packet} :
    Settled (setUp cfg kmalloc contents).control.links (opened cfg kmalloc contents) := by
  obtain ⟨l, stocked⟩ := @setUp_stocked cfg kmalloc contents
  have control : (opened cfg kmalloc contents).control =
      { (setUp cfg kmalloc contents).control with
        up := (opened cfg kmalloc contents).control.up
        stopped := (opened cfg kmalloc contents).control.stopped } := by
    simp [opened]
  have fresh (dev : Dev) : (setUp cfg kmalloc contents).control.links.rxQueue dev = none ∧
      (setUp cfg kmalloc contents).control.rxIntEnabled dev = true ∧
      (setUp cfg kmalloc contents).control.status dev = 0#32 := by
    obtain ⟨head, device⟩ := @setUp_device cfg kmalloc contents dev
    simp [State.control, State.priv, device]
  refine ⟨by rw [control], fun dev => (fresh dev).1, ?_, ?_, ?_, ?_⟩
  · intro dev pkt head
    exact stocked.represents.owned dev pkt (head ▸ stocked.represents.pools dev).head_mem
  all_goals
    intro dev
    rw [control]
    simp [fresh]

theorem Settled.run {kmalloc : Dev → Nat → Bool} {contents : Addr → Packet} {allowed : State → Call → Prop}
    {calls : List Call} (regular : cfg.useNapi = false) (contract : ∀ s call, allowed s call → call.Allowed s)
    (run : Runs.Run (Call.run cfg) allowed (opened cfg kmalloc contents) calls s) :
    Settled (setUp cfg kmalloc contents).control.links s :=
  run.invariant (Settled _) Settled.initial
    fun _ _ _ settled allowed ran => settled.step regular (contract _ _ allowed) ran

end DeviceDrivers.Snull
