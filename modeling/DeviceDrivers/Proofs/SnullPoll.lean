import DeviceDrivers.Library.Quotas
import DeviceDrivers.Proofs.SnullLedger
import DeviceDrivers.Proofs.SnullOwnership
import DeviceDrivers.Proofs.SnullFreight
import DeviceDrivers.Proofs.SnullSequential
import DeviceDrivers.Snull.Poll

/-! `snull_poll` on a finite receive queue. A frame without memory costs a
queue entry but no budget, so the loop ends because the queue does. -/

namespace DeviceDrivers.Snull
open Chains Quotas Runs

/-- What a poll of `dev` has done when it has taken `removed` off the receive
queue and left `rest` in it. -/
structure Collected (alloc : Nat → Bool) (dev : Dev) (s after : State) (removed rest : List Addr) : Prop where
  queue : Chain (fun pkt => (after.heap pkt).next) (after.priv dev).rxQueue rest
  passedUp : after.passedUp = s.passedUp ++
    (successes alloc removed).map fun pkt => (dev, (s.heap pkt).payload.data.take (s.heap pkt).payload.datalen)
  rxPackets : (after.priv dev).stats.rxPackets =
    (s.priv dev).stats.rxPackets + .ofNat (successes alloc removed).length
  rxBytes : (after.priv dev).stats.rxBytes = (s.priv dev).stats.rxBytes +
    .ofNat ((successes alloc removed).map fun pkt => (s.heap pkt).payload.datalen).sum
  rxDropped : (after.priv dev).stats.rxDropped =
    (s.priv dev).stats.rxDropped + .ofNat (failures alloc removed).length
  pools : ∀ owner free, Chain (fun pkt => (s.heap pkt).next) (s.priv owner).ppool free →
    (∀ pkt ∈ free, pkt ∉ removed) →
    Chain (fun pkt => (after.heap pkt).next) (after.priv owner).ppool
      ((removed.filter fun pkt => (s.heap pkt).dev = owner).reverse ++ free)

section Rounds
variable {dev : Dev} {s after : State} {pkt : Addr} {npackets : Nat} {memory : Bool}

/-- What one round of the loop does with the packet it has dequeued. -/
structure Round (memory : Bool) (dev : Dev) (pkt : Addr) (s after : State) : Prop where
  links : after.control.links = (s.control.links.dequeue dev pkt).give pkt
  masked : after.control.rxIntEnabled = s.control.rxIntEnabled
  payload : ∀ other, (after.heap other).payload = (s.heap other).payload
  ledger : after.ledger =
    if memory then
      s.ledger.received dev (s.heap pkt).payload.datalen ((s.heap pkt).payload.data.take (s.heap pkt).payload.datalen)
    else s.ledger.dropped dev

private theorem copyOut_bytes (packet : Payload) : (copyOut packet).value.bytes = packet.data.take packet.datalen := by
  simp [copyOut, Touches.splice, Touches.slice]

private theorem cargo_release (pkt : Addr) (s : State) : (snullReleaseBuffer pkt s).cargo = s.cargo := by
  unfold snullReleaseBuffer
  simp only
  split
  · exact cargo_return s pkt
  · exact cargo_return s pkt

private theorem pollFrame_round :
    Round memory dev pkt s (pollFrame memory dev pkt npackets (unlinkRx dev pkt s)).2 := by
  cases memory with
  | false =>
    refine ⟨by simp [pollFrame, control_release], by simp [pollFrame, control_release], ?_, by simp [pollFrame]⟩
    exact congrFun (congrArg Cargo.payload (cargo_release pkt (countRxDropped dev (unlinkRx dev pkt s))))
  | true =>
    refine ⟨by simp [pollFrame, control_release], by simp [pollFrame, control_release], ?_, ?_⟩
    · exact congrFun (congrArg Cargo.payload (cargo_release pkt (countRx dev _ (passUp dev _ _))))
    · simp only [pollFrame, if_true, ledger_release, ledger_countRx, copyOut_bytes]
      rw [← ledger_unlinkRx s dev pkt]
      rfl

variable {alloc : Nat → Bool} {removed rest : List Addr}

theorem Round.heap (round : Round memory dev pkt s after) :
    (fun other => (after.heap other).next) =
        Function.update (fun other => (s.heap other).next) pkt (s.priv (s.heap pkt).dev).ppool ∧
      ∀ other, (after.heap other).dev = (s.heap other).dev := by
  refine ⟨congrArg Links.next round.links, congrFun (congrArg Links.dev round.links)⟩

theorem Round.pool (round : Round memory dev pkt s after) {owner : Dev} {free : List Addr}
    (pool : Chain (fun other => (s.heap other).next) (s.priv owner).ppool free) (absent : pkt ∉ free) :
    Chain (fun other => (after.heap other).next) (after.priv owner).ppool
      (if (s.heap pkt).dev = owner then pkt :: free else free) := by
  have head : (after.priv owner).ppool =
      Function.update (fun other => (s.priv other).ppool) (s.heap pkt).dev (some pkt) owner :=
    congrFun (congrArg Links.ppool round.links) owner
  rw [head, round.heap.1]
  split
  next same =>
    subst same
    rw [Function.update_self]
    exact pool.push absent
  next other =>
    rw [Function.update_of_ne (Ne.symm other)]
    exact pool.untouched absent _

theorem Round.queue (round : Round memory dev pkt s after) (absent : pkt ∉ rest)
    (queue : Chain (fun other => (s.heap other).next) (s.heap pkt).next rest) :
    Chain (fun other => (after.heap other).next) (after.priv dev).rxQueue rest := by
  have head : (after.priv dev).rxQueue =
      Function.update (fun other => (s.priv other).rxQueue) dev (s.heap pkt).next dev :=
    congrFun (congrArg Links.rxQueue round.links) dev
  rw [head, round.heap.1, Function.update_self]
  exact queue.untouched absent _

theorem Collected.nothing (queue : Chain (fun pkt => (s.heap pkt).next) (s.priv dev).rxQueue rest) :
    Collected alloc dev s s [] rest := by
  refine ⟨queue, by simp, by simp, by simp, by simp, ?_⟩
  intro owner free pool _
  simpa using pool

theorem Round.stats (round : Round memory dev pkt s after) :
    (after.priv dev).stats.rxPackets = (s.priv dev).stats.rxPackets + .ofNat memory.toNat ∧
      (after.priv dev).stats.rxBytes =
        (s.priv dev).stats.rxBytes + .ofNat (if memory then (s.heap pkt).payload.datalen else 0) ∧
      (after.priv dev).stats.rxDropped = (s.priv dev).stats.rxDropped + .ofNat (!memory).toNat := by
  have stats : (after.priv dev).stats = (after.ledger.account dev).stats := rfl
  rw [stats, round.ledger]
  cases memory with
  | false => simp [Ledger.dropped, State.ledger, Priv.account]
  | true => simp [Ledger.received, Account.countRx, State.ledger, Priv.account]

private theorem Collected.round {middle : State} (round : Round (alloc 0) dev pkt s middle) (absent : pkt ∉ removed)
    (collected : Collected (later alloc) dev middle after removed rest) :
    Collected alloc dev s after (pkt :: removed) rest := by
  have passed : middle.passedUp = middle.ledger.passedUp := rfl
  have adds (old : UInt64) (one more : Nat) : old + .ofNat one + .ofNat more = old + .ofNat (one + more) := by
    rw [UInt64.ofNat_add, UInt64.add_assoc]
  obtain ⟨packets, bytes, dropped⟩ := round.stats
  obtain ⟨_, owners⟩ := round.heap
  refine ⟨collected.queue, ?_, ?_, ?_, ?_, ?_⟩
  · rw [collected.passedUp, passed, round.ledger, successes_cons]
    simp only [round.payload]
    split <;> simp [Ledger.received, Ledger.dropped, State.ledger]
  · rw [collected.rxPackets, packets, adds, successes_cons]
    cases alloc 0 <;> simp [UInt64.add_comm]
  · rw [collected.rxBytes, bytes, adds, successes_cons]
    simp only [round.payload]
    cases alloc 0 <;> simp
  · rw [collected.rxDropped, dropped, adds, failures_cons]
    cases alloc 0 <;> simp [UInt64.add_comm]
  · intro owner free pool apart
    have outside : pkt ∉ free := fun member => apart pkt member (by simp)
    have given := collected.pools owner _ (round.pool pool outside) ?_
    · simp only [owners] at given
      by_cases own : (s.heap pkt).dev = owner
      · simpa [own] using given
      · simpa [own] using given
    · intro other member again
      split at member
      · rcases List.mem_cons.mp member with same | member
        · exact absent (same ▸ again)
        · exact apart other member (List.mem_cons_of_mem _ again)
      · exact apart other member (List.mem_cons_of_mem _ again)

/-- The loop ends as soon as it has more fuel than there are frames. -/
theorem snullPollLoop_collects {quota fuel : Nat} {queue : List Addr} (within : npackets ≤ quota)
    (finite : Chain (fun pkt => (s.heap pkt).next) (s.priv dev).rxQueue queue) (enough : queue.length < fuel) :
    ∃ removed rest after,
      snullPollLoop dev quota fuel alloc npackets s = some (npackets + (successes alloc removed).length, after) ∧
      WorkedOff alloc (quota - npackets) queue removed rest ∧ Collected alloc dev s after removed rest ∧
      (after.priv dev).rxIntEnabled = (s.priv dev).rxIntEnabled := by
  induction queue generalizing fuel alloc npackets s with
  | nil =>
    obtain ⟨fuel, rfl⟩ := Nat.exists_eq_add_of_lt enough
    have empty : (s.priv dev).rxQueue = none := finite.nil_iff.mp rfl
    refine ⟨[], [], s, ?_, .exhausted, .nothing finite, rfl⟩
    simp [snullPollLoop, empty]
  | cons pkt queue ih =>
    obtain ⟨fuel, rfl⟩ := Nat.exists_eq_add_of_lt enough
    obtain ⟨head, tail⟩ := finite.front
    by_cases more : npackets < quota
    · have round := @pollFrame_round dev s pkt npackets (alloc 0)
      have outside : pkt ∉ queue := (List.nodup_cons.mp finite.nodup).1
      have counted : (pollFrame (alloc 0) dev pkt npackets (unlinkRx dev pkt s)).1 = npackets + (alloc 0).toNat := by
        cases alloc 0 <;> rfl
      have bounded := Bool.toNat_le (alloc 0)
      obtain ⟨removed, rest, after, ran, worked, collected, masked⟩ :=
        @ih _ (npackets + (alloc 0).toNat) (later alloc) _ (by omega) (round.queue outside tail)
          (Nat.lt_of_succ_lt_succ enough)
      have absent : pkt ∉ removed := fun member => outside (worked.split ▸ List.mem_append_left _ member)
      refine ⟨pkt :: removed, rest, after, ?_, ?_, collected.round round absent, ?_⟩
      · rw [snullPollLoop, if_pos ⟨more, by simp [head]⟩]
        simp only [snullDequeueBuf, head]
        rw [counted]
        refine ran.trans ?_
        rw [successes_cons]
        cases alloc 0 <;> simp [Nat.add_assoc, Nat.add_comm]
      · rw [← Nat.sub_sub] at worked
        exact worked.attempt (by omega) rfl
      · exact masked.trans (congrFun round.masked dev)
    · refine ⟨[], pkt :: queue, s, ?_, ?_, .nothing finite, rfl⟩
      · simp [snullPollLoop, more]
      · have spent : quota - npackets = 0 := by omega
        exact spent ▸ .finished

end Rounds

section Exit
variable {napiDisable : Bool → State → Option State} {fuel budget : Nat} {alloc : Nat → Bool} {dev : Dev} {s : State}

/-- With a `napi_disable` that waits for outstanding polls, a poll returns only if it leaves frames behind. -/
theorem snullPoll_returns (waits : ∀ s, napiDisable true s = none) {value : Int} {after : State} :
    snullPoll napiDisable fuel alloc dev budget s = some (value, after) ↔
      ∃ counted, snullPollLoop dev budget fuel alloc 0 s = some (counted, after) ∧
        (after.priv dev).rxQueue ≠ none ∧ value = 1 := by
  simp only [snullPoll, waits, Option.map_none, Option.bind_eq_some_iff]
  constructor
  · rintro ⟨⟨counted, drained⟩, looped, left⟩
    split at left
    next => cases left
    next more =>
      cases left
      exact ⟨counted, looped, more, rfl⟩
  · rintro ⟨counted, looped, more, rfl⟩
    exact ⟨(counted, after), looped, if_neg more⟩

end Exit

/-- The poll returns. It has taken the frames off the queue that it should, they have become what they
should, and it returns 0 with receive interrupts on exactly if it leaves none. -/
def Polls (napiDisable : Bool → State → Option State) (fuel : Nat) (alloc : Nat → Bool) (dev : Dev) (budget : Nat)
    (s : State) (queue : List Addr) : Prop :=
  ∃ removed rest value after, snullPoll napiDisable fuel alloc dev budget s = some (value, after) ∧
    WorkedOff alloc budget queue removed rest ∧ Collected alloc dev s after removed rest ∧
    if (after.priv dev).rxQueue = none then value = 0 ∧ (after.priv dev).rxIntEnabled = true
    else value = 1 ∧ (after.priv dev).rxIntEnabled = (s.priv dev).rxIntEnabled

/-- A poll of a device whose receive queue holds `queue`. The loop always ends, having taken the shortest
prefix in which `budget` frames get memory. The poll returns as it should exactly if that leaves a
frame: if the frames before the last one are enough. Where it works off the whole queue it calls
`napi_disable`, which waits for the poll to complete. -/
theorem snullPoll_collects_iff (napiDisable : Bool → State → Option State) (waits : ∀ s, napiDisable true s = none)
    (alloc : Nat → Bool) (dev : Dev) (budget : Nat) (s : State) (queue : List Addr)
    (finite : Chain (fun pkt => (s.heap pkt).next) (s.priv dev).rxQueue queue)
    (fuel : Nat) (enough : queue.length < fuel) :
    (∃ removed rest after, snullPollLoop dev budget fuel alloc 0 s = some ((successes alloc removed).length, after) ∧
      WorkedOff alloc budget queue removed rest ∧ Collected alloc dev s after removed rest ∧
      (after.priv dev).rxIntEnabled = (s.priv dev).rxIntEnabled) ∧
    (Polls napiDisable fuel alloc dev budget s queue ↔
      queue ≠ [] ∧ budget ≤ (successes alloc queue.dropLast).length) := by
  obtain ⟨removed, rest, after, ran, worked, collected, masked⟩ :=
    @snullPollLoop_collects dev s 0 alloc budget fuel queue (Nat.zero_le _) finite enough
  rw [Nat.zero_add] at ran
  rw [Nat.sub_zero] at worked
  refine ⟨⟨removed, rest, after, ran, worked, collected, masked⟩, ?_⟩
  rw [← worked.left_iff]
  constructor
  · rintro ⟨_, _, _, _, returned, _⟩ none
    obtain ⟨_, again, more, _⟩ := (snullPoll_returns waits).mp returned
    cases ran.symm.trans again
    exact more (collected.queue.nil_iff.mp none)
  · intro some
    have more : (after.priv dev).rxQueue ≠ none := fun none => some (collected.queue.nil_iff.mpr none)
    have returned := (snullPoll_returns waits).mpr ⟨_, ran, more, rfl⟩
    exact ⟨removed, rest, 1, after, returned, worked, collected, by rw [if_neg more]; exact ⟨rfl, masked⟩⟩

/-- Three frames of sn0's own wait there, 60 zeros each: it takes them for echo replies. -/
def sampleQueue : State where
  heap pkt := ⟨if pkt = 0 then none else some (pkt - 1), .sn0, 60, List.replicate 60 0⟩
  device _ := { priv := { rxQueue := some 2 } }
  passedUp := []
  freed := []
  touched := []
  fresh := 3
  kfreed := []

/-- `napi_disable` as documented. -/
def documented : Bool → State → Option State := ({ ipFastCsum := fun _ _ => 0 } : Config).napiDisable

/-- A budget of one, and no memory for the first frame: the third stays. -/
theorem snullPoll_collects_iff_second : Polls documented 4 (fun call => call = 1) .sn0 1 sampleQueue [2, 1, 0] :=
  (snullPoll_collects_iff documented (fun _ => rfl) (fun call => call = 1) .sn0 1 sampleQueue [2, 1, 0]
    (.cons (.cons (.cons .nil))) 4 (by simp)).2.mpr ⟨by simp, by decide⟩

/-- With a budget for all three, the loop works the queue off and the poll does not return. -/
theorem poll_waits_for_itself :
    (∃ after, snullPollLoop .sn0 4 4 (fun _ => true) 0 sampleQueue = some (3, after) ∧
      (after.priv .sn0).rxQueue = none) ∧
    ¬ ∀ (alloc : Nat → Bool) (dev : Dev) (budget : Nat) (s : State) (queue : List Addr),
      Chain (fun pkt => (s.heap pkt).next) (s.priv dev).rxQueue queue →
      ∀ fuel, queue.length < fuel → Polls documented fuel alloc dev budget s queue := by
  have looped : ∃ taken ∈ snullPollLoop .sn0 4 4 (fun _ => true) 0 sampleQueue,
      taken.1 = 3 ∧ (taken.2.priv .sn0).rxQueue = none := by decide +kernel
  obtain ⟨⟨_, after⟩, ran, rfl, empty⟩ := looped
  refine ⟨⟨after, ran, empty⟩, ?_⟩
  intro claim
  obtain ⟨_, _, _, _, returned, _⟩ := claim (fun _ => true) .sn0 4 sampleQueue [2, 1, 0] (.cons (.cons (.cons .nil))) 4
    (by simp)
  obtain ⟨_, again, more, _⟩ := (snullPoll_returns fun _ => rfl).mp returned
  cases ran.symm.trans again
  exact more empty

/-- In every state the system can reach, and with the other calls standing
still, a poll that is started gets to the end of its loop, and has given each
buffer it has taken back to the pool of its owner. -/
theorem poll_in_any_state {cfg : Config} {kmalloc : Dev → Nat → Bool} {contents : Addr → Packet}
    {actions : List Action} {m : Machine} {dev : Dev} (napi : cfg.useNapi = true)
    (idle : ∀ point ∈ m.calls, point.poller ≠ some dev)
    (run : Run (Machine.step cfg) (fun _ _ => True) ⟨setUp cfg kmalloc contents, []⟩ actions m)
    (alloc : Nat → Bool) (budget : Nat) :
    ∃ l removed rest counted after actions, Represents m.state.control.links l ∧
      Run (Machine.step cfg) (fun _ _ => True) m actions ⟨after, m.calls ++ [.pollDone dev counted budget]⟩ ∧
      WorkedOff alloc budget (l.rx dev) removed rest ∧ Collected alloc dev m.state after removed rest ∧
      ∀ owner, Chain (fun pkt => (after.heap pkt).next) (after.priv owner).ppool
        ((removed.filter fun pkt => (m.state.heap pkt).dev = owner).reverse ++ l.pool owner) := by
  have distinct := List.nodup_range (n := (setUp cfg kmalloc contents).fresh)
  obtain ⟨l, kept⟩ := Conserved.run distinct Conserved.initial run
  obtain ⟨removed, rest, after, ran, worked, collected, _⟩ :=
    @snullPollLoop_collects dev m.state 0 alloc budget ((l.rx dev).length + 1) (l.rx dev) (Nat.zero_le _)
      (kept.represents.queues dev) (Nat.lt_succ_self _)
  have begun : Machine.step cfg ⟨m.state, m.calls⟩ (.startPoll dev budget) =
      some (Machine.start ⟨m.state, m.calls⟩ (.pollTest dev 0 budget)) := by
    simpa [Machine.step, napi] using idle
  obtain ⟨actions, run⟩ := Leads.started begun (snullPollLoop_leads ran (.here _))
  refine ⟨l, removed, rest, _, after, actions, kept.represents, run, worked, collected, ?_⟩
  intro owner
  apply collected.pools owner (l.pool owner) (kept.represents.pools owner)
  intro pkt free member
  have all : l.all.Nodup := (List.nodup_append.mp (kept.partition.nodup_iff.mpr distinct)).1
  have queued : pkt ∈ l.rx dev := worked.split ▸ List.mem_append_left _ member
  exact Lists.pool_rx_apart all free queued

end DeviceDrivers.Snull
