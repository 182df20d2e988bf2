import DeviceDrivers.Library.Runs
import DeviceDrivers.Proofs.SnullSetup
import DeviceDrivers.Proofs.SnullSteps

/-! No packet is lost or duplicated, whatever the interleaving: each one is in
a pool, in a receive queue or in the hands of exactly one running call. -/

namespace DeviceDrivers.Snull
open Chains Runs

/-- The packet a call has taken off one list and not yet put on another. -/
@[simp] def Point.held : Point → List Addr
  | .fill _ pkt | .enqueue _ pkt | .release pkt _ | .pollReceive _ pkt _ _ => [pkt]
  | _ => []

@[simp] def Point.effect (cfg : Config) (c : Control) (l : Lists) : Point → Lists
  | .getBuffer tx => l.take tx.dev
  | .enqueue tx pkt => l.enqueue tx.dest pkt
  | .interrupt dev _ => if c.Signalled cfg dev then l.dequeue dev else l
  | .release pkt _ => l.give (c.links.dev pkt) pkt
  | .pollDequeue dev _ _ => l.dequeue dev
  | _ => l

variable {cfg : Config} {l : Lists}

@[simp] theorem resume_held (caller : Caller) : caller.resume.points.flatMap Point.held = [] := by
  cases caller <;> rfl

/-- Every step of a call is its list operation, and the packets it holds before
and after it account for the difference. -/
private theorem Advance.lists {c c' : Control} {point : Point} {progress : Progress}
    (advance : Advance cfg c point progress c') (holds : Represents c.links l)
    (absent : ∀ pkt ∈ point.held, pkt ∉ l.all) :
    Represents c'.links (point.effect cfg c l) ∧
      (l.all ++ point.held).Perm ((point.effect cfg c l).all ++ progress.points.flatMap Point.held) := by
  cases advance with
  | gotBuffer head =>
    obtain ⟨rest, front, _⟩ := holds.pool_front head
    refine ⟨holds.take head, ?_⟩
    simpa using (Lists.take_perm front).trans (List.perm_append_singleton _ _).symm
  | @enqueued tx pkt =>
    refine ⟨holds.enqueue (absent pkt (by simp)), ?_⟩
    simpa using (List.perm_append_singleton _ _).trans Lists.enqueue_perm.symm
  | received signalled head =>
    obtain ⟨rest, front, _⟩ := holds.rx_front head
    simp only [Point.effect, signalled, if_true]
    refine ⟨holds.dequeue head, ?_⟩
    simpa using (Lists.dequeue_perm front).trans (List.perm_append_singleton _ _).symm
  | @handled dev caller nothing =>
    have unchanged : (if c.Signalled cfg dev then l.dequeue dev else l) = l := by
      split
      next signalled => exact Lists.dequeue_empty (holds.rx_nil.mpr (nothing signalled))
      next => rfl
    simp only [Point.effect, unchanged]
    exact ⟨holds, by simp⟩
  | @released pkt caller =>
    refine ⟨holds.give (absent pkt (by simp)), ?_⟩
    simpa using (List.perm_append_singleton _ _).trans Lists.give_perm.symm
  | dequeued head =>
    obtain ⟨rest, front, _⟩ := holds.rx_front head
    refine ⟨holds.dequeue head, ?_⟩
    simpa using (Lists.dequeue_perm front).trans (List.perm_append_singleton _ _).symm
  | _ => exact ⟨by simpa using holds, by simp⟩

/-- The packets `bufs` are shared out, each exactly once, among the lists the
pointers represent and the calls in progress. -/
structure Conserved (bufs : List Addr) (m : Machine) (l : Lists) : Prop where
  represents : Represents m.state.control.links l
  partition : (l.all ++ m.calls.flatMap Point.held).Perm bufs

def Action.effect (cfg : Config) (m : Machine) (l : Lists) : Action → Lists
  | .run index _ =>
    match m.calls[index]? with
    | some point => point.effect cfg m.state.control l
    | none => l
  | _ => l

theorem Conserved.held_apart {bufs : List Addr} {m : Machine} (kept : Conserved bufs m l)
    (distinct : bufs.Nodup) {point : Point} (running : point ∈ m.calls) :
    ∀ pkt ∈ point.held, pkt ∉ l.all := by
  intro pkt held listed
  have apart := List.disjoint_of_nodup_append (kept.partition.nodup_iff.mpr distinct)
  exact apart listed (List.mem_flatMap.mpr ⟨point, running, held⟩)

theorem Conserved.advanced {bufs : List Addr} {m : Machine} {before after : List Point} {point : Point}
    {progress : Progress}
    {state : State} (distinct : bufs.Nodup) (kept : Conserved bufs m l) (shape : m.calls = before ++ point :: after)
    (advance : Advance cfg m.state.control point progress state.control) :
    Conserved bufs ⟨state, before ++ progress.points ++ after⟩ (point.effect cfg m.state.control l) := by
  have partition := kept.partition
  obtain ⟨represents, moved⟩ := advance.lists kept.represents (kept.held_apart distinct (by simp [shape]))
  refine ⟨represents, ?_⟩
  rw [List.perm_iff_count] at partition moved ⊢
  intro pkt
  have whole := partition pkt
  have here := moved pkt
  simp only [shape, List.flatMap_append, List.flatMap_cons, List.count_append] at whole here ⊢
  omega

theorem Conserved.step {bufs : List Addr} {m m' : Machine} {action : Action}
    (distinct : bufs.Nodup) (kept : Conserved bufs m l) (stepped : m.step cfg action = some m') :
    Conserved bufs m' (action.effect cfg m l) := by
  have partition := kept.partition
  cases Machine.step_cases stepped with
  | opened | closed | mtu => exact ⟨by simpa [Action.effect] using kept.represents, partition⟩
  | startedTx | startedTimeout | startedInterrupt | startedPoll =>
    exact ⟨kept.represents, by simpa [Machine.start, Action.effect] using partition⟩
  | ran found shape taken =>
    simp only [Action.effect, found]
    exact kept.advanced distinct shape (Point.step_advance taken)

theorem Conserved.initial {kmalloc : Dev → Nat → Bool} {contents : Addr → Packet} :
    ∃ l, Conserved (List.range (setUp cfg kmalloc contents).fresh) ⟨setUp cfg kmalloc contents, []⟩ l := by
  obtain ⟨l, stocked⟩ := @setUp_stocked cfg kmalloc contents
  exact ⟨l, stocked.represents, by simpa using stocked.complete⟩

theorem Conserved.run {bufs : List Addr} {m m' : Machine} {allowed : Machine → Action → Prop}
    {actions : List Action} (distinct : bufs.Nodup) (kept : ∃ l, Conserved bufs m l)
    (run : Run (Machine.step cfg) allowed m actions m') : ∃ l, Conserved bufs m' l :=
  run.invariant (fun m => ∃ l, Conserved bufs m l) kept
    fun _ _ _ ⟨_, held⟩ _ stepped => ⟨_, held.step distinct stepped⟩

/-- In either mode, from the two set-up pools and over any interleaving of any
calls, the allocated packets are at all times exactly those of the two pools,
the two receive queues and the running calls, each once. The four traversals
end, visit no packet twice, and a pool holds its own device's packets. -/
theorem buffers_conserved (cfg : Config) (kmalloc : Dev → Nat → Bool) (contents : Addr → Packet)
    (actions : List Action) (m : Machine)
    (run : Run (Machine.step cfg) (fun _ _ => True) ⟨setUp cfg kmalloc contents, []⟩ actions m) :
    ∃ pool rx : Dev → List Addr,
      (∀ dev, Chain (fun pkt => (m.state.heap pkt).next) (m.state.priv dev).ppool (pool dev)) ∧
      (∀ dev, Chain (fun pkt => (m.state.heap pkt).next) (m.state.priv dev).rxQueue (rx dev)) ∧
      (pool .sn0 ++ pool .sn1 ++ rx .sn0 ++ rx .sn1 ++ m.calls.flatMap Point.held).Perm
        (List.range (setUp cfg kmalloc contents).fresh) ∧
      (pool .sn0 ++ pool .sn1 ++ rx .sn0 ++ rx .sn1 ++ m.calls.flatMap Point.held).Nodup ∧
      ∀ dev, ∀ pkt ∈ pool dev, (m.state.heap pkt).dev = dev := by
  have distinct := List.nodup_range (n := (setUp cfg kmalloc contents).fresh)
  obtain ⟨l, kept⟩ := Conserved.run distinct Conserved.initial run
  exact ⟨l.pool, l.rx, kept.represents.pools, kept.represents.queues, kept.partition,
    kept.partition.nodup_iff.mpr distinct, kept.represents.owned⟩

/-- A transmission interrupted while it holds a packet of a two-packet pool. -/
theorem buffers_conserved_held : ∃ m : Machine, m.calls.flatMap Point.held = [1] ∧
    ∃ pool rx : Dev → List Addr,
      (pool .sn0 ++ pool .sn1 ++ rx .sn0 ++ rx .sn1 ++ m.calls.flatMap Point.held).Perm (List.range 4) := by
  have reached : ∃ m : Machine, Run (Machine.step (sample 2 0)) (fun _ _ => True)
      ⟨setUp (sample 2 0) (fun _ _ => true) sampleMemory, []⟩
      [.open .sn0, .startTx .sn0 ⟨0, [1]⟩ [], .run 0 true, .run 0 true] m ∧
      m.calls.flatMap Point.held = [1] := reaches_of_execute (by decide +kernel)
  obtain ⟨m, run, held⟩ := reached
  obtain ⟨pool, rx, _, _, partition, _⟩ := buffers_conserved _ _ _ _ m run
  exact ⟨m, held, pool, rx, partition⟩

end DeviceDrivers.Snull
