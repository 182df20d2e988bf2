import DeviceDrivers.Library.Stacks
import DeviceDrivers.Proofs.SnullOwnership

/-! The order in which frames leave a receive queue. Enqueuing and all removal
sites work at its head ("FIXME - misorders packets"), so a frame is in order
only if nothing else is queued when it leaves. -/

namespace DeviceDrivers.Snull
open Runs Stacks

def Point.enters : Point → Option (Dev × Addr)
  | .enqueue tx pkt => some (tx.dest, pkt)
  | _ => none

def Point.leaves (cfg : Config) (memory : Bool) (s : State) : Point → Option (Dev × Addr)
  | .interrupt dev _ => (interruptSection cfg memory dev s).1.map fun pkt => (dev, pkt)
  | .pollDequeue dev _ _ => (snullDequeueBuf dev s).1.map fun pkt => (dev, pkt)
  | _ => none

def Action.enters (m : Machine) : Action → Option (Dev × Addr)
  | .run index _ => m.calls[index]?.bind Point.enters
  | _ => none

def Action.leaves (cfg : Config) (m : Machine) : Action → Option (Dev × Addr)
  | .run index memory => m.calls[index]?.bind (Point.leaves cfg memory m.state)
  | _ => none

def record (log : Dev → List Addr) : Option (Dev × Addr) → Dev → List Addr
  | none => log
  | some (dev, pkt) => Function.update log dev (log dev ++ [pkt])

/-- The system with the packets that entered and left each receive queue, in order. -/
structure Watched where
  machine : Machine
  entered : Dev → List Addr
  left : Dev → List Addr

namespace Watched

def step (cfg : Config) (w : Watched) (action : Action) : Option Watched :=
  (w.machine.step cfg action).map fun machine =>
    ⟨machine, record w.entered (action.enters w.machine), record w.left (action.leaves cfg w.machine)⟩

def start (s : State) : Watched := ⟨⟨s, []⟩, fun _ => [], fun _ => []⟩

/-- Frames have left every receive queue in the order in which they entered it. -/
def InOrder (w : Watched) : Prop := ∀ dev, w.left dev <+: w.entered dev

/-- A packet is taken off a receive queue only when no other is queued behind it. -/
def TakesAlone (cfg : Config) (w : Watched) (action : Action) : Prop :=
  ((action.leaves cfg w.machine).bind fun (_, pkt) => (w.machine.state.heap pkt).next) = none

instance (cfg : Config) (w : Watched) (action : Action) : Decidable (w.TakesAlone cfg action) :=
  inferInstanceAs (Decidable (_ = _))

def traffic (w : Watched) (l : Lists) (dev : Dev) : Traffic Addr := ⟨l.rx dev, w.entered dev, w.left dev⟩

end Watched

variable {cfg : Config} {l : Lists} {bufs : List Addr}

private theorem dequeued_head (dev : Dev) (s : State) :
    (snullDequeueBuf dev s).1 = s.control.links.rxQueue dev := by
  have head : s.control.links.rxQueue dev = (s.priv dev).rxQueue := rfl
  rw [head, snullDequeueBuf]
  split <;> simp_all

/-- What a step does to the receive queue of `dev` if `leaving` is what it unlinks. -/
inductive Moved (leaving : Option (Dev × Addr)) (s : State) (dev : Dev) (before : Traffic Addr) :
    Traffic Addr → Prop where
  | stayed (other : ∀ pkt, leaving ≠ some (dev, pkt)) : Moved leaving s dev before before
  | entered {pkt} (other : ∀ pkt, leaving ≠ some (dev, pkt)) : Moved leaving s dev before (before.push pkt)
  | left {pkt rest} (leaves : leaving = some (dev, pkt)) (front : before.waiting = pkt :: rest)
      (alone : rest = [] ↔ (s.heap pkt).next = none) : Moved leaving s dev before before.pop

private theorem removed {s : State} {other : Dev} {pkt : Addr} (holds : Represents s.control.links l)
    (head : s.control.links.rxQueue other = some pkt) (entered left : Dev → List Addr) (dev : Dev) :
    Moved (some (other, pkt)) s dev ⟨l.rx dev, entered dev, left dev⟩
      ⟨(l.dequeue other).rx dev, entered dev, record left (some (other, pkt)) dev⟩ := by
  obtain ⟨rest, front, tail⟩ := holds.rx_front head
  by_cases same : dev = other
  · subst other
    have after : Traffic.mk ((l.dequeue dev).rx dev) (entered dev) (record left (some (dev, pkt)) dev) =
        (Traffic.mk (l.rx dev) (entered dev) (left dev)).pop := by
      simp [Lists.dequeue, record, Traffic.pop, front]
    rw [after]
    exact .left rfl front tail.nil_iff
  · have after : Traffic.mk ((l.dequeue other).rx dev) (entered dev) (record left (some (other, pkt)) dev) =
        ⟨l.rx dev, entered dev, left dev⟩ := by
      simp [Lists.dequeue, record, same]
    rw [after]
    exact .stayed (by simp [Ne.symm same])

theorem Point.moved {memory : Bool} {s s' : State} {point : Point} {progress : Progress}
    (stepped : point.step cfg memory s = some (progress, s')) (holds : Represents s.control.links l)
    (entered left : Dev → List Addr) (dev : Dev) :
    Moved (point.leaves cfg memory s) s dev ⟨l.rx dev, entered dev, left dev⟩
      ⟨(point.effect cfg s.control l).rx dev, record entered point.enters dev,
        record left (point.leaves cfg memory s) dev⟩ := by
  have advance := Point.step_advance stepped
  generalize s'.control = after at advance
  cases advance with
  | @enqueued tx pkt =>
    by_cases same : dev = tx.dest
    · subst same
      have after : Traffic.mk ((l.enqueue tx.dest pkt).rx tx.dest)
          (record entered (some (tx.dest, pkt)) tx.dest) (left tx.dest) =
          (Traffic.mk (l.rx tx.dest) (entered tx.dest) (left tx.dest)).push pkt := by
        simp [Lists.enqueue, record, Traffic.push]
      exact after ▸ .entered (by simp [Point.leaves])
    · have after : Traffic.mk ((l.enqueue tx.dest pkt).rx dev) (record entered (some (tx.dest, pkt)) dev)
          (left dev) = ⟨l.rx dev, entered dev, left dev⟩ := by
        simp [Lists.enqueue, record, same]
      exact after ▸ .stayed (by simp [Point.leaves])
  | @received other caller pkt signalled head =>
    obtain ⟨taken, _⟩ := interruptSection_control cfg memory other s
    simp only [Point.leaves, Point.effect, Point.enters, taken, signalled, if_true, head, Option.map_some]
    exact removed holds head entered left dev
  | @handled other caller nothing =>
    obtain ⟨taken, _⟩ := interruptSection_control cfg memory other s
    by_cases signalled : s.control.Signalled cfg other
    · simp only [Point.leaves, Point.effect, Point.enters, taken, signalled, if_true, nothing signalled,
        Option.map_none, Lists.dequeue_empty (holds.rx_nil.mpr (nothing signalled))]
      exact .stayed (by simp)
    · simp only [Point.leaves, Point.effect, Point.enters, taken, signalled, if_false, Option.map_none]
      exact .stayed (by simp)
  | @dequeued other npackets quota pkt head =>
    simp only [Point.leaves, Point.effect, Point.enters, dequeued_head, head, Option.map_some]
    exact removed holds head entered left dev
  | _ => exact .stayed (by simp [Point.leaves])

namespace Watched
variable {w w' : Watched} {action : Action}

theorem moved (holds : Represents w.machine.state.control.links l) (stepped : w.step cfg action = some w')
    (dev : Dev) :
    Moved (action.leaves cfg w.machine) w.machine.state dev (w.traffic l dev)
      (w'.traffic (action.effect cfg w.machine l) dev) := by
  obtain ⟨machine, taken, same⟩ := Option.map_eq_some_iff.mp stepped
  subst same
  cases Machine.step_cases taken with
  | ran found shape ran =>
    simp only [traffic, Action.leaves, Action.effect, Action.enters, found, Option.bind_some]
    exact Point.moved ran holds w.entered w.left dev
  | _ => exact .stayed (by simp [Action.leaves])

/-- The packets are shared out, and what entered each receive queue has left it or waits in it. -/
def Accounted (bufs : List Addr) (w : Watched) : Prop :=
  ∃ l, Conserved bufs w.machine l ∧ ∀ dev, (w.traffic l dev).Accounted

theorem Accounted.step (distinct : bufs.Nodup) (accounted : w.Accounted bufs) (alone : w.TakesAlone cfg action)
    (stepped : w.step cfg action = some w') : w'.Accounted bufs := by
  obtain ⟨l, kept, accounted⟩ := accounted
  obtain ⟨machine, taken, same⟩ := Option.map_eq_some_iff.mp stepped
  refine ⟨action.effect cfg w.machine l, ?_, ?_⟩
  · subst same
    exact kept.step distinct taken
  · intro dev
    have moved := moved kept.represents stepped dev
    generalize w'.traffic (action.effect cfg w.machine l) dev = after at moved
    cases moved with
    | stayed => exact accounted dev
    | entered => exact (accounted dev).push _
    | left leaves front single =>
      rw [single.mpr (by simpa [TakesAlone, leaves] using alone)] at front
      exact (accounted dev).pop_alone front

private theorem Accounted.overtaken (accounted : w.Accounted bufs) (crowded : ¬ w.TakesAlone cfg action)
    (stepped : w.step cfg action = some w') : ¬ w'.InOrder := by
  obtain ⟨l, kept, accounted⟩ := accounted
  obtain ⟨second, behind⟩ := Option.ne_none_iff_exists'.mp crowded
  obtain ⟨⟨dev, pkt⟩, leaves, behind⟩ := Option.bind_eq_some_iff.mp behind
  intro ordered
  have moved := moved kept.represents stepped dev
  have ordered : (w'.traffic (action.effect cfg w.machine l) dev).InOrder := ordered dev
  generalize w'.traffic (action.effect cfg w.machine l) dev = after at moved ordered
  cases moved with
  | stayed other => exact other pkt leaves
  | entered other => exact other pkt leaves
  | @left front rest taken shape single =>
    have same : front = pkt := by simpa [leaves] using taken.symm
    subst same
    have distinct := (kept.represents.queues dev).nodup
    have others : rest ≠ [] := by simp [single, behind]
    exact (accounted dev).pop_overtakes distinct shape others ordered

theorem Accounted.initial {kmalloc : Dev → Nat → Bool} {contents : Addr → Packet} :
    (start (setUp cfg kmalloc contents)).Accounted (List.range (setUp cfg kmalloc contents).fresh) := by
  obtain ⟨l, stocked⟩ := @setUp_stocked cfg kmalloc contents
  refine ⟨l, ⟨stocked.represents, by simpa [start] using stocked.complete⟩, ?_⟩
  intro dev
  simp [Traffic.Accounted, traffic, start, stocked.quiet]

end Watched

/-- In either mode, from the set-up devices and over any interleaving of any
calls: frames leave every receive queue in the order in which they entered it,
all along, exactly if each was the only one queued when it was taken. -/
theorem in_order_iff (cfg : Config) (kmalloc : Dev → Nat → Bool) (contents : Addr → Packet)
    (actions : List Action) (w : Watched)
    (run : Run (Watched.step cfg) (fun _ _ => True) (.start (setUp cfg kmalloc contents)) actions w) :
    Throughout (Watched.step cfg) (fun _ _ => True) (.start (setUp cfg kmalloc contents)) actions Watched.InOrder ↔
      Run (Watched.step cfg) (Both (fun _ _ => True) (Watched.TakesAlone cfg))
        (.start (setUp cfg kmalloc contents)) actions w := by
  have distinct := List.nodup_range (n := (setUp cfg kmalloc contents).fresh)
  apply run.throughout_iff (Watched.Accounted (List.range (setUp cfg kmalloc contents).fresh)) Watched.InOrder
  · exact .initial
  · intro w action w' accounted _ alone stepped
    exact accounted.step distinct alone stepped
  · intro w ⟨l, _, accounted⟩ dev
    exact (accounted dev).inOrder
  · intro w action w' accounted _ crowded stepped
    exact accounted.overtaken crowded stepped

/-- A ping of sn0 to itself, undisturbed. -/
theorem in_order_iff_ping : ∃ actions, ∃ w : Watched, w.left .sn0 = [1] ∧
    Throughout (Watched.step (sample 2 0)) (fun _ _ => True)
      (.start (setUp (sample 2 0) (fun _ _ => true) sampleMemory)) actions Watched.InOrder := by
  have reached : ∃ w : Watched, Run (Watched.step (sample 2 0))
      (Both (fun _ _ => True) (Watched.TakesAlone (sample 2 0)))
      (.start (setUp (sample 2 0) (fun _ _ => true) sampleMemory))
      (.open .sn0 :: .startTx .sn0 ⟨0, samplePing⟩ [] :: List.replicate 13 (.run 0 true)) w ∧
      w.left .sn0 = [1] := reaches_of_execute (by decide +kernel)
  obtain ⟨w, run, left⟩ := reached
  have ordered := (in_order_iff _ _ _ _ w (run.mono fun _ _ both => both.1)).mpr run
  exact ⟨_, w, left, ordered⟩

/-- sn0 sends a frame to sn1 and sn1 pings itself. Both are queued before the
first interrupt, which takes the second frame. -/
theorem frames_misordered : ¬ ∀ (cfg : Config) (kmalloc : Dev → Nat → Bool) (contents : Addr → Packet)
    (actions : List Action) (w : Watched),
    Run (Watched.step cfg) (fun _ _ => True) (.start (setUp cfg kmalloc contents)) actions w →
    w.InOrder := by
  intro claim
  have reached : ∃ w : Watched, Run (Watched.step (sample 2 0)) (fun _ _ => True)
      (.start (setUp (sample 2 0) (fun _ _ => true) sampleMemory))
      (.open .sn0 :: .open .sn1 :: .startTx .sn0 ⟨0, samplePlain⟩ [] :: List.replicate 4 (.run 0 true) ++
        .startTx .sn1 ⟨1, samplePing⟩ [] :: List.replicate 4 (.run 1 true) ++
        List.replicate 3 (.run 0 true)) w ∧
      w.entered .sn1 = [1, 3] ∧ w.left .sn1 = [3] := reaches_of_execute (by decide +kernel)
  obtain ⟨w, run, entered, left⟩ := reached
  have ordered := claim _ _ _ _ w run .sn1
  rw [entered, left] at ordered
  simp at ordered

end DeviceDrivers.Snull
