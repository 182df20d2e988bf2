import DeviceDrivers.Proofs.SnullPoll
import DeviceDrivers.Proofs.SnullStranding

/-! The polling mode as an agreement between handler and kernel: the handler
masks receive interrupts and asks for a poll, which unmasks them. The request
is commented out in the handler and made nowhere else, so the first frame that
is announced is the last one. -/

namespace DeviceDrivers.Snull
open Chains Quotas Runs
open Interleavings (mem_replaced all_started all_replaced)

@[simp] def Point.handled : Point → Option Dev
  | .interrupt dev _ => some dev
  | _ => none

/-- The system with the polls that the kernel has been asked for and has not started. -/
structure Napi where
  machine : Machine
  scheduled : Dev → Bool

namespace Napi

/-- A poll is started when one is scheduled. No step of a call schedules one. -/
def step (cfg : Config) (n : Napi) : Action → Option Napi
  | .startPoll dev budget =>
    if n.scheduled dev then
      (n.machine.step cfg (.startPoll dev budget)).map fun machine =>
        ⟨machine, Function.update n.scheduled dev false⟩
    else none
  | action => (n.machine.step cfg action).map fun machine => { n with machine := machine }

def start (s : State) : Napi := ⟨⟨s, []⟩, fun _ => false⟩

def Allowed (n : Napi) : Action → Prop
  | .startTx dev _ _ => (n.machine.state.device dev).stopped = false
  | .startInterrupt _ | .startPoll _ _ | .run _ _ => True
  | _ => False

instance (n : Napi) (action : Action) : Decidable (n.Allowed action) :=
  match action with
  | .startTx _ _ _ => inferInstanceAs (Decidable (_ = _))
  | .startInterrupt _ | .startPoll _ _ | .run _ _ => inferInstanceAs (Decidable True)
  | .open _ | .release _ | .changeMtu _ _ | .startTimeout _ => inferInstanceAs (Decidable False)

def Polled (n : Napi) (dev : Dev) : Prop :=
  n.scheduled dev = true ∨ ∃ point ∈ n.machine.calls, point.poller = some dev

def Announced (n : Napi) (dev : Dev) : Prop :=
  (∃ point ∈ n.machine.calls, point.announcing dev = true) ∨
    raised (n.machine.state.priv dev).status snullRxIntr = true

/-- A masked device is polled, and a queued frame has an interrupt or a poll to collect it. -/
def Attended (n : Napi) : Prop :=
  ∀ dev, ((n.machine.state.priv dev).rxIntEnabled = false → n.Polled dev) ∧
    ((n.machine.state.priv dev).rxQueue ≠ none → n.Polled dev ∨ n.Announced dev)

def Unsignalled (n : Napi) : Action → Prop
  | .run index _ => (n.machine.calls[index]?.bind Point.handled).all fun dev =>
      !raised (n.machine.state.priv dev).status snullRxIntr
  | _ => True

instance (n : Napi) (action : Action) : Decidable (n.Unsignalled action) :=
  match action with
  | .run _ _ => inferInstanceAs (Decidable (_ = true))
  | .open _ | .release _ | .changeMtu _ _ | .startTx _ _ _ | .startTimeout _ | .startInterrupt _ | .startPoll _ _ =>
    inferInstanceAs (Decidable True)

end Napi

section Steps
variable {cfg : Config} {c c' : Control} {point : Point} {progress : Progress}

theorem Advance.queued (advance : Advance cfg c point progress c') {dev : Dev}
    (queued : c'.links.rxQueue dev ≠ none) :
    c.links.rxQueue dev ≠ none ∨ ∃ next ∈ progress.points, next.announcing dev = true := by
  cases advance with
  | @enqueued tx pkt =>
    by_cases same : tx.dest = dev
    · exact .inr ⟨_, List.mem_singleton_self _, by simp [same]⟩
    · exact .inl (by simpa [Links.enqueue, Ne.symm same] using queued)
  | @received other caller pkt signalled head | @dequeued other npackets quota pkt head =>
    left
    by_cases same : dev = other
    · simp [same, head]
    · simpa [Links.dequeue, same] using queued
  | _ => exact .inl queued

section Quiet
variable (undisturbed : ∀ dev, point ≠ .enterTimeout dev) (enabled : ∀ dev, c.rxIntEnabled dev = true)
  (unsignalled : ∀ dev caller, point = .interrupt dev caller → raised (c.status dev) snullRxIntr = false) {dev : Dev}
include undisturbed enabled unsignalled

theorem Advance.announced (advance : Advance cfg c point progress c')
    (announced : point.announcing dev = true ∨ raised (c.status dev) snullRxIntr = true) :
    (∃ next ∈ progress.points, next.announcing dev = true) ∨ raised (c'.status dev) snullRxIntr = true := by
  cases advance with
  | unmasked => exact announced.imp_left fun announcing => ⟨_, List.mem_singleton_self _, by simpa using announcing⟩
  | @masked tx disabled =>
    rw [enabled] at disabled
    cases disabled
  | @raisedRx tx =>
    right
    by_cases same : dev = tx.dest
    · simp [same, raised_or]
    · simpa [same, Ne.symm same] using announced
  | @raisedTx tx =>
    right
    by_cases same : dev = tx.dev
    · subst same
      simpa [raised_or] using announced
    · simpa [same] using announced
  | @received other caller | @handled other caller =>
    right
    by_cases same : dev = other
    · subst same
      simp [unsignalled dev caller rfl] at announced
    · simpa [same] using announced
  | timedOut => exact absurd rfl (undisturbed _)
  | _ => exact .inr (by simpa using announced)

/-- If a queued frame is announced by some call or by the status word, so it is after a step. -/
theorem Advance.answers (advance : Advance cfg c point progress c') {calls before after : List Point}
    (shape : calls = before ++ point :: after)
    (announced : c.links.rxQueue dev ≠ none →
      (∃ other ∈ calls, other.announcing dev = true) ∨ raised (c.status dev) snullRxIntr = true)
    (queued : c'.links.rxQueue dev ≠ none) :
    (∃ other ∈ before ++ progress.points ++ after, other.announcing dev = true) ∨
      raised (c'.status dev) snullRxIntr = true := by
  have here (made : (∃ next ∈ progress.points, next.announcing dev = true) ∨
      raised (c'.status dev) snullRxIntr = true) :
      (∃ other ∈ before ++ progress.points ++ after, other.announcing dev = true) ∨
        raised (c'.status dev) snullRxIntr = true := by
    apply made.imp_left
    rintro ⟨next, member, announcing⟩
    exact ⟨next, mem_replaced.mpr (.inl member), announcing⟩
  rcases advance.queued queued with waiting | made
  · rcases announced waiting with ⟨other, member, announcing⟩ | signalled
    · by_cases own : other = point
      · exact here (advance.announced undisturbed enabled unsignalled (.inl (own ▸ announcing)))
      · left
        refine ⟨other, mem_replaced.mpr (.inr ?_), announcing⟩
        simpa [shape, own] using member
    · exact here (advance.announced undisturbed enabled unsignalled (.inr signalled))
  · exact here (.inl made)

end Quiet

theorem Advance.masks {dev : Dev} {caller : Caller} (advance : Advance cfg c (.interrupt dev caller) progress c')
    (napi : cfg.useNapi = true) (signalled : raised (c.status dev) snullRxIntr = true) :
    c'.rxIntEnabled dev = false := by
  cases advance with
  | received regular =>
    have mode := regular.1
    rw [napi] at mode
    cases mode
  | handled => simp [napi, signalled]

private theorem Advance.stays_masked (advance : Advance cfg c point progress c') (unpolled : point.poller = none)
    {dev : Dev}
    (masked : c.rxIntEnabled dev = false) : c'.rxIntEnabled dev = false := by
  cases advance with
  | handled =>
    split
    · simp only [Function.update_apply]
      split
      · rfl
      · exact masked
    · exact masked
  | pollEnabled => cases unpolled
  | _ => exact masked

theorem Advance.undisturbed (advance : Advance cfg c point progress c') :
    ∀ next ∈ progress.points, ∀ dev, next ≠ .enterTimeout dev := by
  have resumed (caller : Caller) : ∀ next ∈ caller.resume.points, ∀ dev, next ≠ .enterTimeout dev := by
    cases caller <;> simp [Caller.resume]
  cases advance with
  | handled | wakeUnwanted | woken => exact resumed _
  | _ => simp

end Steps

namespace Napi
variable {cfg : Config} {n n' : Napi} {action : Action}

structure Unasked (n : Napi) : Prop where
  unscheduled : ∀ dev, n.scheduled dev = false
  unpolled : ∀ point ∈ n.machine.calls, point.poller = none
  undisturbed : ∀ point ∈ n.machine.calls, ∀ dev, point ≠ .enterTimeout dev

/-- As long as no handler has seen a received frame. -/
structure Untouched (n : Napi) : Prop extends Unasked n where
  enabled : ∀ dev, n.machine.state.control.rxIntEnabled dev = true
  announced : ∀ dev, (n.machine.state.priv dev).rxQueue ≠ none → n.Announced dev

inductive Stepped (cfg : Config) (n : Napi) : Action → Napi → Prop where
  | started {action point} (calm : point.poller = none) (undisturbed : ∀ dev, point ≠ .enterTimeout dev)
      (unsignalled : n.Unsignalled action) : Stepped cfg n action { n with machine := n.machine.start point }
  | ran {index memory before point after progress state} (found : n.machine.calls[index]? = some point)
      (shape : n.machine.calls = before ++ point :: after)
      (stepped : point.step cfg memory n.machine.state = some (progress, state)) :
      Stepped cfg n (.run index memory) { n with machine := ⟨state, before ++ progress.points ++ after⟩ }

theorem step_cases (unscheduled : ∀ dev, n.scheduled dev = false) (allowed : n.Allowed action)
    (stepped : n.step cfg action = some n') : Stepped cfg n action n' := by
  cases action with
  | «open» | release | changeMtu | startTimeout => cases allowed
  | startPoll dev budget => simp [step, unscheduled] at stepped
  | startTx dev skb beyond =>
    obtain ⟨machine, taken, same⟩ := Option.map_eq_some_iff.mp stepped
    subst same
    cases Machine.step_cases taken
    exact .started rfl (by simp) trivial
  | startInterrupt dev =>
    cases stepped
    exact .started rfl (by simp) trivial
  | run index memory =>
    obtain ⟨machine, taken, same⟩ := Option.map_eq_some_iff.mp stepped
    subst same
    cases Machine.step_cases taken with
    | ran found shape ran => exact .ran found shape ran

theorem Untouched.attended (untouched : n.Untouched) : n.Attended := by
  intro dev
  refine ⟨?_, fun queued => .inr (untouched.announced dev queued)⟩
  intro masked
  have enabled : (n.machine.state.priv dev).rxIntEnabled = true := untouched.enabled dev
  rw [masked] at enabled
  cases enabled

theorem Unasked.step (unasked : n.Unasked) (allowed : n.Allowed action) (stepped : n.step cfg action = some n') :
    n'.Unasked := by
  cases step_cases unasked.unscheduled allowed stepped with
  | started calm undisturbed =>
    exact ⟨unasked.unscheduled, all_started unasked.unpolled calm, all_started unasked.undisturbed undisturbed⟩
  | ran found shape taken =>
    have advance := Point.step_advance taken
    refine ⟨unasked.unscheduled, ?_, all_replaced unasked.undisturbed shape fun _ => advance.undisturbed⟩
    apply all_replaced unasked.unpolled shape
    intro unpolled other rest
    rw [advance.poller other rest, unpolled]

private theorem Unasked.unattended (unasked : n.Unasked) {dev : Dev}
    (masked : n.machine.state.control.rxIntEnabled dev = false) : ¬ n.Attended := by
  intro attended
  rcases (attended dev).1 masked with scheduled | ⟨point, member, polls⟩
  · rw [unasked.unscheduled] at scheduled
    cases scheduled
  · rw [unasked.unpolled point member] at polls
    cases polls

theorem Untouched.step (untouched : n.Untouched) (allowed : n.Allowed action) (unsignalled : n.Unsignalled action)
    (stepped : n.step cfg action = some n') : n'.Untouched := by
  have unasked := untouched.toUnasked.step allowed stepped
  cases step_cases untouched.unscheduled allowed stepped with
  | @started _ point calm undisturbed =>
    refine ⟨unasked, untouched.enabled, ?_⟩
    intro dev queued
    apply (untouched.announced dev queued).imp_left
    rintro ⟨other, member, announcing⟩
    exact ⟨other, List.mem_append_left _ member, announcing⟩
  | @ran index memory before point after progress state found shape taken =>
    have running : point ∈ n.machine.calls := by simp [shape]
    have advance := Point.step_advance taken
    have unseen (dev : Dev) (caller : Caller) (entered : point = .interrupt dev caller) :
        raised (n.machine.state.control.status dev) snullRxIntr = false := by
      subst entered
      have silent : raised (n.machine.state.priv dev).status snullRxIntr = false := by
        simpa [Unsignalled, found] using unsignalled
      exact silent
    refine ⟨unasked, ?_, ?_⟩
    · apply advance.enabled _ untouched.enabled
      intro dev caller entered
      simp [unseen dev caller entered]
    · intro dev queued
      exact advance.answers (untouched.undisturbed point running) untouched.enabled unseen shape
        (untouched.announced dev) queued

theorem Untouched.masked (untouched : n.Untouched) (napi : cfg.useNapi = true) (allowed : n.Allowed action)
    (signalled : ¬ n.Unsignalled action) (stepped : n.step cfg action = some n') : ¬ n'.Attended := by
  have unasked := untouched.toUnasked.step allowed stepped
  cases step_cases untouched.unscheduled allowed stepped with
  | started _ _ unsignalled => exact absurd unsignalled signalled
  | @ran index memory before point after progress state found shape taken =>
    simp only [Unsignalled, found, Option.bind_some] at signalled
    cases point with
    | interrupt dev caller =>
      have seen : raised (n.machine.state.priv dev).status snullRxIntr = true := by simpa using signalled
      exact unasked.unattended ((Point.step_advance taken).masks napi seen)
    | _ => exact absurd rfl signalled

theorem Untouched.initial {kmalloc : Dev → Nat → Bool} {contents : Addr → Packet} :
    (start (opened cfg kmalloc contents)).Untouched := by
  have fresh (dev : Dev) : ((opened cfg kmalloc contents).priv dev).rxQueue = none ∧
      ((opened cfg kmalloc contents).priv dev).rxIntEnabled = true := by
    have same : (opened cfg kmalloc contents).priv dev = (setUp cfg kmalloc contents).priv dev := by
      cases dev <;> rfl
    obtain ⟨head, device⟩ := @setUp_device cfg kmalloc contents dev
    rw [same, State.priv, device]
    exact ⟨rfl, rfl⟩
  refine ⟨⟨fun _ => rfl, by simp [start], by simp [start]⟩, fun dev => (fresh dev).2, ?_⟩
  intro dev queued
  exact absurd (fresh dev).1 queued

/-- Once a device is masked it stays so, and is never attended to again. -/
theorem masked_for_good {kmalloc : Dev → Nat → Bool} {contents : Addr → Packet} {before after : List Action}
    {dev : Dev}
    (earlier : Run (step cfg) Allowed (start (opened cfg kmalloc contents)) before n)
    (masked : n.machine.state.control.rxIntEnabled dev = false) (run : Run (step cfg) Allowed n after n') :
    n'.machine.state.control.rxIntEnabled dev = false ∧ ¬ n'.Attended := by
  have unasked : n.Unasked := earlier.invariant Unasked Untouched.initial.toUnasked
    fun _ _ _ unasked allowed stepped => unasked.step allowed stepped
  have kept := run.invariant (fun n => n.Unasked ∧ n.machine.state.control.rxIntEnabled dev = false)
    ⟨unasked, masked⟩ ?_
  · exact ⟨kept.2, kept.1.unattended kept.2⟩
  · intro n action n' ⟨unasked, masked⟩ allowed stepped
    refine ⟨unasked.step allowed stepped, ?_⟩
    cases step_cases unasked.unscheduled allowed stepped with
    | started => exact masked
    | ran found shape taken =>
      exact (Point.step_advance taken).stays_masked (unasked.unpolled _ (by simp [shape])) masked

end Napi

private theorem worked_off_reported {alloc : Nat → Bool} {budget : Nat} {queue removed rest : List Addr}
    (worked : WorkedOff alloc budget queue removed rest) :
    rest ≠ [] ∧ removed.length ≤ budget ∧ (successes alloc removed).length = 1 ↔
      budget = 1 ∧ alloc 0 = true ∧ 1 < queue.length := by
  have whole : queue.length = removed.length + rest.length := by rw [worked.split, List.length_append]
  constructor
  · rintro ⟨some, within, reported⟩
    have single : budget = 1 := (worked.enough some).symm.trans reported
    have waiting := List.length_pos_iff.mpr some
    have received := @successes_length_le _ alloc removed
    have first := worked.done_length_le_iff.mp within
    exact ⟨single, first.elim (by omega) fun succeeds => succeeds 0 (by omega), by omega⟩
  · rintro ⟨rfl, first, more⟩
    have within : removed.length ≤ 1 := by
      apply worked.done_length_le_iff.mpr
      right
      intro call below
      exact Nat.lt_one_iff.mp below ▸ first
    have some : rest ≠ [] := List.length_pos_iff.mp (by omega)
    exact ⟨some, within, worked.enough some⟩

/-- The poll has taken at most its budget off the queue and returns how many frames it passed up. -/
structure Reported (budget : Nat) (s after : State) (value : Int) (removed : List Addr) : Prop where
  within : removed.length ≤ budget
  processed : (after.passedUp.length : Int) = s.passedUp.length + value

def Reports (napiDisable : Bool → State → Option State) (fuel : Nat) (alloc : Nat → Bool) (dev : Dev) (budget : Nat)
    (s : State) (queue : List Addr) : Prop :=
  ∃ removed rest value after, snullPoll napiDisable fuel alloc dev budget s = some (value, after) ∧
    queue = removed ++ rest ∧ Chain (fun pkt => (after.heap pkt).next) (after.priv dev).rxQueue rest ∧
    Reported budget s after value removed

private theorem snullPoll_reports_iff {napiDisable : Bool → State → Option State}
    (waits : ∀ s, napiDisable true s = none)
    {alloc : Nat → Bool} {dev : Dev} {budget : Nat} {s : State} {queue : List Addr}
    (finite : Chain (fun pkt => (s.heap pkt).next) (s.priv dev).rxQueue queue)
    {fuel : Nat} (enough : queue.length < fuel) :
    (∃ counted after, snullPollLoop dev budget fuel alloc 0 s = some (counted, after) ∧
      after.passedUp.length = s.passedUp.length + counted ∧ counted ≤ budget) ∧
    (Reports napiDisable fuel alloc dev budget s queue ↔ budget = 1 ∧ alloc 0 = true ∧ 1 < queue.length) := by
  obtain ⟨removed, rest, after, ran, worked, collected, _⟩ :=
    @snullPollLoop_collects dev s 0 alloc budget fuel queue (Nat.zero_le _) finite enough
  rw [Nat.zero_add] at ran
  rw [Nat.sub_zero] at worked
  have passed : after.passedUp.length = s.passedUp.length + (successes alloc removed).length := by
    simp [collected.passedUp]
  refine ⟨⟨_, after, ran, passed, worked.successes_le⟩, ?_⟩
  rw [← worked_off_reported worked]
  constructor
  · rintro ⟨taken, left, value, final, returned, split, queued, within, processed⟩
    obtain ⟨counted, again, more, rfl⟩ := (snullPoll_returns waits).mp returned
    cases ran.symm.trans again
    obtain rfl := queued.unique collected.queue
    obtain rfl := List.append_cancel_right (split.symm.trans worked.split)
    exact ⟨fun none => more (collected.queue.nil_iff.mp none), within, by omega⟩
  · rintro ⟨some, within, one⟩
    have more : (after.priv dev).rxQueue ≠ none := fun none => some (collected.queue.nil_iff.mpr none)
    have returned := (snullPoll_returns waits).mpr ⟨_, ran, more, rfl⟩
    exact ⟨removed, rest, 1, after, returned, worked.split, collected.queue, within, by omega⟩

/-- Polling mode, from the opened devices: in every state of a run, a masked
device is polled and a queued frame has an interrupt or a poll to collect it,
exactly if no handler ever sees a received frame. A poll of any finite queue passes
up no more than its budget, but it returns what it has processed in one case only. -/
theorem handshake_iff (cfg : Config) (kmalloc : Dev → Nat → Bool) (contents : Addr → Packet)
    (napi : cfg.useNapi = true) (napiDisable : Bool → State → Option State) (waits : ∀ s, napiDisable true s = none)
    (actions : List Action) (n : Napi)
    (run : Run (Napi.step cfg) Napi.Allowed (.start (opened cfg kmalloc contents)) actions n) :
    (Throughout (Napi.step cfg) Napi.Allowed (.start (opened cfg kmalloc contents)) actions Napi.Attended ↔
      Run (Napi.step cfg) (Both Napi.Allowed Napi.Unsignalled) (.start (opened cfg kmalloc contents)) actions n) ∧
    ∀ alloc dev budget s queue, Chain (fun pkt => (s.heap pkt).next) (s.priv dev).rxQueue queue →
      ∀ fuel, queue.length < fuel →
        (∃ counted after, snullPollLoop dev budget fuel alloc 0 s = some (counted, after) ∧
          after.passedUp.length = s.passedUp.length + counted ∧ counted ≤ budget) ∧
        (Reports napiDisable fuel alloc dev budget s queue ↔ budget = 1 ∧ alloc 0 = true ∧ 1 < queue.length) := by
  refine ⟨?_, ?_⟩
  · apply run.throughout_iff Napi.Untouched Napi.Attended
    · exact .initial
    · intro n action n' untouched allowed unsignalled stepped
      exact untouched.step allowed unsignalled stepped
    · intro n untouched
      exact untouched.attended
    · intro n action n' untouched allowed signalled stepped
      exact untouched.masked napi allowed signalled stepped
  · intro alloc dev budget s queue finite fuel enough
    exact snullPoll_reports_iff waits finite enough

def samplePolling : Config := { sample 2 0 with useNapi := true }

/-- A frame for sn1 up to the point where its interrupt is raised. -/
theorem handshake_iff_announced : ∃ actions, ∃ n : Napi, (n.machine.state.priv .sn1).rxQueue = some 1 ∧
    Throughout (Napi.step samplePolling) Napi.Allowed
      (.start (opened samplePolling (fun _ _ => true) sampleMemory)) actions Napi.Attended := by
  have reached : ∃ n : Napi, Run (Napi.step samplePolling) (Both Napi.Allowed Napi.Unsignalled)
      (.start (opened samplePolling (fun _ _ => true) sampleMemory))
      (.startTx .sn0 ⟨0, samplePlain⟩ [] :: List.replicate 6 (.run 0 true)) n ∧
      (n.machine.state.priv .sn1).rxQueue = some 1 := reaches_of_execute (by decide +kernel)
  obtain ⟨n, run, queued⟩ := reached
  have attended := (handshake_iff samplePolling _ _ rfl documented (fun _ => rfl) _ n
    (run.mono fun _ _ both => both.1)).1.mpr run
  exact ⟨_, n, queued, attended⟩

/-- The same transmission to its end: sn1 is masked, its frame is still queued,
and there is neither a call in progress nor a poll scheduled. -/
theorem receiver_left_masked : ¬ ∀ (cfg : Config) (kmalloc : Dev → Nat → Bool) (contents : Addr → Packet)
    (actions : List Action) (n : Napi), cfg.useNapi = true →
    Run (Napi.step cfg) Napi.Allowed (.start (opened cfg kmalloc contents)) actions n → n.Attended := by
  intro claim
  have reached : ∃ n : Napi, Run (Napi.step samplePolling) Napi.Allowed
      (.start (opened samplePolling (fun _ _ => true) sampleMemory))
      (.startTx .sn0 ⟨0, samplePlain⟩ [] :: List.replicate 11 (.run 0 true)) n ∧
      (n.machine.state.priv .sn1).rxIntEnabled = false ∧ n.scheduled .sn1 = false ∧
        n.machine.calls = [] := reaches_of_execute (by decide +kernel)
  obtain ⟨n, run, masked, unscheduled, idle⟩ := reached
  rcases (claim _ _ _ _ n rfl run .sn1).1 masked with scheduled | ⟨point, member, _⟩
  · simp [unscheduled] at scheduled
  · simp [idle] at member

end DeviceDrivers.Snull
