import DeviceDrivers.Proofs.SerialSteps

/-! What becomes of the bytes that the serial driver receives. The handler keeps
the last one in `rbuff` and raises `rflag`; a reader waits for the flag, copies
the byte and lowers the flag, each on its own. -/

namespace DeviceDrivers.Serial
open Runs Interleavings

variable {s s' : State} {m m' : Machine} {point : Point} {progress : Progress Point}

/-- A byte that was given to no reader was overwritten while `rflag` was raised, or
is still waiting in `rbuff`. -/
def Accounted (m : Machine) : Prop :=
  ∀ index < m.shared.received.length, index ∈ m.shared.returned.map Prod.fst ∨ index ∈ m.shared.overwritten ∨
    index + 1 = m.shared.received.length ∧ (m.shared.rflag ≠ 0 ∨ .raiseRflag ∈ m.calls)

/-- Readers are given bytes in the order they came, and no byte is given to two. -/
structure HandedOff (m : Machine) : Prop where
  ordered : (m.shared.returned.map Prod.fst).Pairwise (· < ·)
  own : ∀ item ∈ m.shared.returned, m.shared.received[item.1]? = some item.2
  accounted : Accounted m

/-- The handler has stored a byte since a reader was last given one. -/
def State.Fresh (s : State) : Prop := ∀ item ∈ s.returned, item.1 + 1 < s.received.length

/-- A reader copies only a fresh byte, and lowers the flag only when no byte is
fresh or the handler that stored it has yet to raise the flag. -/
def Point.HandsOff (m : Machine) : Point → Prop
  | .copyOut false => m.shared.Fresh
  | .clearRflag => m.shared.Fresh → .raiseRflag ∈ m.calls
  | _ => True

def Action.HandsOff (m : Machine) : Action → Prop
  | .run index => ∀ point ∈ m.calls[index]?, point.HandsOff m
  | _ => True

instance (s : State) : Decidable s.Fresh := inferInstanceAs (Decidable (∀ item ∈ s.returned, _))

instance (m : Machine) (point : Point) : Decidable (point.HandsOff m) := by
  unfold Point.HandsOff
  split <;> infer_instance

instance (m : Machine) : (action : Action) → Decidable (action.HandsOff m)
  | .run index => inferInstanceAs (Decidable (∀ point ∈ m.calls[index]?, point.HandsOff m))
  | .open | .ioctl _ | .write _ | .read _ | .interrupt | .signal _ _ => inferInstanceAs (Decidable True)

def Point.Stored (s : State) : Point → Prop
  | .copyOut _ | .clearRflag | .raiseRflag => s.received ≠ []
  | _ => True

structure State.Recorded (s : State) : Prop where
  ordered : (s.returned.map Prod.fst).Pairwise (· < ·)
  own : ∀ item ∈ s.returned, s.received[item.1]? = some item.2
  raised : s.rflag ≠ 0 → s.received ≠ []
  last : s.received ≠ [] → s.received[s.received.length - 1]? = some s.rbuff
  given : ∀ item ∈ s.returned, item.1 < s.received.length
  lost : ∀ index ∈ s.overwritten, index + 1 < s.received.length

structure Slot (m : Machine) : Prop where
  recorded : m.shared.Recorded
  accounted : Accounted m
  single : m.calls.countP Point.handler ≤ 1
  stored : Asserted Point.Stored m

private theorem Slot.handedOff (slot : Slot m) : HandedOff m :=
  ⟨slot.recorded.ordered, slot.recorded.own, slot.accounted⟩

theorem Advance.handler (advance : Advance s point progress s') :
    progress.calls.countP Point.handler ≤ [point].countP Point.handler := by
  cases advance <;> simp [Point.handler]

theorem Advance.received (advance : Advance s point progress s') (some : s.received ≠ []) : s'.received ≠ [] := by
  cases advance with
  | stored => simp [State.store]
  | _ => exact some

private theorem Advance.stored_next (advance : Advance s point progress s') (stored : point.Stored s)
    (raised : s.rflag ≠ 0 → s.received ≠ []) : ∀ next ∈ progress.calls, next.Stored s' := by
  cases advance with
  | stored => simp [State.store, Point.Stored]
  | leftRecieve up => simpa [Point.Stored] using raised up
  | faulted | handedOver => exact List.forall_mem_singleton.mpr stored
  | _ => simp [Point.Stored]

theorem State.Recorded.stored (recorded : s.Recorded) : s.store.Recorded := by
  obtain ⟨ordered, own, raised, last, given, lost⟩ := recorded
  refine ⟨ordered, ?_, ?_, ?_, ?_, ?_⟩
  · intro item member
    exact (List.getElem?_append_left (given item member)).trans (own item member)
  · simp [State.store]
  · simp [State.store]
  · intro item member
    simp only [State.store, List.length_append, List.length_singleton]
    exact Nat.lt_succ_of_lt (given item member)
  · simp only [State.store, List.length_append, List.length_singleton]
    intro index member
    split at member
    next => exact Nat.lt_succ_of_lt (lost index member)
    next up =>
      have some : 0 < s.received.length := List.length_pos_iff.mpr (raised up)
      rcases List.mem_append.mp member with member | member
      · exact Nat.lt_succ_of_lt (lost index member)
      · rw [List.mem_singleton.mp member]
        omega

theorem State.Recorded.handedOver (recorded : s.Recorded) (some : s.received ≠ []) (fresh : s.Fresh) :
    s.handOver.Recorded := by
  obtain ⟨ordered, own, raised, last, given, lost⟩ := recorded
  have inside : 0 < s.received.length := List.length_pos_iff.mpr some
  refine ⟨?_, ?_, raised, last, ?_, lost⟩
  · simp only [State.handOver, List.map_append, List.pairwise_append]
    refine ⟨ordered, by simp, ?_⟩
    simp only [List.map_cons, List.map_nil, List.mem_singleton, forall_eq, List.forall_mem_map]
    intro item member
    have := fresh item member
    omega
  · exact List.forall_mem_append.mpr ⟨own, List.forall_mem_singleton.mpr (last some)⟩
  · refine List.forall_mem_append.mpr ⟨given, List.forall_mem_singleton.mpr ?_⟩
    change s.received.length - 1 < s.received.length
    omega

theorem Advance.recorded (advance : Advance s point progress s') (stored : point.Stored s)
    (fresh : point = .copyOut false → s.Fresh) (recorded : s.Recorded) : s'.Recorded := by
  cases advance with
  | stored => exact recorded.stored
  | handedOver => exact recorded.handedOver stored (fresh rfl)
  | read => exact { recorded with raised := fun up => absurd rfl up }
  | raised => exact { recorded with raised := fun _ => stored }
  | _ => exact { recorded with }

/-- Nobody but the handler itself gets past `rflag=1`. -/
theorem Advance.raising {before after : List Point} (advance : Advance s point progress s')
    (shape : m.calls = before ++ point :: after) (raising : .raiseRflag ∈ m.calls) :
    .raiseRflag ∈ before ++ progress.calls ++ after ∨ s'.rflag ≠ 0 := by
  simp only [shape, List.mem_append, List.mem_cons] at raising ⊢
  rcases raising with there | rfl | there
  · exact .inl (.inl (.inl there))
  · cases advance with
    | raised => exact .inr Int.one_ne_zero
  · exact .inl (.inr there)

private theorem Slot.accounted_ran {before after : List Point} (slot : Slot m)
    (shape : m.calls = before ++ point :: after)
    (advance : Advance m.shared point progress s') (handsOff : point.HandsOff m) :
    Accounted ⟨s', before ++ progress.calls ++ after⟩ := by
  have running : point ∈ m.calls := by simp [shape]
  have accounted := slot.accounted
  have raising (there : .raiseRflag ∈ m.calls) := advance.raising shape there
  cases advance with
  | stored =>
    have once : .raiseRflag ∉ m.calls := by
      intro raising
      have counted := slot.single
      rw [shape, List.countP_append, List.countP_cons] at counted
      have elsewhere : .raiseRflag ∈ before ++ after := by simpa [shape] using raising
      have := count_pos (p := Point.handler) elsewhere rfl
      rw [List.countP_append] at this
      simp only [Point.handler, if_true] at counted
      omega
    intro index small
    simp only [State.store, List.length_append, List.length_singleton] at small ⊢
    by_cases new : index = m.shared.received.length
    · exact .inr (.inr ⟨by omega, .inr (by simp)⟩)
    · rcases accounted index (by omega) with given | lost | ⟨last, up | raising⟩
      · exact .inl given
      · refine .inr (.inl ?_)
        split
        next => exact lost
        next => exact List.mem_append_left _ lost
      · refine .inr (.inl ?_)
        rw [if_neg up]
        exact List.mem_append_right _ (List.mem_singleton.mpr (by omega))
      · exact absurd raising once
  | handedOver =>
    intro index small
    simp only [State.handOver, List.map_append, List.mem_append]
    rcases accounted index small with given | lost | ⟨last, _⟩
    · exact .inl (.inl given)
    · exact .inr (.inl lost)
    · refine .inl (.inr ?_)
      rw [← last]
      exact List.mem_singleton_self _
  | read =>
    intro index small
    rcases accounted index small with given | lost | ⟨last, _⟩
    · exact .inl given
    · exact .inr (.inl lost)
    · by_cases fresh : m.shared.Fresh
      · rcases raising (handsOff fresh) with there | up
        · exact .inr (.inr ⟨last, .inr there⟩)
        · exact absurd rfl up
      · simp only [State.Fresh, not_forall] at fresh
        obtain ⟨item, member, late⟩ := fresh
        have := slot.recorded.given item member
        have same : item.1 = index := by omega
        exact .inl (List.mem_map.mpr ⟨item, member, same⟩)
  | raised =>
    intro index small
    rcases accounted index small with given | lost | ⟨last, _⟩
    · exact .inl given
    · exact .inr (.inl lost)
    · exact .inr (.inr ⟨last, .inl Int.one_ne_zero⟩)
  | _ =>
    intro index small
    rcases accounted index small with given | lost | ⟨last, up | there⟩
    · exact .inl given
    · exact .inr (.inl lost)
    · exact .inr (.inr ⟨last, .inl up⟩)
    · exact .inr (.inr ⟨last, (raising there).symm⟩)

theorem Slot.started {call : Point} (slot : Slot m) (single : (m.start call).calls.countP Point.handler ≤ 1)
    (stored : call.Stored m.shared) : Slot (m.start call) := by
  refine ⟨slot.recorded, ?_, single, slot.stored.start stored⟩
  intro index small
  rcases slot.accounted index small with given | lost | ⟨last, up | raising⟩
  · exact .inl given
  · exact .inr (.inl lost)
  · exact .inr (.inr ⟨last, .inl up⟩)
  · exact .inr (.inr ⟨last, .inr (List.mem_append_left _ raising)⟩)

theorem Slot.step {action : Action} (slot : Slot m) (handsOff : action.HandsOff m)
    (stepped : m.step action = some m') : Slot m' := by
  cases Machine.step_cases stepped with
  | @called _ call entry =>
    have outside : call.handler = false := by cases call <;> first | rfl | cases entry
    have stored : call.Stored m.shared := by cases call <;> trivial
    refine slot.started ?_ stored
    simpa [outside] using slot.single
  | interrupted outside =>
    refine slot.started ?_ trivial
    have none : m.calls.countP Point.handler = 0 := by
      rw [List.countP_eq_zero]
      intro call member
      simp [outside call member]
    simp [none, Point.handler]
  | signalled => exact ⟨{ slot.recorded with }, slot.accounted, slot.single, slot.stored⟩
  | @ran index before point after progress s found shape others advance =>
    have running := List.mem_of_getElem? found
    have stored := slot.stored point running
    have good := handsOff point found
    refine ⟨?_, slot.accounted_ran shape advance good, ?_, ?_⟩
    · refine advance.recorded stored ?_ slot.recorded
      rintro rfl
      exact good
    · have counted := count_replaced Point.handler before after progress.calls point
      have fewer := advance.handler
      have single := slot.single
      rw [shape] at single
      change (before ++ progress.calls ++ after).countP Point.handler ≤ 1
      omega
    · refine slot.stored.replaced shape (fun stored => advance.stored_next stored slot.recorded.raised) ?_
      intro other _ there
      cases other with
      | copyOut | clearRflag | raiseRflag => exact advance.received there
      | _ => trivial

/-- A reader that copies a byte twice, or lowers the flag of a fresh one, breaks the hand-over. -/
theorem Slot.broken {action : Action} (slot : Slot m) (wrong : ¬ action.HandsOff m)
    (stepped : m.step action = some m') : ¬ HandedOff m' := by
  intro handedOff
  cases Machine.step_cases stepped with
  | called entry starts =>
    cases action with
    | run index => exact starts index rfl
    | _ => exact wrong trivial
  | interrupted | signalled => exact wrong trivial
  | @ran index before point after progress s found shape others advance =>
    have running := List.mem_of_getElem? found
    have stored := slot.stored point running
    simp only [Action.HandsOff, found, Option.mem_def, Option.some.injEq, forall_eq'] at wrong
    cases advance with
    | handedOver =>
      have ordered := handedOff.ordered
      simp only [State.handOver, List.map_append, List.pairwise_append] at ordered
      apply wrong
      intro item member
      have := ordered.2.2 item.1 (List.mem_map.mpr ⟨item, member, rfl⟩) _ (List.mem_singleton_self _)
      have := slot.recorded.given item member
      omega
    | read =>
      simp only [Point.HandsOff, Classical.not_imp] at wrong
      obtain ⟨fresh, quiet⟩ := wrong
      have inside : 0 < m.shared.received.length := List.length_pos_iff.mpr stored
      have handled : .raiseRflag ∉ before ++ after := by simpa [shape] using quiet
      rcases handedOff.accounted (m.shared.received.length - 1) (by simp; omega) with given | lost | ⟨_, up | raising⟩
      · obtain ⟨item, member, same⟩ := List.mem_map.mp given
        have := fresh item member
        omega
      · have := slot.recorded.lost _ lost
        omega
      · exact up rfl
      · exact handled (by simpa using raising)
    | _ => exact wrong trivial

/-- The hand-over is kept up throughout exactly the runs in which every reader
copies a fresh byte and none lowers the flag of another. -/
theorem handed_off_iff (uart : Uart) (actions : List Action) (m : Machine)
    (run : Run Machine.step (fun _ _ => True) (loaded uart) actions m) :
    Throughout Machine.step (fun _ _ => True) (loaded uart) actions HandedOff ↔
      Run Machine.step (Both (fun _ _ => True) Action.HandsOff) (loaded uart) actions m := by
  have initial : Slot (loaded uart) := by
    refine ⟨⟨.nil, ?_, ?_, ?_, ?_, ?_⟩, ?_, ?_, ?_⟩ <;> simp [loaded, Accounted, Asserted]
  exact run.throughout_iff Slot HandedOff initial (fun _ _ _ slot _ good stepped => slot.step good stepped)
    (fun _ slot => slot.handedOff) (fun _ _ _ slot _ wrong stepped => slot.broken wrong stepped)

/-- The handler overwrites a byte that is still waiting, and a reader gets the next. -/
theorem handed_off_iff_overwritten : ∃ actions,
    Throughout Machine.step (fun _ _ => True) (loaded {}) actions HandedOff := by
  have reached : ∃ m : Machine, Run Machine.step (Both (fun _ _ => True) Action.HandsOff) (loaded {})
      (.signal 0x04#8 0x41#8 :: .interrupt :: List.replicate 4 (.run 0) ++ .signal 0x04#8 0x42#8 :: .interrupt ::
        List.replicate 4 (.run 0) ++ .read false :: List.replicate 3 (.run 0)) m ∧
      m.shared.returned = [(1, 0x42#8)] ∧ m.shared.overwritten = [0] :=
    reaches_of_execute (by decide +kernel)
  obtain ⟨m, run, _⟩ := reached
  exact ⟨_, (handed_off_iff {} _ m (run.mono fun _ _ _ => trivial)).mpr run⟩

/-- A second byte arrives after a reader has copied the first and before it lowers the flag. -/
theorem discarded_run : ¬ ∀ (uart : Uart) (actions : List Action) (m : Machine),
    Run Machine.step (fun _ _ => True) (loaded uart) actions m → HandedOff m := by
  intro claim
  have reached : ∃ m : Machine, Run Machine.step (fun _ _ => True) (loaded {})
      (.signal 0x04#8 0x41#8 :: .interrupt :: List.replicate 4 (.run 0) ++ .read false :: List.replicate 2 (.run 0) ++
        .signal 0x04#8 0x42#8 :: .interrupt :: List.replicate 4 (.run 1) ++ [.run 0]) m ∧
      m.shared.received.length = 2 ∧ m.shared.returned = [(0, 0x41#8)] ∧ m.shared.overwritten = [0] ∧
        m.shared.rflag = 0 ∧ m.calls = [] := reaches_of_execute (by decide +kernel)
  obtain ⟨m, run, two, given, lost, down, idle⟩ := reached
  rcases (claim {} _ m run).accounted 1 (by omega) with member | member | ⟨_, up | raising⟩
  · simp [given] at member
  · simp [lost] at member
  · exact up down
  · simp [idle] at raising

end DeviceDrivers.Serial
