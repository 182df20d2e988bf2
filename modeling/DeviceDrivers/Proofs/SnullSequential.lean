import DeviceDrivers.Library.Runs
import DeviceDrivers.Snull.Calls
import DeviceDrivers.Snull.Poll

/-! A complete call is the interleaved system running that call alone, from
its start to its return, while any other calls stand still. What holds of all
runs of the system so holds of all sequences of complete calls. -/

namespace DeviceDrivers.Snull
open Runs

variable {cfg : Config} {others : List Point} {s s' : State} {final : Machine} {dev : Dev} {memory : Bool}

/-- The call that has got to `progress` brings the system to `final` if only it is run. -/
def Leads (cfg : Config) (others : List Point) (s : State) (progress : Progress) (final : Machine) : Prop :=
  ∃ actions, Run (Machine.step cfg) (fun _ _ => True) ⟨s, others ++ progress.points⟩ actions final

theorem Leads.here (progress : Progress) : Leads cfg others s progress ⟨s, others ++ progress.points⟩ := ⟨[], .nil⟩

theorem Leads.returned (value : Int) : Leads cfg others s (.returned value) ⟨s, others⟩ := by
  refine ⟨[], ?_⟩
  rw [Progress.points_returned, List.append_nil]
  exact .nil

theorem Leads.step {point : Point} {progress : Progress} {middle : State} (memory : Bool)
    (stepped : point.step cfg memory s = some (progress, middle)) (rest : Leads cfg others middle progress final) :
    Leads cfg others s (.next point) final := by
  obtain ⟨actions, run⟩ := rest
  refine ⟨[.run others.length memory] ++ actions, Run.append (.snoc .nil trivial ?_) run⟩
  simp [Machine.step, stepped]

theorem Leads.started {action : Action} {point : Point} (begun : Machine.step cfg ⟨s, others⟩ action =
    some (Machine.start ⟨s, others⟩ point)) (rest : Leads cfg others s (.next point) final) :
    ∃ actions, Run (Machine.step cfg) (fun _ _ => True) ⟨s, others⟩ actions final := by
  obtain ⟨actions, run⟩ := rest
  exact ⟨[action] ++ actions, Run.append (.snoc .nil trivial begun) run⟩

theorem Leads.release {pkt : Addr} {caller : Caller}
    (rest : Leads cfg others (snullReleaseBuffer pkt s) caller.resume final) :
    Leads cfg others s (.next (.release pkt caller)) final := by
  apply Leads.step true rfl
  apply Leads.step true rfl
  simp only [snullReleaseBuffer] at rest
  split
  next wanted =>
    rw [if_pos wanted] at rest
    exact .step true rfl rest
  next unwanted =>
    rw [if_neg unwanted] at rest
    exact rest

theorem Leads.interrupt {caller : Caller}
    (rest : Leads cfg others (snullInterrupt cfg memory dev s) caller.resume final) :
    Leads cfg others s (.next (.interrupt dev caller)) final := by
  rw [snullInterrupt] at rest
  cases found : interruptSection cfg memory dev s with
  | mk pkt after =>
    cases pkt with
    | none =>
      rw [found] at rest
      exact .step memory (by rw [Point.step, found]) rest
    | some pkt =>
      rw [found] at rest
      apply Leads.step memory (by rw [Point.step, found])
      exact .release rest

private theorem sender_leads {tx : Transmit}
    (rest : (let s := raiseStatus tx.dev snullTxIntr (setTxPacketlen tx.dev tx.buf.size s)
      if simulatesLockup cfg tx.dev s then netifStopQueue tx.dev s else snullInterrupt cfg memory tx.dev s) = s') :
    Leads cfg others s (.next (.recordLen tx)) ⟨s', others⟩ := by
  subst rest
  apply Leads.step memory rfl
  apply Leads.step memory rfl
  simp only
  split
  next locks => exact .step memory (by rw [Point.step, if_pos locks]) (.returned 0)
  next completes => exact .step memory (by rw [Point.step, if_neg completes]) (.interrupt (.returned 0))

private theorem snullTx_leads {around : Surroundings} {skb : Skb} (ran : snullTx cfg around skb dev s = some s') :
    Leads cfg others s (.next (.enterTx dev skb around.beyond)) ⟨s', others⟩ := by
  simp only [snullTx, snullHwTx] at ran
  split at ran
  next short =>
    cases ran
    exact .step true (by rw [Point.step, if_pos short]) (.returned 0)
  next long =>
    obtain ⟨⟨pkt, taken⟩, got, rest⟩ := Option.map_eq_some_iff.mp ran
    apply Leads.step true (by rw [Point.step, if_neg long])
    generalize snullHwTxFrame cfg.ipFastCsum around.beyond (snullTxData skb.data).value = sent at ran got rest ⊢
    apply Leads.step true (by rw [Point.step, got]; rfl)
    -- the buffer is filled and queued, and the receive interrupts are looked at
    apply Leads.step true rfl
    apply Leads.step true rfl
    apply Leads.step true rfl
    simp only at rest ⊢
    split
    next enabled =>
      rw [if_pos enabled] at rest
      exact .step true rfl (.interrupt (sender_leads rest))
    next masked =>
      rw [if_neg masked] at rest
      exact sender_leads rest

private theorem snullTxTimeout_leads :
    Leads cfg others s (.next (.enterTimeout dev)) ⟨snullTxTimeout cfg memory dev s, others⟩ :=
  .step memory rfl (.interrupt (.step memory rfl (.step memory rfl (.returned 0))))

theorem snullPollLoop_leads {quota fuel npackets counted : Nat} {alloc : Nat → Bool} {drained : State}
    (ran : snullPollLoop dev quota fuel alloc npackets s = some (counted, drained))
    (rest : Leads cfg others drained (.next (.pollDone dev counted quota)) final) :
    Leads cfg others s (.next (.pollTest dev npackets quota)) final := by
  induction fuel generalizing alloc npackets s with
  | zero => cases ran
  | succ fuel ih =>
    rw [snullPollLoop] at ran
    split at ran
    next more =>
      split at ran
      next => cases ran
      next pkt taken removed =>
        apply Leads.step true (by rw [Point.step, if_pos more])
        apply Leads.step true (by rw [Point.step, removed])
        cases received : alloc 0 with
        | false =>
          rw [received] at ran
          apply Leads.step false rfl
          exact .release (ih ran)
        | true =>
          rw [received] at ran
          apply Leads.step true rfl
          exact .release (ih ran)
    next enough =>
      cases ran
      exact .step true (by rw [Point.step, if_neg enough]) rest

/-- The poll that the interleaved system runs is `snull_poll`, with the same `napi_disable`. -/
theorem snullPoll_leads {fuel budget : Nat} {alloc : Nat → Bool} {value : Int}
    (ran : snullPoll cfg.napiDisable fuel alloc dev budget s = some (value, s')) :
    Leads cfg others s (.next (.pollTest dev 0 budget)) ⟨s', others⟩ := by
  obtain ⟨⟨counted, drained⟩, looped, left⟩ := Option.bind_eq_some_iff.mp ran
  apply snullPollLoop_leads looped
  simp only at left
  split at left
  next empty =>
    obtain ⟨waited, disabled, same⟩ := Option.map_eq_some_iff.mp left
    cases same
    apply Leads.step true (by rw [Point.step, if_pos empty, disabled]; rfl)
    exact .step true rfl (.returned 0)
  next more =>
    cases left
    exact .step true (by rw [Point.step, if_neg more]) (.returned 1)

/-- Every sequence of complete calls is a run of the interleaved system. -/
theorem calls_interleaved {allowed : State → Call → Prop} {calls : List Call}
    (run : Run (Call.run cfg) allowed s calls s') :
    ∃ actions, Run (Machine.step cfg) (fun _ _ => True) ⟨s, []⟩ actions ⟨s', []⟩ := by
  induction run with
  | nil => exact ⟨[], .nil⟩
  | @snoc calls middle call next earlier permitted ran ih =>
    obtain ⟨before, run⟩ := ih
    have last : ∃ actions, Run (Machine.step cfg) (fun _ _ => True) ⟨middle, []⟩ actions ⟨next, []⟩ := by
      cases call with
      | tx dev skb around =>
        have begun : Machine.step cfg ⟨middle, []⟩ (.startTx dev skb around.beyond) =
            some (Machine.start ⟨middle, []⟩ (.enterTx dev skb around.beyond)) := by simp [Machine.step]
        exact Leads.started begun (snullTx_leads ran)
      | txTimeout dev memory =>
        cases ran
        have begun : Machine.step cfg ⟨middle, []⟩ (.startTimeout dev) =
            some (Machine.start ⟨middle, []⟩ (.enterTimeout dev)) := rfl
        exact Leads.started begun (@snullTxTimeout_leads cfg [] middle dev memory)
    obtain ⟨after, run'⟩ := last
    exact ⟨before ++ after, run.append run'⟩

end DeviceDrivers.Snull
