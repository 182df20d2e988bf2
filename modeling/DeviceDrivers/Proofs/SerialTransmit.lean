import DeviceDrivers.Proofs.SerialSteps

/-! When the serial driver writes a byte over one that the port has not taken. The
writers wait for a flag, but from the first interrupt on the flag stays down. -/

namespace DeviceDrivers.Serial
open Runs Interleavings

variable {s s' : State} {m m' : Machine} {point : Point} {progress : Progress Point} {line : List Line}

/-- Between any two bytes sent the port has said that it took one. -/
def Alternating (line : List Line) : Prop :=
  ∀ earlier between later, line = earlier ++ .sent :: between ++ .sent :: later → .taken ∈ between

def Free (line : List Line) : Prop := line.getLast? ≠ some .sent

def Point.sending : Point → Bool
  | .fetch _ | .transmit => true
  | _ => false

/-- A writer leaves the wait loop only when the last byte has been taken and no
other writer is about to send one. -/
def Point.Paced (m : Machine) : Point → Prop
  | .waitTransmit _ => Free m.shared.line ∧ m.calls.countP Point.sending = 0
  | _ => True

def Action.Paced (m : Machine) : Action → Prop
  | .run index => ∀ point ∈ m.calls[index]?, point.Paced m
  | _ => True

instance : Decidable (Free line) := inferInstanceAs (Decidable (_ ≠ _))

instance (m : Machine) (point : Point) : Decidable (point.Paced m) := by
  unfold Point.Paced
  split <;> infer_instance

instance (m : Machine) : (action : Action) → Decidable (action.Paced m)
  | .run index => inferInstanceAs (Decidable (∀ point ∈ m.calls[index]?, point.Paced m))
  | .open | .ioctl _ | .write _ | .read _ | .interrupt | .signal _ _ => inferInstanceAs (Decidable True)

theorem Alternating.taken (alternating : Alternating line) : Alternating (line ++ [.taken]) := by
  intro earlier between later same
  cases later using List.reverseRecOn with
  | nil => simpa using (List.append_inj' same rfl).2
  | append_singleton later last _ =>
    apply alternating earlier between later
    rw [← List.cons_append, ← List.append_assoc] at same
    exact (List.append_inj' same rfl).1

theorem Alternating.sent (alternating : Alternating line) (free : Free line) : Alternating (line ++ [.sent]) := by
  intro earlier between later same
  cases later using List.reverseRecOn with
  | nil =>
    obtain rfl := (List.append_inj' same rfl).1
    cases between using List.reverseRecOn with
    | nil => exact absurd List.getLast?_concat free
    | append_singleton between last _ =>
      cases last with
      | taken => exact List.mem_append_right _ (List.mem_singleton_self _)
      | sent =>
        rw [Free, ← List.cons_append, ← List.append_assoc] at free
        exact absurd List.getLast?_concat free
  | append_singleton later last _ =>
    apply alternating earlier between later
    rw [← List.cons_append, ← List.append_assoc] at same
    exact (List.append_inj' same rfl).1

private theorem not_alternating : ¬ Alternating (line ++ [.sent] ++ [.sent]) := by
  intro alternating
  simpa using alternating line [] [] (by simp)

/-- At most one writer is about to send, and it finds the port free. -/
structure Pace (m : Machine) : Prop where
  alternating : Alternating m.shared.line
  single : m.calls.countP Point.sending ≤ 1
  free : 0 < m.calls.countP Point.sending → Free m.shared.line

private theorem Advance.paced {others : Nat} (advance : Advance s point progress s')
    (alternating : Alternating s.line) (single : [point].countP Point.sending + others ≤ 1)
    (free : 0 < [point].countP Point.sending + others → Free s.line)
    (leaving : ∀ user, point = .waitTransmit user → Free s.line ∧ others = 0) :
    Alternating s'.line ∧ progress.calls.countP Point.sending + others ≤ 1 ∧
      (0 < progress.calls.countP Point.sending + others → Free s'.line) := by
  cases advance with
  | leftTransmit =>
    obtain ⟨here, rfl⟩ := leaving _ rfl
    exact ⟨alternating, Nat.le_refl 1, fun _ => here⟩
  | fetched => exact ⟨alternating, single, free⟩
  | transmitted =>
    have alone : 1 + others ≤ 1 := single
    have here : 0 < 1 + others → Free s.line := free
    obtain rfl : others = 0 := by omega
    exact ⟨alternating.sent (here (by omega)), Nat.zero_le 1, fun some => absurd some (Nat.lt_irrefl 0)⟩
  | emptied => exact ⟨alternating.taken, single, fun _ => by simp [Free]⟩
  | _ => exact ⟨alternating, single, free⟩

theorem Pace.step {action : Action} (pace : Pace m) (paced : action.Paced m) (stepped : m.step action = some m') :
    Pace m' := by
  obtain ⟨alternating, single, free⟩ := pace
  cases Machine.step_cases stepped with
  | @called _ call entry =>
    have outside : call.sending = false := by cases call <;> first | rfl | cases entry
    exact ⟨alternating, by simpa [outside] using single, by simpa [outside] using free⟩
  | interrupted =>
    have outside : Point.identify.sending = false := rfl
    exact ⟨alternating, by simpa [outside] using single, by simpa [outside] using free⟩
  | signalled => exact ⟨alternating, single, free⟩
  | @ran index before point after progress s found shape others advance =>
    have counted (calls : List Point) : (before ++ calls ++ after).countP Point.sending =
        calls.countP Point.sending + (before ++ after).countP Point.sending := by
      simp only [List.countP_append]
      omega
    have total := counted [point]
    rw [List.append_assoc, List.singleton_append, ← shape] at total
    rw [total] at single free
    have leaving (user : Option Byte) (waits : point = .waitTransmit user) :
        Free m.shared.line ∧ (before ++ after).countP Point.sending = 0 := by
      subst waits
      obtain ⟨here, alone⟩ := paced _ found
      exact ⟨here, by omega⟩
    obtain ⟨alternating, single, free⟩ := advance.paced alternating single free leaving
    refine ⟨alternating, ?_, ?_⟩
    · rwa [counted]
    · rwa [counted]

/-- A writer past the wait loop can send its byte next. -/
theorem sends {index : Nat} {point : Point} (found : m.calls[index]? = some point) (sending : point.sending = true) :
    ∃ actions m', Run Machine.step Action.Paced m actions m' ∧
      m'.shared.line = m.shared.line ++ [.sent] ∧ ∀ other ≠ index, m'.calls[other]? = m.calls[other]? := by
  have transmits (m : Machine) (here : m.calls[index]? = some .transmit) :
      Action.Paced m (.run index) ∧
        m.step (.run index) = some ⟨m.shared.transmit, m.calls.set index .clearTflag⟩ :=
    ⟨by simp [Action.Paced, here, Point.Paced], System.run_next here rfl⟩
  cases point with
  | fetch user =>
    have fetched : m.step (.run index) =
        some ⟨{ m.shared with tbuff := user.getD 0#8 }, m.calls.set index .transmit⟩ :=
      System.run_next found rfl
    have inside := (List.getElem?_eq_some_iff.mp found).1
    have paced : Action.Paced m (.run index) := by simp [Action.Paced, found, Point.Paced]
    have first : Run Machine.step Action.Paced m [.run index] _ := .snoc .nil paced fetched
    obtain ⟨paced, transmitted⟩ := transmits ⟨_, m.calls.set index .transmit⟩ (by simp [inside])
    refine ⟨_, _, first.snoc paced transmitted, rfl, ?_⟩
    intro other apart
    simp only [List.getElem?_set_ne apart.symm]
  | transmit =>
    obtain ⟨paced, transmitted⟩ := transmits m found
    refine ⟨_, _, .snoc .nil paced transmitted, rfl, ?_⟩
    intro other apart
    simp only [List.getElem?_set_ne apart.symm]
  | _ => cases sending

/-- A writer that leaves the loop too early need only go on, after any other that
is about to send. -/
private theorem overwrites {action : Action} (unpaced : ¬ action.Paced m) (stepped : m.step action = some m') :
    ∃ actions m'', Run Machine.step Action.Paced m' actions m'' ∧ ¬ Alternating m''.shared.line := by
  cases Machine.step_cases stepped with
  | called entry starts =>
    cases action with
    | run index => exact absurd rfl (starts index)
    | _ => exact absurd trivial unpaced
  | interrupted | signalled => exact absurd trivial unpaced
  | @ran index before point after progress s found shape others advance =>
    simp only [Action.Paced, found, Option.mem_def, Option.some.injEq, forall_eq'] at unpaced
    cases advance with
    | @leftTransmit user idle =>
      have left : m.step (.run index) = some ⟨m.shared, m.calls.set index (.fetch user)⟩ :=
        System.run_next found (by simp [Point.step, idle])
      obtain same := Option.some.inj (stepped.symm.trans left)
      rw [same]
      have inside := (List.getElem?_eq_some_iff.mp found).1
      have here : (m.calls.set index (.fetch user))[index]? = some (.fetch user) := by simp [inside]
      simp only [Point.Paced, not_and_or] at unpaced
      rcases unpaced with busy | another
      · obtain ⟨actions, last, run, sent, _⟩ := sends (m := ⟨m.shared, m.calls.set index (.fetch user)⟩) here rfl
        refine ⟨actions, last, run, ?_⟩
        simp only [Free, not_not] at busy
        obtain ⟨line, ends⟩ := List.getLast?_eq_some_iff.mp busy
        rw [sent, ends]
        exact not_alternating
      · obtain ⟨other, member, sending⟩ := List.countP_pos_iff.mp (Nat.pos_of_ne_zero another)
        obtain ⟨place, found_other⟩ := List.mem_iff_getElem?.mp member
        have apart : place ≠ index := by
          rintro rfl
          obtain rfl := Option.some.inj (found.symm.trans found_other)
          cases sending
        have there : (m.calls.set index (.fetch user))[place]? = some other := by
          rw [List.getElem?_set_ne apart.symm, found_other]
        obtain ⟨first, middle, run, sent, rest⟩ := sends (m := ⟨m.shared, m.calls.set index (.fetch user)⟩) there sending
        obtain ⟨next, last, more, again, _⟩ := sends ((rest index apart.symm).trans here) rfl
        refine ⟨first ++ next, last, run.append more, ?_⟩
        rw [again, sent]
        exact not_alternating
    | _ => exact absurd trivial unpaced

/-- No byte is sent over another in a run in which every writer leaves the wait loop
in time. After a step that leaves it too early, steps that do not can send one. -/
theorem alternating_when_paced (uart : Uart) (actions : List Action) (m : Machine)
    (run : Run Machine.step Action.Paced (loaded uart) actions m) :
    Alternating m.shared.line ∧ ∀ action m', ¬ action.Paced m → m.step action = some m' →
      ∃ more m'', Run Machine.step Action.Paced m' more m'' ∧ ¬ Alternating m''.shared.line := by
  have initial : Pace (loaded uart) := by
    refine ⟨?_, ?_, ?_⟩ <;> simp [loaded, Alternating]
  have pace := run.invariant Pace initial fun _ _ _ kept paced stepped => kept.step paced stepped
  exact ⟨pace.alternating, fun _ _ unpaced stepped => overwrites unpaced stepped⟩

/-- Two bytes are sent with an interrupt before each. -/
theorem alternating_when_paced_two : ∃ actions m,
    Run Machine.step Action.Paced (loaded {}) actions m ∧ m.shared.line = [.taken, .sent, .taken, .sent] ∧
      Alternating m.shared.line := by
  have reached : ∃ m : Machine, Run Machine.step Action.Paced (loaded {})
      (.write (some 0x61#8) :: .signal 0x02#8 0#8 :: .interrupt :: List.replicate 3 (.run 1) ++
        List.replicate 4 (.run 0) ++ .write (some 0x62#8) :: .interrupt :: List.replicate 3 (.run 1) ++
        List.replicate 4 (.run 0)) m ∧
      m.shared.line = [.taken, .sent, .taken, .sent] := reaches_of_execute (by decide +kernel)
  obtain ⟨m, run, line⟩ := reached
  exact ⟨_, m, run, line, (alternating_when_paced {} _ m run).1⟩

/-- After one interrupt the flag is down for good, and two writers send one after the other. -/
theorem overwritten_run : ¬ ∀ (uart : Uart) (actions : List Action) (m : Machine),
    Run Machine.step (fun _ _ => True) (loaded uart) actions m → Alternating m.shared.line := by
  intro claim
  have reached : ∃ m : Machine, Run Machine.step (fun _ _ => True) (loaded {})
      (.signal 0x02#8 0#8 :: .interrupt :: List.replicate 3 (.run 0) ++ .write (some 0x61#8) ::
        List.replicate 4 (.run 0) ++ .write (some 0x62#8) :: List.replicate 4 (.run 0)) m ∧
      m.shared.line = [.taken, .sent, .sent] := reaches_of_execute (by decide +kernel)
  obtain ⟨m, run, line⟩ := reached
  have alternating := claim {} _ m run
  rw [line] at alternating
  exact @not_alternating [.taken] alternating

end DeviceDrivers.Serial
