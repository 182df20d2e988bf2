import DeviceDrivers.Library.WaitQueues
import Mathlib.Data.List.Nodup

/-! No wake-up is lost if every call that makes the condition true goes on to wake
the queue: between the two it owes the sleepers a wake-up, and nobody falls asleep
on a condition that is true. -/

namespace DeviceDrivers.WaitQueues
open Runs Interleavings

universe u v w

variable {σ : Type u} {κ : Type v} {α : Type w} {p : Program σ κ α} {indebted : κ → Bool} {s s' : Queued σ}
  {m m' : Program.Machine σ κ} {thread : Thread κ} {progress : Progress (Thread κ)}

/-- A call that makes the condition true, or owes a wake-up already, owes it until it wakes the queue. -/
structure Diligent (p : Program σ κ α) (indebted : κ → Bool) : Prop where
  working : ∀ call, indebted call = true → p.waits call = false
  entered : ∀ {s call calls s'}, p.enter s call = some (calls, s') → p.ready s' = true → p.ready s = true
  stepped : ∀ {s call rest s'}, p.step s call = some (rest, s') → p.wakes call = false →
    indebted call = true ∨ p.ready s = false ∧ p.ready s' = true → ∃ next ∈ rest.calls, indebted next = true

def Thread.owes (indebted : κ → Bool) (thread : Thread κ) : Bool :=
  match thread.stage with
  | .active call => indebted call
  | .finish rest _ => rest.calls.any indebted
  | _ => false

def entries (calls : List (Thread κ)) : List Nat := calls.filterMap Thread.entry

/-- While the condition is true, whoever sleeps on the queue has somebody who owes the wake-up. -/
structure Attended (p : Program σ κ α) (indebted : κ → Bool) (m : Program.Machine σ κ) : Prop where
  distinct : (entries m.calls).Nodup
  issued : ∀ entry ∈ entries m.calls, entry < m.shared.issued
  attended : p.ready m.shared.driver = true → (∃ thread ∈ m.calls, thread.asleep m.shared.queue = true) →
    ∃ thread ∈ m.calls, thread.owes indebted = true

@[simp] theorem entries_append (first last : List (Thread κ)) :
    entries (first ++ last) = entries first ++ entries last :=
  List.filterMap_append

@[simp] theorem entries_active (calls : List κ) :
    entries (calls.map fun call => ({ stage := .active call } : Thread κ)) = [] := by
  simp [entries, Thread.entry]

theorem mem_entries {calls : List (Thread κ)} {entry : Nat} (member : thread ∈ calls)
    (has : thread.entry = some entry) :
    entry ∈ entries calls :=
  List.mem_filterMap.mpr ⟨thread, member, has⟩

theorem reached_entries (thread : Thread κ) (rest : Progress κ) : entries (thread.reach rest).calls = [] := by
  cases rest <;> rfl

theorem reached_asleep (thread : Thread κ) (rest : Progress κ) (queue : List Nat) :
    ∀ next ∈ (thread.reach rest).calls, next.asleep queue = false := by
  cases rest <;> simp [Thread.reach, Thread.asleep]

theorem reached_owes (thread : Thread κ) {rest : Progress κ} (due : ∃ next ∈ rest.calls, indebted next = true) :
    ∃ next ∈ (thread.reach rest).calls, next.owes indebted = true := by
  obtain ⟨next, member, due⟩ := due
  cases rest with
  | next call =>
    obtain rfl := List.mem_singleton.mp member
    exact ⟨_, List.mem_singleton_self _, due⟩
  | returned value => cases member

/-- A thread keeps its entry, or is through with it, or takes a new one. -/
theorem Advance.entries_cases (advance : Advance p s thread progress s') :
    (entries progress.calls = thread.entry.toList ∨ entries progress.calls = []) ∧ s'.issued = s.issued ∨
      thread.entry = none ∧ entries progress.calls = [s.issued] ∧ s'.issued = s.issued + 1 := by
  cases advance with
  | acted | finished => exact .inl ⟨.inr (reached_entries _ _), rfl⟩
  | missed => exact .inr ⟨rfl, rfl, rfl⟩
  | prepared | passed | interrupted | slept | awoken => exact .inl ⟨.inl rfl, rfl⟩

theorem shaped_entries {before after : List (Thread κ)} (shape : m.calls = before ++ thread :: after) :
    entries m.calls = entries before ++ (thread.entry.toList ++ entries after) := by
  rw [shape, entries_append]
  congr 1
  cases has : thread.entry <;> simp [entries, has]

/-- What a step leaves on the queue, and whether it takes over the wake-up that is owed. -/
theorem Advance.attends (diligent : Diligent p indebted) (advance : Advance p s thread progress s')
    (ready : p.ready s'.driver = true) :
    s'.queue = [] ∨
      (∀ next ∈ progress.calls, next.asleep s'.queue = false) ∧
      (∀ entry ∈ s'.queue, entry ∈ s.queue ∨ thread.entry = some entry) ∧
      ((∃ next ∈ progress.calls, next.owes indebted = true) ∨ p.ready s.driver = true ∧ thread.owes indebted = false) := by
  cases advance with
  | @acted call signalled rest driver _ stepped =>
    by_cases wakes : p.wakes call = true
    · exact .inl (if_pos wakes)
    · refine .inr ⟨reached_asleep _ _ _, ?_, ?_⟩
      · rw [if_neg wakes]
        exact fun entry member => .inl member
      · by_cases due : indebted call = true ∨ p.ready s.driver = false ∧ p.ready driver = true
        · exact .inl (reached_owes _ (diligent.stepped stepped (Bool.eq_false_iff.mpr wakes) due))
        · have held : p.ready driver = true := ready
          simp only [held, and_true, not_or, Bool.not_eq_true, Bool.not_eq_false] at due
          exact .inr ⟨due.2, due.1⟩
  | missed waits unready => exact absurd ready (by simp [unready])
  | interrupted unready | slept unready => exact absurd ready (by simp [unready])
  | @prepared call entry signalled =>
    refine .inr ⟨by simp [Thread.asleep], ?_, .inr ⟨ready, rfl⟩⟩
    intro other member
    change other ∈ (if entry ∈ s.queue then s.queue else entry :: s.queue) at member
    split at member
    next => exact .inl member
    next => exact (List.mem_cons.mp member).elim (fun same => .inr (by rw [same]; rfl)) .inl
  | passed held => exact .inr ⟨by simp [Thread.asleep], fun entry member => .inl member, .inr ⟨held, rfl⟩⟩
  | awoken => exact .inr ⟨by simp [Thread.asleep], fun entry member => .inl member, .inr ⟨ready, rfl⟩⟩
  | @finished rest entry signalled =>
    refine .inr ⟨reached_asleep _ _ _, fun entry member => .inl (List.mem_of_mem_erase member), ?_⟩
    by_cases due : rest.calls.any indebted = true
    · exact .inl (reached_owes _ (List.any_eq_true.mp due))
    · exact .inr ⟨ready, Bool.eq_false_iff.mpr due⟩

theorem asleep_entry {queue : List Nat} (asleep : thread.asleep queue = true) :
    ∃ entry ∈ queue, thread.entry = some entry := by
  obtain ⟨stage, signalled⟩ := thread
  cases stage with
  | schedule call entry => exact ⟨entry, of_decide_eq_true asleep, rfl⟩
  | _ => cases asleep

theorem asleep_earlier {queue earlier : List Nat} (asleep : thread.asleep queue = true)
    (kept : ∀ entry ∈ queue, thread.entry = some entry → entry ∈ earlier) : thread.asleep earlier = true := by
  obtain ⟨stage, signalled⟩ := thread
  cases stage with
  | schedule call entry => exact decide_eq_true (kept entry (of_decide_eq_true asleep) rfl)
  | _ => cases asleep

theorem Attended.ran {before after : List (Thread κ)} (diligent : Diligent p indebted)
    (attended : Attended p indebted m)
    (shape : m.calls = before ++ thread :: after) (advance : Advance p m.shared thread progress s') :
    Attended p indebted ⟨s', before ++ progress.calls ++ after⟩ := by
  obtain ⟨distinct, issued, attended⟩ := attended
  have listed := shaped_entries shape
  rw [listed] at distinct issued
  have apart (other : Thread κ) (member : other ∈ before ++ after) (entry : Nat) (has : other.entry = some entry) :
      thread.entry ≠ some entry := by
    intro own
    rw [own, Option.toList_some, List.singleton_append, List.nodup_middle] at distinct
    apply (List.nodup_cons.mp distinct).1
    rw [← entries_append]
    exact mem_entries member has
  refine ⟨?_, ?_, ?_⟩
  · rw [entries_append, entries_append, List.append_assoc]
    rcases advance.entries_cases with ⟨same | none, _⟩ | ⟨none, fresh, _⟩
    · rwa [same]
    · rw [none, List.nil_append]
      exact distinct.sublist ((List.sublist_append_right _ _).append_left _)
    · rw [none, Option.toList_none, List.nil_append] at distinct issued
      rw [fresh, List.singleton_append, List.nodup_middle, List.nodup_cons]
      exact ⟨fun member => Nat.lt_irrefl _ (issued _ member), distinct⟩
  · intro entry member
    rw [entries_append, entries_append, List.append_assoc] at member
    rcases advance.entries_cases with ⟨same | none, kept⟩ | ⟨none, fresh, more⟩
    · rw [same] at member
      exact kept ▸ issued entry member
    · rw [none, List.nil_append] at member
      apply kept ▸ issued entry
      exact ((List.sublist_append_right _ _).append_left _).subset member
    · rw [none, Option.toList_none, List.nil_append] at issued
      rw [fresh, List.singleton_append] at member
      change entry < s'.issued
      rw [more]
      rcases List.mem_cons.mp (List.perm_middle.mem_iff.mp member) with rfl | member
      · exact Nat.lt_succ_self _
      · exact Nat.lt_succ_of_lt (issued entry member)
  · rintro ready ⟨sleeper, member, asleep⟩
    rcases advance.attends diligent ready with empty | ⟨up, kept, due⟩
    · obtain ⟨entry, queued, _⟩ := asleep_entry asleep
      rw [show s'.queue = [] from empty] at queued
      cases queued
    · have elsewhere : sleeper ∈ before ++ after := by
        refine (mem_replaced.mp member).resolve_left fun own => ?_
        exact Bool.false_ne_true ((up sleeper own).symm.trans asleep)
      rcases due with ⟨next, own, due⟩ | ⟨before_ready, idle⟩
      · exact ⟨next, mem_replaced.mpr (.inl own), due⟩
      · have earlier : sleeper.asleep m.shared.queue = true := by
          refine asleep_earlier asleep fun entry queued has => ?_
          exact (kept entry queued).resolve_right (apart sleeper elsewhere entry has)
        obtain ⟨debtor, present, due⟩ := attended before_ready ⟨sleeper, other_mem shape elsewhere, earlier⟩
        refine ⟨debtor, mem_replaced.mpr (.inr ?_), due⟩
        rw [shape, List.mem_append, List.mem_cons] at present
        rcases present with present | rfl | present
        · exact List.mem_append_left _ present
        · exact absurd due (by simp [idle])
        · exact List.mem_append_right _ present

theorem Attended.step (diligent : Diligent p indebted) {action : Action α} (attended : Attended p indebted m)
    (stepped : Stepped p m action m') : Attended p indebted m' := by
  cases stepped with
  | @entered call calls driver enters =>
    obtain ⟨distinct, issued, attended⟩ := attended
    refine ⟨?_, ?_, ?_⟩
    · simpa using distinct
    · simpa using issued
    · rintro ready ⟨sleeper, member, asleep⟩
      have earlier : sleeper ∈ m.calls := by
        refine (List.mem_append.mp member).resolve_right fun new => ?_
        obtain ⟨call, _, rfl⟩ := List.mem_map.mp new
        cases asleep
      obtain ⟨debtor, present, due⟩ := attended (diligent.entered enters ready) ⟨sleeper, earlier, asleep⟩
      exact ⟨debtor, List.mem_append_left _ present, due⟩
  | @signalled index before stage signalled after shape =>
    obtain ⟨distinct, issued, attended⟩ := attended
    have listed : entries (before ++ [⟨stage, true⟩] ++ after) = entries m.calls := by
      rw [shaped_entries shape]
      simp only [entries_append, List.append_assoc]
      congr 2
    refine ⟨listed ▸ distinct, fun entry member => issued entry (listed ▸ member), ?_⟩
    rintro ready ⟨sleeper, member, asleep⟩
    have earlier : ∃ other ∈ m.calls, other.asleep m.shared.queue = true := by
      rcases mem_replaced.mp member with own | elsewhere
      · obtain rfl := List.mem_singleton.mp own
        exact ⟨⟨stage, signalled⟩, by simp [shape], asleep⟩
      · exact ⟨sleeper, other_mem shape elsewhere, asleep⟩
    obtain ⟨debtor, present, due⟩ := attended ready earlier
    rw [shape, List.mem_append, List.mem_cons] at present
    rcases present with present | rfl | present
    · exact ⟨debtor, mem_replaced.mpr (.inr (List.mem_append_left _ present)), due⟩
    · exact ⟨⟨stage, true⟩, mem_replaced.mpr (.inl (List.mem_singleton_self _)), due⟩
    · exact ⟨debtor, mem_replaced.mpr (.inr (List.mem_append_right _ present)), due⟩
  | ran shape advance => exact attended.ran diligent shape advance

theorem attended_run {driver : σ} {actions : List (Action α)} (diligent : Diligent p indebted)
    (run : Run p.machine free (loaded driver) actions m) : Attended p indebted m := by
  refine run.invariant (Attended p indebted) ⟨by simp [loaded, entries], by simp [loaded, entries], ?_⟩ ?_
  · rintro _ ⟨_, member, _⟩
    cases member
  · exact fun _ _ _ kept _ stepped => kept.step diligent (machine_cases stepped)

/-- While the condition is true it stays so, and every step brings its call closer to its end. -/
structure Latched (p : Program σ κ α) (rank : κ → Nat) : Prop where
  kept : ∀ {s call rest s'}, p.ready s = true → p.step s call = some (rest, s') → p.ready s' = true
  decreases : ∀ {s call rest s'}, p.ready s = true → p.step s call = some (rest, s') →
    ∀ next ∈ rest.calls, rank next < rank call

variable {rank : κ → Nat}

def ahead (rank : κ → Nat) : Progress κ → Nat
  | .next call => 5 * rank call + 1
  | .returned _ => 0

def Thread.work (rank : κ → Nat) (thread : Thread κ) : Nat :=
  match thread.stage with
  | .active call => 5 * rank call + 1
  | .test call _ => 5 * rank call + 2
  | .prepare call _ => 5 * rank call + 3
  | .schedule call _ => 5 * rank call + 4
  | .finish rest _ => ahead rank rest + 1

def work (rank : κ → Nat) (calls : List (Thread κ)) : Nat := load (Thread.work rank) calls

@[simp] theorem work_append (first last : List (Thread κ)) :
    work rank (first ++ last) = work rank first + work rank last :=
  load_append ..

theorem reached_work (thread : Thread κ) (rest : Progress κ) :
    work rank (thread.reach rest).calls = ahead rank rest := by
  cases rest <;> rfl

theorem Latched.ahead_le {driver driver' : σ} {call : κ} {rest : Progress κ} (latched : Latched p rank)
    (ready : p.ready driver = true) (stepped : p.step driver call = some (rest, driver')) :
    ahead rank rest ≤ 5 * rank call := by
  cases rest with
  | next call' =>
    have := latched.decreases ready stepped call' (List.mem_singleton_self _)
    simp only [ahead]
    omega
  | returned value => exact Nat.zero_le _

theorem Advance.work (latched : Latched p rank) (advance : Advance p s thread progress s')
    (ready : p.ready s.driver = true) :
    p.ready s'.driver = true ∧ work rank progress.calls < thread.work rank := by
  cases advance with
  | acted _ stepped =>
    refine ⟨latched.kept ready stepped, ?_⟩
    rw [reached_work]
    exact Nat.lt_succ_of_le (latched.ahead_le ready stepped)
  | passed _ stepped =>
    refine ⟨latched.kept ready stepped, ?_⟩
    have := latched.ahead_le ready stepped
    simp only [WaitQueues.work, Thread.work, calls_next, load_cons, load_nil]
    omega
  | missed _ unready | interrupted unready _ | slept unready => exact absurd ready (by simp [unready])
  | prepared | awoken => exact ⟨ready, Nat.lt_succ_self _⟩
  | finished =>
    refine ⟨ready, ?_⟩
    rw [reached_work]
    exact Nat.lt_succ_self _

abbrev Action.Runs : Program.Machine σ κ → Action α → Prop := fun _ action => ∃ index, action = .run index

/-- Once the condition is true, the calls in progress make so many steps and no more. -/
theorem settles {actions : List (Action α)} (latched : Latched p rank) (ready : p.ready m.shared.driver = true)
    (run : Run p.machine Action.Runs m actions m') :
    p.ready m'.shared.driver = true ∧ actions.length + work rank m'.calls ≤ work rank m.calls := by
  apply run.bounded (fun m => p.ready m.shared.driver = true) (fun m => work rank m.calls) ready
  rintro before _ after held ⟨index, rfl⟩ stepped
  cases machine_cases stepped with
  | @ran _ first thread last progress s shape advance =>
    obtain ⟨still, decreased⟩ := advance.work latched held
    refine ⟨still, ?_⟩
    have shaped : work rank before.calls = work rank first + (thread.work rank + work rank last) := by
      rw [shape, work_append]
      rfl
    simp only [work_append]
    omega

/-- Only a wait holds a call up, and only while the condition is false. -/
def Program.Enabled (p : Program σ κ α) : Prop :=
  ∀ s call, (p.waits call = true → p.ready s = true) → (p.step s call).isSome = true

theorem Program.Enabled.goes_on (enabled : p.Enabled) (up : thread.asleep s.queue = false) :
    (p.advance s thread).isSome = true := by
  obtain ⟨stage, signalled⟩ := thread
  cases stage with
  | active call =>
    simp only [Program.advance]
    split
    next => rfl
    next free =>
      simp only [Bool.and_eq_true, Bool.not_eq_true', not_and, Bool.not_eq_false] at free
      simpa [Program.act] using enabled _ call free
  | test call entry =>
    simp only [Program.advance]
    split
    next ready => simpa using enabled _ call fun _ => ready
    next => split <;> rfl
  | schedule call entry =>
    have off : entry ∉ s.queue := of_decide_eq_false up
    simp [Program.advance, off]
  | prepare | finish => rfl

/-- Where no call in progress can go on, all are asleep, and there are none if the condition is true. -/
theorem stopped (enabled : p.Enabled) (attended : Attended p indebted m)
    (blocked : ∀ index, p.machine m (.run index) = none) :
    (∀ thread ∈ m.calls, thread.asleep m.shared.queue = true) ∧ (p.ready m.shared.driver = true → m.calls = []) := by
  have asleep (thread : Thread κ) (member : thread ∈ m.calls) : thread.asleep m.shared.queue = true := by
    by_contra up
    obtain ⟨⟨progress, shared⟩, taken⟩ := Option.isSome_iff_exists.mp (enabled.goes_on (Bool.eq_false_iff.mpr up))
    obtain ⟨before, after, shape⟩ := List.append_of_mem member
    have none_there : m.run p.advance before.length = none := blocked before.length
    rw [System.run_at shape taken] at none_there
    cases none_there
  refine ⟨asleep, fun ready => List.eq_nil_iff_forall_not_mem.mpr ?_⟩
  intro thread member
  obtain ⟨debtor, present, due⟩ := attended.attended ready ⟨thread, member, asleep thread member⟩
  have sleeping := asleep debtor present
  obtain ⟨stage, signalled⟩ := debtor
  cases stage with
  | schedule => cases due
  | _ => cases sleeping

end DeviceDrivers.WaitQueues
