import DeviceDrivers.Proofs.SnullSettled

/-! Every socket buffer is completed once. A device remembers one buffer at a
time, so what matters is that it is handed the next only after the last was
freed, and that nothing frees the remembered one again. -/

namespace DeviceDrivers.Snull
open Runs

/-- The accounts of an ideal device pair: what was handed to each, which of
them has not completed the last, and what has been freed. -/
@[ext] structure Books where
  out : Dev → Outgoing
  waiting : Dev → Bool
  freed : List (Dev × Skb)
  handed : List (Dev × Skb)

namespace Books
variable (b : Books) (dev : Dev) (skb : Skb)

def hand : Books :=
  { b with
    out := Function.update b.out dev { b.out dev with len := (padded skb.data).size, skb := some skb }
    waiting := Function.update b.waiting dev true
    handed := b.handed ++ [(dev, skb)] }

def complete : Books :=
  { b with
    out := Function.update b.out dev (b.out dev).complete
    waiting := Function.update b.waiting dev false
    freed := b.freed ++ (b.out dev).skb.toList.map (dev, ·) }

def freedSizes : List Nat := (b.freed.filter (·.1 = dev)).map fun entry => (padded entry.2.data).size

def ids (entries : List (Dev × Skb)) : List Nat := entries.map (·.2.id)

/-- Everything handed over has been freed once, or waits at its device. -/
structure Balanced : Prop where
  once : (ids b.freed).Nodup
  distinct : (ids b.handed).Nodup
  known : ∀ entry ∈ b.freed, entry ∈ b.handed
  remembered : ∀ dev skb, (b.out dev).skb = some skb → (dev, skb) ∈ b.handed
  pending : ∀ dev, b.waiting dev = true →
    ∃ skb, (b.out dev).skb = some skb ∧ (b.out dev).len = (padded skb.data).size ∧ skb.id ∉ ids b.freed
  accounted : ∀ dev skb, (dev, skb) ∈ b.handed →
    (dev, skb) ∈ b.freed ∨ b.waiting dev = true ∧ (b.out dev).skb = some skb
  packets : ∀ dev, (b.out dev).packets = .ofNat (b.freedSizes dev).length
  bytes : ∀ dev, (b.out dev).bytes = .ofNat (b.freedSizes dev).sum

variable {b dev skb}

private theorem freedSizes_complete (item : (b.out dev).skb = some skb) (other : Dev) :
    (b.complete dev).freedSizes other =
      b.freedSizes other ++ if other = dev then [(padded skb.data).size] else [] := by
  by_cases same : other = dev
  · subst same
    simp [freedSizes, complete, item]
  · simp [freedSizes, complete, item, same, Ne.symm same]

private theorem nodup_concat {numbers : List Nat} {number : Nat} (distinct : numbers.Nodup)
    (apart : number ∉ numbers) : (numbers ++ [number]).Nodup :=
  (List.perm_append_singleton number numbers).nodup_iff.mpr (List.nodup_cons.mpr ⟨apart, distinct⟩)

private theorem Balanced.hand (balanced : b.Balanced) (idle : b.waiting dev = false) (fresh : skb.id ∉ ids b.handed) :
    (b.hand dev skb).Balanced := by
  have unfreed : skb.id ∉ ids b.freed := by
    intro member
    obtain ⟨entry, freed, same⟩ := List.mem_map.mp member
    exact fresh (List.mem_map.mpr ⟨entry, balanced.known entry freed, same⟩)
  refine ⟨balanced.once, ?_, ?_, ?_, ?_, ?_, ?_, ?_⟩
  · simpa [Books.hand, ids] using nodup_concat balanced.distinct fresh
  · intro entry freed
    exact List.mem_append_left _ (balanced.known entry freed)
  · intro other remembered item
    by_cases same : other = dev
    · subst same
      simp only [Books.hand, Function.update_self, Option.some.injEq] at item
      simp [Books.hand, item]
    · exact List.mem_append_left _ (balanced.remembered other remembered (by simpa [Books.hand, same] using item))
  · intro other waiting
    by_cases same : other = dev
    · subst same
      exact ⟨skb, by simp [Books.hand], by simp [Books.hand], unfreed⟩
    · simpa [Books.hand, same] using balanced.pending other (by simpa [Books.hand, same] using waiting)
  · intro other item member
    rcases List.mem_append.mp member with member | member
    · rcases balanced.accounted other item member with freed | ⟨waiting, held⟩
      · exact .inl freed
      · have different : other ≠ dev := by
          rintro rfl
          simp [idle] at waiting
        exact .inr (by simpa [Books.hand, different] using ⟨waiting, held⟩)
    · obtain ⟨rfl, rfl⟩ := Prod.mk.inj (List.mem_singleton.mp member)
      exact .inr (by simp [Books.hand])
  · intro other
    have same : ((b.hand dev skb).out other).packets = (b.out other).packets := by
      simp only [Books.hand, Function.update_apply]
      split <;> simp_all
    exact same.trans (balanced.packets other)
  · intro other
    have same : ((b.hand dev skb).out other).bytes = (b.out other).bytes := by
      simp only [Books.hand, Function.update_apply]
      split <;> simp_all
    exact same.trans (balanced.bytes other)

theorem Balanced.complete (balanced : b.Balanced) (waiting : b.waiting dev = true) :
    (b.complete dev).Balanced := by
  obtain ⟨skb, item, len, unfreed⟩ := balanced.pending dev waiting
  have freed : (b.complete dev).freed = b.freed ++ [(dev, skb)] := by simp [Books.complete, item]
  have out (other : Dev) : ((b.complete dev).out other).skb = (b.out other).skb := by
    simp only [Books.complete, Function.update_apply]
    split
    next same => rw [same]; rfl
    next => rfl
  have handed := balanced.remembered dev skb item
  refine ⟨?_, balanced.distinct, ?_, ?_, ?_, ?_, ?_, ?_⟩
  · rw [freed]
    simpa [ids] using nodup_concat balanced.once unfreed
  · intro entry member
    rw [freed] at member
    rcases List.mem_append.mp member with member | member
    · exact balanced.known entry member
    · rw [List.mem_singleton.mp member]
      exact handed
  · intro other remembered held
    rw [out] at held
    exact balanced.remembered other remembered held
  · intro other still
    have different : other ≠ dev := by
      rintro rfl
      simp [Books.complete] at still
    obtain ⟨held, kept, size, apart⟩ := balanced.pending other (by simpa [Books.complete, different] using still)
    refine ⟨held, by rw [out]; exact kept, by simpa [Books.complete, different] using size, ?_⟩
    rw [freed]
    simp only [ids, List.map_append, List.map_cons, List.map_nil, List.mem_append, List.mem_singleton, not_or]
    refine ⟨apart, fun same => different ?_⟩
    exact congrArg Prod.fst
      (List.inj_on_of_nodup_map balanced.distinct (balanced.remembered other held kept) handed same)
  · intro other entry member
    rcases balanced.accounted other entry member with done | ⟨still, held⟩
    · exact .inl (by rw [freed]; exact List.mem_append_left _ done)
    · by_cases same : other = dev
      · subst same
        rw [item] at held
        cases held
        exact .inl (by simp [freed])
      · exact .inr (by simpa [Books.complete, same] using ⟨still, held⟩)
  · intro other
    rw [freedSizes_complete item]
    by_cases same : other = dev
    · subst same
      simp [Books.complete, Outgoing.complete, balanced.packets]
    · simpa [Books.complete, same] using balanced.packets other
  · intro other
    rw [freedSizes_complete item]
    by_cases same : other = dev
    · subst same
      simp [Books.complete, Outgoing.complete, balanced.bytes, len]
    · simpa [Books.complete, same] using balanced.bytes other

private theorem Balanced.freed_again (balanced : b.Balanced) (idle : b.waiting dev = false)
    (item : (b.out dev).skb = some skb) : ¬ (ids (b.complete dev).freed).Nodup := by
  have done : (dev, skb) ∈ b.freed := by
    rcases balanced.accounted dev skb (balanced.remembered dev skb item) with done | ⟨waiting, _⟩
    · exact done
    · simp [idle] at waiting
  intro once
  simp only [Books.complete, item, ids, Option.toList_some, List.map_cons, List.map_nil, List.map_append] at once
  have apart := List.disjoint_of_nodup_append once
  apply apart (List.mem_map.mpr ⟨_, done, rfl⟩)
  simp

end Books

structure Traffic where
  state : State
  handed : List (Dev × Skb)

def Call.hands : Call → List (Dev × Skb)
  | .tx dev skb _ => [(dev, skb)]
  | .txTimeout _ _ => []

namespace Traffic

def step (cfg : Config) (t : Traffic) (call : Call) : Option Traffic :=
  (call.run cfg t.state).map fun state => ⟨state, t.handed ++ call.hands⟩

/-- The kernel's side of the contract. No socket buffer is handed over twice. -/
def Allowed (t : Traffic) (call : Call) : Prop :=
  call.Allowed t.state ∧ ∀ entry ∈ call.hands, entry.2.id ∉ Books.ids t.handed

instance (t : Traffic) (call : Call) : Decidable (t.Allowed call) := inferInstanceAs (Decidable (_ ∧ _))

/-- The watchdog fires only for a transmission that is still outstanding. -/
def WatchdogInTime (t : Traffic) : Call → Prop
  | .tx _ _ _ => True
  | .txTimeout dev _ => raised (t.state.priv dev).status snullTxIntr = true

instance (t : Traffic) (call : Call) : Decidable (t.WatchdogInTime call) :=
  match call with
  | .tx _ _ _ => inferInstanceAs (Decidable True)
  | .txTimeout _ _ => inferInstanceAs (Decidable (_ = true))

def freedFor (t : Traffic) (dev : Dev) : List Skb := (t.state.freed.filter (·.1 = dev)).map (·.2)

/-- What is promised of every state: no buffer was freed twice, none was
forgotten before it was freed, and the counters tell of the freed ones. -/
structure Completed (t : Traffic) : Prop where
  once : (t.state.freed.map (·.2.id)).Nodup
  kept : ∀ dev skb, (dev, skb) ∈ t.handed → (dev, skb) ∈ t.state.freed ∨ (t.state.priv dev).skb = some skb
  packets : ∀ dev, (t.state.priv dev).stats.txPackets = .ofNat (t.freedFor dev).length
  bytes : ∀ dev, (t.state.priv dev).stats.txBytes =
    .ofNat ((t.freedFor dev).map fun skb => max ethZlen skb.data.length).sum

def books (t : Traffic) : Books where
  out dev := (t.state.priv dev).account.outgoing
  waiting := t.state.outstanding
  freed := t.state.freed
  handed := t.handed

private theorem completed_of_balanced {t : Traffic} (balanced : t.books.Balanced) : t.Completed := by
  refine ⟨balanced.once, ?_, ?_, ?_⟩
  · intro dev skb member
    rcases balanced.accounted dev skb member with done | ⟨_, held⟩
    · exact .inl done
    · exact .inr held
  · intro dev
    have packets : (t.state.priv dev).stats.txPackets = .ofNat (t.books.freedSizes dev).length := balanced.packets dev
    simpa [Books.freedSizes, freedFor, books] using packets
  · intro dev
    have bytes : (t.state.priv dev).stats.txBytes = .ofNat (t.books.freedSizes dev).sum := balanced.bytes dev
    simpa [Books.freedSizes, freedFor, books, padded_size, Function.comp_def] using bytes

end Traffic

variable {cfg : Config} {links : Links} {s : State}

private theorem Settled.arrived_books {dev : Dev} {skb : Skb} {around : Surroundings} {handed : List (Dev × Skb)}
    (settled : Settled links s) (running : s.control.stopped dev = false) (waiting : Dev → Bool)
    (same : waiting = Function.update (Function.update s.outstanding (route skb dev) false) dev true) :
    Books.mk (fun other => ((s.arrived cfg around skb dev).account other).outgoing) waiting
        (s.arrived cfg around skb dev).freed (handed ++ [(dev, skb)]) =
      let sending := (Traffic.books ⟨s, handed⟩).hand dev skb
      if s.outstanding (route skb dev) then sending.complete (route skb dev) else sending := by
  have idle := settled.idle running
  subst same
  have account (other : Dev) : (s.ledger.account other).outgoing = (s.priv other).account.outgoing := rfl
  have held : (s.priv (route skb dev)).account.outgoing.skb = (s.priv (route skb dev)).skb := rfl
  cases overdue : s.outstanding (route skb dev) with
  | true =>
    have apart : route skb dev ≠ dev := by
      intro same
      rw [same, idle] at overdue
      cases overdue
    refine Books.ext (funext fun other => (settled.arrived_outgoing running other).trans ?_)
      (funext fun other => ?_) ((settled.arrived_freed running).trans ?_) rfl
    · by_cases same : other = dev
      · subst same
        simp [Books.complete, Books.hand, Traffic.books, account, Ne.symm apart]
      · by_cases there : other = route skb dev
        · subst there
          simp [Books.complete, Books.hand, Traffic.books, account, same, overdue]
        · simp [Books.complete, Books.hand, Traffic.books, account, same, there]
    · by_cases same : other = dev
      · subst same
        simp [Books.complete, Books.hand, Ne.symm apart]
      · simp [Books.complete, Books.hand, Traffic.books, same, Function.update_apply]
    · simp [Books.complete, Books.hand, Traffic.books, overdue, apart, held]
  | false =>
    refine Books.ext (funext fun other => (settled.arrived_outgoing running other).trans ?_)
      (funext fun other => ?_) ((settled.arrived_freed running).trans ?_) rfl
    · by_cases same : other = dev
      · subst same
        simp [Books.hand, Traffic.books, account]
      · have still : ¬ (other = route skb dev ∧ s.outstanding other = true) := by
          rintro ⟨rfl, waiting⟩
          simp [overdue] at waiting
        simp [Books.hand, Traffic.books, account, same, still]
    · by_cases same : other = dev
      · subst same
        simp [Books.hand]
      · simp only [Books.hand, Traffic.books, Function.update_apply, same, if_false, Bool.false_eq_true]
        split
        next there => rw [there]; exact overdue.symm
        next => rfl
    · simp [Books.hand, Traffic.books, overdue]

/-- A complete transmission on the books: the frame's arrival completes what
the receiver had outstanding, and then the sender's interrupt completes the
frame itself unless it is dropped. -/
private theorem Settled.transmit_books {dev : Dev} {skb : Skb} {around : Surroundings} {s' : State}
    {handed : List (Dev × Skb)} (settled : Settled links s) (regular : cfg.useNapi = false)
    (running : s.control.stopped dev = false) (ran : snullTx cfg around skb dev s = some s') :
    Traffic.books ⟨s', handed ++ [(dev, skb)]⟩ =
      let sending := (Traffic.books ⟨s, handed⟩).hand dev skb
      let arrived := if s.outstanding (route skb dev) then sending.complete (route skb dev) else sending
      if simulatesLockup cfg dev s then arrived else arrived.complete dev := by
  have spec := settled.transmitted regular running ran
  have arrived := @Settled.arrived_books cfg links s dev skb around handed settled running _ rfl
  have whole : Traffic.books ⟨s', handed ++ [(dev, skb)]⟩ =
      Books.mk (fun other => (s'.ledger.account other).outgoing) s'.outstanding s'.ledger.freed
        (handed ++ [(dev, skb)]) := rfl
  rw [whole]
  split at spec
  next locks =>
    obtain ⟨control, ledger⟩ := spec
    have waiting : s'.outstanding =
        Function.update (Function.update s.outstanding (route skb dev) false) dev true := by
      funext other
      simp only [State.outstanding, control, Function.update_apply]
      split
      · simp
      · split <;> simp
    simp only [locks, if_true]
    rw [waiting, ledger]
    exact arrived
  next completes =>
    obtain ⟨control, ledger⟩ := spec
    have waiting : s'.outstanding = Function.update s.outstanding (route skb dev) false := by
      funext other
      simp only [State.outstanding, control, Function.update_apply]
      split <;> simp
    have clear : Function.update s.outstanding (route skb dev) false dev = false := by
      rw [Function.update_apply, settled.idle running]
      split <;> rfl
    simp only [completes]
    rw [waiting, ledger, ← arrived]
    refine Books.ext (funext fun other => (completed_outgoing ..).trans ?_) (funext fun other => ?_) rfl rfl
    · by_cases same : other = dev
      · subst same
        simp [Books.complete]
      · simp [Books.complete, same]
    · by_cases same : other = dev
      · subst same
        simpa [Books.complete] using clear
      · simp [Books.complete, same]

private theorem timeout_books {dev : Dev} {memory : Bool} {handed : List (Dev × Skb)} (regular : cfg.useNapi = false) :
    Traffic.books ⟨snullTxTimeout cfg memory dev s, handed⟩ = (Traffic.books ⟨s, handed⟩).complete dev := by
  obtain ⟨control, ledger⟩ := @snullTxTimeout_spec cfg s dev memory regular
  have errors (g : Ledger) (other : Dev) : ((g.error dev).account other).outgoing = (g.account other).outgoing := by
    by_cases same : other = dev
    · subst same
      simp [Ledger.error, Account.outgoing]
    · simp [Ledger.error, same]
  have whole : Traffic.books ⟨snullTxTimeout cfg memory dev s, handed⟩ =
      Books.mk (fun other => ((snullTxTimeout cfg memory dev s).ledger.account other).outgoing)
        (snullTxTimeout cfg memory dev s).outstanding (snullTxTimeout cfg memory dev s).ledger.freed handed := rfl
  rw [whole, ledger]
  refine Books.ext (funext fun other => (errors _ other).trans ((completed_outgoing ..).trans ?_))
    (funext fun other => ?_) rfl rfl
  · by_cases same : other = dev
    · subst same
      simp [Books.complete, Traffic.books, State.ledger]
    · simp [Books.complete, Traffic.books, State.ledger, same]
  · by_cases same : other = dev
    · subst same
      simp [Books.complete, State.outstanding, control]
    · simp [Books.complete, Traffic.books, State.outstanding, control, same]

/-- What a run keeps as long as the watchdog is in time. A stopped device still
remembers a buffer, completed or not. -/
structure Orderly (links : Links) (t : Traffic) : Prop where
  settled : Settled links t.state
  balanced : t.books.Balanced
  holding : ∀ dev, t.state.control.stopped dev = true → ∃ skb, (t.books.out dev).skb = some skb

private theorem complete_skb (b : Books) (dev other : Dev) :
    ((b.complete dev).out other).skb = (b.out other).skb := by
  simp only [Books.complete, Function.update_apply]
  split
  next same => rw [same]; rfl
  next => rfl

theorem Orderly.initial {kmalloc : Dev → Nat → Bool} {contents : Addr → Packet} :
    Orderly (setUp cfg kmalloc contents).control.links ⟨opened cfg kmalloc contents, []⟩ := by
  have settled := @Settled.initial cfg kmalloc contents
  have same : (opened cfg kmalloc contents).ledger = (setUp cfg kmalloc contents).ledger := by simp [opened]
  have out (dev : Dev) : ((opened cfg kmalloc contents).priv dev).account.outgoing = ⟨0, 0, 0, none⟩ := by
    obtain ⟨head, device⟩ := @setUp_device cfg kmalloc contents dev
    change ((opened cfg kmalloc contents).ledger.account dev).outgoing = _
    rw [same]
    change ((setUp cfg kmalloc contents).device dev).priv.account.outgoing = _
    rw [device]
    rfl
  have freed : (opened cfg kmalloc contents).freed = [] := (@setUp_logs cfg kmalloc contents).1
  have clear (dev : Dev) : (opened cfg kmalloc contents).control.stopped dev = false := by
    cases dev <;> simp [opened]
  refine ⟨settled, ⟨?_, ?_, ?_, ?_, ?_, ?_, ?_, ?_⟩, ?_⟩
  · simp [Traffic.books, freed, Books.ids]
  · simp [Traffic.books, Books.ids]
  · simp [Traffic.books, freed]
  · simp [Traffic.books, out]
  · intro dev waiting
    have idle : (opened cfg kmalloc contents).outstanding dev = false := settled.idle (clear dev)
    simp [Traffic.books, idle] at waiting
  · simp [Traffic.books]
  · simp [Traffic.books, out, freed, Books.freedSizes]
  · simp [Traffic.books, out, freed, Books.freedSizes]
  · intro dev stopped
    simp [clear] at stopped

theorem Orderly.step {t t' : Traffic} {call : Call} (kept : Orderly links t) (regular : cfg.useNapi = false)
    (allowed : t.Allowed call) (inTime : t.WatchdogInTime call) (stepped : t.step cfg call = some t') :
    Orderly links t' := by
  obtain ⟨settled, balanced, holding⟩ := kept
  obtain ⟨s', ran, same⟩ := Option.map_eq_some_iff.mp stepped
  subst same
  have settled' := settled.step regular allowed.1 ran
  cases call with
  | tx dev skb around =>
    have running : t.state.control.stopped dev = false := allowed.1
    have fresh : skb.id ∉ Books.ids t.handed := allowed.2 (dev, skb) (by simp [Call.hands])
    have books := @Settled.transmit_books cfg links t.state dev skb around s' t.handed settled regular running ran
    have sending := balanced.hand (settled.idle running) fresh
    have waits : (t.books.hand dev skb).waiting dev = true := by simp [Books.hand]
    have arrived : ∃ b : Books, b.Balanced ∧ b.waiting dev = true ∧
        (∀ other, (b.out other).skb = if other = dev then some skb else (t.books.out other).skb) ∧
        Traffic.books ⟨s', t.handed ++ [(dev, skb)]⟩ =
          if simulatesLockup cfg dev t.state then b else b.complete dev := by
      have item (other : Dev) : ((t.books.hand dev skb).out other).skb =
          if other = dev then some skb else (t.books.out other).skb := by
        simp only [Books.hand, Function.update_apply]
        split <;> rfl
      cases overdue : t.state.outstanding (route skb dev) with
      | false => exact ⟨t.books.hand dev skb, sending, waits, item, by simpa [overdue] using books⟩
      | true =>
        have apart : route skb dev ≠ dev := by
          intro same
          rw [same, settled.idle running] at overdue
          cases overdue
        refine ⟨(t.books.hand dev skb).complete (route skb dev), sending.complete ?_, ?_, ?_, by
          simpa [overdue] using books⟩
        · have waiting : t.books.waiting (route skb dev) = true := overdue
          simpa [Books.hand, apart] using waiting
        · simpa [Books.complete, Ne.symm apart] using waits
        · intro other
          rw [complete_skb, item]
    obtain ⟨b, balanced, waiting, items, books⟩ := arrived
    refine ⟨settled', ?_, ?_⟩
    · change (Traffic.books ⟨s', t.handed ++ [(dev, skb)]⟩).Balanced
      rw [books]
      split
      · exact balanced
      · exact balanced.complete waiting
    · intro other stopped
      change ∃ item, ((Traffic.books ⟨s', t.handed ++ [(dev, skb)]⟩).out other).skb = some item
      have same : ((Traffic.books ⟨s', t.handed ++ [(dev, skb)]⟩).out other).skb = (b.out other).skb := by
        rw [books]
        split
        · rfl
        · exact complete_skb b dev other
      rw [same, items]
      split
      · exact ⟨skb, rfl⟩
      next different =>
        apply holding
        rw [settled.stopped regular running ran, Function.update_of_ne different] at stopped
        exact stopped
  | txTimeout dev memory =>
    cases ran
    have books := @timeout_books cfg t.state dev memory t.handed regular
    have control := (@snullTxTimeout_spec cfg t.state dev memory regular).1
    have waiting : t.books.waiting dev = true := inTime
    refine ⟨settled', ?_, ?_⟩
    · change (Traffic.books ⟨_, t.handed ++ []⟩).Balanced
      rw [List.append_nil, books]
      exact balanced.complete waiting
    · intro other stopped
      change ∃ item, ((Traffic.books ⟨_, t.handed ++ []⟩).out other).skb = some item
      rw [List.append_nil, books]
      have different : other ≠ dev := by
        rintro rfl
        simp [control] at stopped
      rw [complete_skb]
      apply holding
      simpa [control, different] using stopped

/-- A watchdog that fires after the interrupt frees the remembered buffer again. -/
theorem Orderly.broken {t t' : Traffic} {call : Call} (kept : Orderly links t) (regular : cfg.useNapi = false)
    (allowed : t.Allowed call) (late : ¬ t.WatchdogInTime call) (stepped : t.step cfg call = some t') :
    ¬ t'.Completed := by
  obtain ⟨s', ran, same⟩ := Option.map_eq_some_iff.mp stepped
  subst same
  cases call with
  | tx dev skb around => exact absurd trivial late
  | txTimeout dev memory =>
    cases ran
    have stopped : t.state.control.stopped dev = true := allowed.1
    obtain ⟨skb, item⟩ := kept.holding dev stopped
    have idle : t.books.waiting dev = false := Bool.eq_false_iff.mpr late
    intro completed
    have books := @timeout_books cfg t.state dev memory t.handed regular
    apply kept.balanced.freed_again idle item
    rw [← books]
    exact completed.once

/-- Regular mode, any lockup parameter, any sequence of complete calls on
opened devices within the contract: all socket buffers handed over so far are
accounted for in every state passed through, exactly if the watchdog only ever
fired for a transmission that was still outstanding. -/
theorem completed_iff_watchdog_in_time (cfg : Config) (kmalloc : Dev → Nat → Bool) (contents : Addr → Packet)
    (regular : cfg.useNapi = false) (calls : List Call) (t : Traffic)
    (run : Run (Traffic.step cfg) Traffic.Allowed ⟨opened cfg kmalloc contents, []⟩ calls t) :
    Throughout (Traffic.step cfg) Traffic.Allowed ⟨opened cfg kmalloc contents, []⟩ calls Traffic.Completed ↔
      Run (Traffic.step cfg) (Both Traffic.Allowed Traffic.WatchdogInTime)
        ⟨opened cfg kmalloc contents, []⟩ calls t :=
  run.throughout_iff (Orderly (setUp cfg kmalloc contents).control.links) Traffic.Completed Orderly.initial
    (fun _ _ _ kept allowed inTime stepped => kept.step regular allowed inTime stepped)
    (fun _ kept => Traffic.completed_of_balanced kept.balanced)
    (fun _ _ _ kept allowed late stepped => kept.broken regular allowed late stepped)

/-- A lockup at every transmission, and a watchdog that notices at once. -/
theorem completed_iff_watchdog_in_time_lockup : ∃ calls,
    Throughout (Traffic.step (sample 1 1)) Traffic.Allowed
      ⟨opened (sample 1 1) (fun _ _ => true) sampleMemory, []⟩ calls Traffic.Completed := by
  have reached : ∃ t : Traffic, Run (Traffic.step (sample 1 1)) (Both Traffic.Allowed Traffic.WatchdogInTime)
      ⟨opened (sample 1 1) (fun _ _ => true) sampleMemory, []⟩
      [.tx .sn0 ⟨0, samplePing⟩ {}, .txTimeout .sn0 true, .tx .sn0 ⟨1, samplePlain⟩ {}] t ∧
      t.state.freed.length = 1 := reaches_of_execute (by decide +kernel)
  obtain ⟨t, inTime, _⟩ := reached
  have run : Run _ Traffic.Allowed _ _ t := inTime.mono fun _ _ both => both.1
  exact ⟨_, (completed_iff_watchdog_in_time _ _ _ rfl _ t run).mpr inTime⟩

/-- Both transmissions seem to hang, but the second one's frame has completed
the first. The watchdog of the first device then frees its buffer once more. -/
theorem freed_twice : ¬ ∀ (cfg : Config) (kmalloc : Dev → Nat → Bool) (contents : Addr → Packet)
    (calls : List Call) (t : Traffic), cfg.useNapi = false →
    Run (Traffic.step cfg) Traffic.Allowed ⟨opened cfg kmalloc contents, []⟩ calls t → t.Completed := by
  intro claim
  have reached : ∃ t : Traffic, Run (Traffic.step (sample 8 1)) Traffic.Allowed
      ⟨opened (sample 8 1) (fun _ _ => true) sampleMemory, []⟩
      [.tx .sn0 ⟨0, samplePlain⟩ {}, .tx .sn1 ⟨1, samplePlain⟩ {}, .txTimeout .sn0 true] t ∧
      t.state.freed.map (·.2.id) = [0, 0] := reaches_of_execute (by decide +kernel)
  obtain ⟨t, run, freed⟩ := reached
  have once := (claim _ _ _ _ t rfl run).once
  rw [freed] at once
  simp at once

end DeviceDrivers.Snull
