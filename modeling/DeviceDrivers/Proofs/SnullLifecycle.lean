import DeviceDrivers.Proofs.SnullFreight

/-! What unloading the module gives back. The same cleanup runs after a failed
load and at a normal unload. It walks the two pools and unregisters whatever was
allocated, wherever the packets are and whatever was registered. -/

namespace DeviceDrivers.Snull
open Chains Runs

/-- Everything allocated was freed once, and exactly the registrations were undone. -/
structure Clean (m : Module) : Prop where
  packets : m.state.kfreed.Perm (List.range m.state.fresh)
  devices : ∀ dev, m.netdevs.count (.free dev) = m.netdevs.count (.alloc dev)
  registrations : ∀ dev, m.netdevs.count (.unregister dev) = m.netdevs.count (.register dev)

private def drained (l : Lists) (dev : Dev) : Lists := { l with pool := Function.update l.pool dev [] }

private theorem teardownPool_spec {fuel : Nat} {dev : Dev} {s : State} {l : Lists}
    (holds : Represents s.control.links l) (enough : (l.pool dev).length < fuel) :
    ∃ s', snullTeardownPool fuel dev s = some s' ∧ s'.kfreed = s.kfreed ++ l.pool dev ∧ s'.fresh = s.fresh ∧
      Represents s'.control.links (drained l dev) := by
  induction fuel generalizing s l with
  | zero => omega
  | succ fuel ih =>
    cases head : (s.priv dev).ppool with
    | none =>
      have empty : l.pool dev = [] := holds.pool_nil.mpr head
      have same : drained l dev = l := by
        rw [drained, ← empty, Function.update_eq_self]
      exact ⟨s, by rw [snullTeardownPool, head], by simp [empty], rfl, by rw [same]; exact holds⟩
    | some pkt =>
      obtain ⟨rest, front, _⟩ := holds.pool_front (show s.control.links.ppool dev = some pkt from head)
      have taken : Represents (kfree pkt (unlinkPool dev pkt s)).control.links (l.take dev) := by
        have same : (kfree pkt (unlinkPool dev pkt s)).control = (unlinkPool dev pkt s).control := rfl
        rw [same, control_unlinkPool]
        exact holds.take head
      have shorter : (l.take dev).pool dev = rest := by simp [Lists.take, front]
      have emptied : drained (l.take dev) dev = drained l dev := by simp [drained, Lists.take]
      have fewer : ((l.take dev).pool dev).length < fuel := by
        rw [front, List.length_cons] at enough
        rw [shorter]
        omega
      obtain ⟨s', ran, freed, fresh, represents⟩ := ih taken fewer
      refine ⟨s', by rw [snullTeardownPool, head]; exact ran, ?_, fresh, emptied ▸ represents⟩
      rw [freed, shorter, front]
      exact List.append_assoc ..

private def present (m : Module) : List Dev := [Dev.sn0, Dev.sn1].filter m.snullDevs

private theorem cleanupDevice_spec {fuel : Nat} {dev : Dev} {m : Module} {l : Lists}
    (holds : Represents m.state.control.links l) (enough : (l.pool dev).length < fuel) :
    ∃ m', m.cleanupDevice fuel dev = some m' ∧ m'.snullDevs = m.snullDevs ∧ m'.state.fresh = m.state.fresh ∧
      m'.state.kfreed = m.state.kfreed ++ (if m.snullDevs dev then l.pool dev else []) ∧
      m'.netdevs = m.netdevs ++ (if m.snullDevs dev then [.unregister dev, .free dev] else []) ∧
      ∃ l', Represents m'.state.control.links l' ∧ ∀ other ≠ dev, l'.pool other = l.pool other := by
  unfold Module.cleanupDevice
  split
  next =>
    have closed : Represents (m.unregisterNetdev dev).state.control.links l ∧
        (m.unregisterNetdev dev).state.kfreed = m.state.kfreed ∧
        (m.unregisterNetdev dev).state.fresh = m.state.fresh := by
      simp only [Module.unregisterNetdev]
      split
      · exact ⟨by simpa using holds, rfl, rfl⟩
      · exact ⟨holds, rfl, rfl⟩
    obtain ⟨represents, kfreed, fresh⟩ := closed
    obtain ⟨s', ran, freed, fresh', emptied⟩ := teardownPool_spec represents enough
    refine ⟨_, Option.map_eq_some_iff.mpr ⟨s', ran, rfl⟩, rfl, fresh'.trans fresh, ?_, ?_, _, emptied, ?_⟩
    · rw [← kfreed]
      exact freed
    · simp [Module.log, Module.unregisterNetdev]
    · intro other different
      simp [drained, different]
  next =>
    exact ⟨m, rfl, rfl, rfl, by simp, by simp, l, holds, fun _ _ => rfl⟩

/-- Cleanup ends. It frees what the pools of the existing devices hold, and
unregisters and frees those devices. -/
private theorem snullCleanup_spec {fuel : Nat} {m : Module} {l : Lists} (holds : Represents m.state.control.links l)
    (enough : ∀ dev, (l.pool dev).length < fuel) :
    ∃ m', snullCleanup fuel m = some m' ∧ m'.state.fresh = m.state.fresh ∧
      m'.state.kfreed = m.state.kfreed ++ (present m).flatMap l.pool ∧
      m'.netdevs = m.netdevs ++ (present m).flatMap fun dev => [.unregister dev, .free dev] := by
  obtain ⟨m₁, first, devs, fresh, kfreed, netdevs, l₁, holds₁, others⟩ :=
    @cleanupDevice_spec fuel .sn0 m l holds (enough .sn0)
  have second : l₁.pool .sn1 = l.pool .sn1 := others .sn1 (by simp)
  obtain ⟨m₂, last, _, fresh', kfreed', netdevs', _⟩ :=
    @cleanupDevice_spec fuel .sn1 m₁ l₁ holds₁ (by rw [second]; exact enough .sn1)
  refine ⟨m₂, by rw [snullCleanup, first]; exact last, fresh'.trans fresh, ?_, ?_⟩
  · rw [kfreed', kfreed, second, devs, present]
    cases zero : m.snullDevs .sn0 <;> cases one : m.snullDevs .sn1 <;> simp [zero, one]
  · rw [netdevs', netdevs, devs, present]
    cases zero : m.snullDevs .sn0 <;> cases one : m.snullDevs .sn1 <;> simp [zero, one]

/-- A module before its cleanup. The packets are in the lists, or in the hands
of calls that hold `held`. -/
private structure Loaded (m : Module) (registered : List Dev) (l : Lists) (held : List Addr) : Prop where
  represents : Represents m.state.control.links l
  partition : (l.all ++ held).Perm (List.range m.state.fresh)
  unfreed : m.state.kfreed = []
  missing : ∀ dev, m.snullDevs dev = false → l.pool dev = []
  netdevs : m.netdevs = (present m).map .alloc ++ registered.map .register

private theorem count_calls (devs : List Dev) (dev : Dev) :
    (devs.map NetdevCall.alloc).count (.alloc dev) = devs.count dev ∧
      (devs.map NetdevCall.register).count (.register dev) = devs.count dev ∧
      (devs.flatMap fun dev => [NetdevCall.unregister dev, .free dev]).count (.unregister dev) = devs.count dev ∧
      (devs.flatMap fun dev => [NetdevCall.unregister dev, .free dev]).count (.free dev) = devs.count dev := by
  induction devs with
  | nil => simp
  | cons first rest ih => simp [List.count_cons, ih]

private theorem count_other (devs : List Dev) (dev : Dev) :
    (devs.map NetdevCall.alloc).count (.register dev) = 0 ∧ (devs.map NetdevCall.alloc).count (.unregister dev) = 0 ∧
      (devs.map NetdevCall.alloc).count (.free dev) = 0 ∧ (devs.map NetdevCall.register).count (.alloc dev) = 0 ∧
      (devs.map NetdevCall.register).count (.unregister dev) = 0 ∧
      (devs.map NetdevCall.register).count (.free dev) = 0 ∧
      (devs.flatMap fun dev => [NetdevCall.unregister dev, .free dev]).count (.alloc dev) = 0 ∧
      (devs.flatMap fun dev => [NetdevCall.unregister dev, .free dev]).count (.register dev) = 0 := by
  simp [List.count_eq_zero]

private theorem Loaded.packets {m : Module} {registered : List Dev} {l : Lists} {held : List Addr}
    (loaded : Loaded m registered l held) :
    ((present m).flatMap l.pool).Perm (List.range m.state.fresh) ↔ (∀ dev, l.rx dev = []) ∧ held = [] := by
  have pools : (present m).flatMap l.pool = l.pool .sn0 ++ l.pool .sn1 := by
    have missing := loaded.missing
    rw [present]
    cases zero : m.snullDevs .sn0 <;> cases one : m.snullDevs .sn1 <;> simp [zero, one, missing]
  have partition := loaded.partition
  have length := partition.length_eq
  simp only [Lists.all, List.length_append] at length
  rw [pools]
  constructor
  · intro freed
    have all := freed.length_eq
    simp only [List.length_append] at all
    refine ⟨fun dev => ?_, List.length_eq_zero_iff.mp (by omega)⟩
    cases dev <;> exact List.length_eq_zero_iff.mp (by omega)
  · rintro ⟨quiet, rfl⟩
    simpa [Lists.all, quiet] using partition

private theorem Loaded.cleanup {m : Module} {registered : List Dev} {l : Lists} {held : List Addr} {fuel : Nat}
    (loaded : Loaded m registered l held) (enough : m.state.fresh < fuel) :
    ∃ m', snullCleanup fuel m = some m' ∧
      (Clean m' ↔ (∀ dev, (present m).count dev = registered.count dev) ∧ (∀ dev, l.rx dev = []) ∧ held = []) := by
  have pool (dev : Dev) : (l.pool dev).length < fuel := by
    have length := loaded.partition.length_eq
    simp only [Lists.all, List.length_append, List.length_range] at length
    refine Nat.lt_of_le_of_lt ?_ enough
    cases dev <;> omega
  obtain ⟨m', ran, fresh, kfreed, netdevs⟩ := snullCleanup_spec loaded.represents pool
  rw [loaded.unfreed, List.nil_append] at kfreed
  rw [loaded.netdevs] at netdevs
  refine ⟨m', ran, ?_⟩
  have counts (dev : Dev) := count_calls (present m) dev
  have others (dev : Dev) := count_other (present m) dev
  have registers (dev : Dev) := count_calls registered dev
  have foreign (dev : Dev) := count_other registered dev
  rw [← loaded.packets]
  constructor
  · intro clean
    refine ⟨fun dev => ?_, by simpa [kfreed, fresh] using clean.packets⟩
    have same := clean.registrations dev
    simpa [netdevs, counts, others, registers, foreign] using same
  · rintro ⟨same, freed⟩
    refine ⟨by simpa [kfreed, fresh] using freed, fun dev => ?_, fun dev => ?_⟩
    · simp [netdevs, counts, others, foreign]
    · simp [netdevs, counts, others, registers, foreign, same]

private theorem present_count (m : Module) (dev : Dev) :
    (present m).count dev = if m.snullDevs dev then 1 else 0 := by
  rw [present]
  cases dev <;> cases zero : m.snullDevs .sn0 <;> cases one : m.snullDevs .sn1 <;> simp [zero, one]

variable {cfg : Config} {load : Loading} {contents : Addr → Packet}

private def allocated (cfg : Config) (load : Loading) (contents : Addr → Packet) : Module :=
  ((Module.mk (blank contents) (fun _ => false) []).allocNetdev cfg load .sn0).allocNetdev cfg load .sn1

private structure Allocating (cfg : Config) (load : Loading) (m : Module) (tried : List Dev) : Prop where
  stocked : ∃ l, Stocked m.state l
  unfreed : m.state.kfreed = []
  untouched : ∀ dev, m.snullDevs dev = false → m.state.device dev = {}
  fresh : m.state.fresh ≤ tried.length * cfg.poolSize.toNat
  snullDevs : ∀ dev, m.snullDevs dev = (tried.contains dev && load.allocNetdev dev)
  netdevs : m.netdevs = (tried.filter load.allocNetdev).map .alloc

private theorem Allocating.step {m : Module} {tried : List Dev} {dev : Dev} (allocating : Allocating cfg load m tried)
    (new : dev ∉ tried) : Allocating cfg load (m.allocNetdev cfg load dev) (tried ++ [dev]) := by
  have missing : m.snullDevs dev = false := by simp [allocating.snullDevs, new]
  have blankDevice := allocating.untouched dev missing
  have added (other : Dev) : Function.update m.snullDevs dev (load.allocNetdev dev) other =
      ((tried ++ [dev]).contains other && load.allocNetdev other) := by
    by_cases same : other = dev
    · subst same
      simp
    · simp [same, allocating.snullDevs]
  unfold Module.allocNetdev
  split
  next granted =>
    rw [granted] at added
    obtain ⟨l, stocked⟩ := allocating.stocked
    obtain ⟨head, device⟩ := init_device (load.kmalloc dev) cfg.poolSize dev m.state
    refine ⟨stocked.init _ _ dev (by rw [State.priv, blankDevice]) (by rw [State.priv, blankDevice]),
      (init_logs _ _ dev m.state).2.2.1.trans allocating.unfreed, ?_, ?_, added, ?_⟩
    · intro other absent
      by_cases same : other = dev
      · subst same
        simp at absent
      · exact ((device other).trans (if_neg same)).trans
          (allocating.untouched other (by simpa [same] using absent))
    · refine (init_fresh _ _ dev m.state).trans ((Nat.add_le_add_right allocating.fresh _).trans_eq ?_)
      rw [List.length_append, List.length_singleton, Nat.add_mul, Nat.one_mul]
    · simp [Module.log, allocating.netdevs, granted]
  next refused =>
    have refused : load.allocNetdev dev = false := by simpa using refused
    rw [refused] at added
    refine ⟨allocating.stocked, allocating.unfreed, ?_, ?_, added, by simp [allocating.netdevs, refused]⟩
    · intro other absent
      by_cases same : other = dev
      · exact same ▸ blankDevice
      · apply allocating.untouched other
        simpa [same] using absent
    · refine allocating.fresh.trans (Nat.mul_le_mul_right _ ?_)
      simp

private theorem allocated_loaded : ∃ l, Loaded (allocated cfg load contents) [] l [] ∧ (∀ dev, l.rx dev = []) ∧
    (allocated cfg load contents).snullDevs = load.allocNetdev ∧
    (allocated cfg load contents).state.fresh ≤ 2 * cfg.poolSize.toNat := by
  have start : Allocating cfg load (Module.mk (blank contents) (fun _ => false) []) [] :=
    ⟨⟨_, blank_stocked⟩, rfl, fun _ _ => rfl, Nat.zero_le _, fun _ => rfl, rfl⟩
  have allocating : Allocating cfg load (allocated cfg load contents) [.sn0, .sn1] :=
    (start.step (by simp)).step (by simp)
  have devs : (allocated cfg load contents).snullDevs = load.allocNetdev := by
    funext dev
    rw [allocating.snullDevs]
    cases dev <;> simp
  obtain ⟨l, stocked⟩ := allocating.stocked
  refine ⟨l, ⟨stocked.represents, by simpa using stocked.complete, allocating.unfreed, ?_, ?_⟩, stocked.quiet, devs,
    allocating.fresh⟩
  · intro dev missing
    apply stocked.represents.pool_nil.mpr
    change ((allocated cfg load contents).state.device dev).priv.ppool = none
    rw [allocating.untouched dev missing]
  · rw [present, devs, allocating.netdevs]
    simp

private def registered (cfg : Config) (load : Loading) (contents : Addr → Packet) : Module :=
  ((allocated cfg load contents).registerNetdev load .sn0).registerNetdev load .sn1

private theorem initModule_eq (fuel : Nat) : snullInitModule cfg load contents fuel =
    if (allocated cfg load contents).snullDevs .sn0 = false ∨ (allocated cfg load contents).snullDevs .sn1 = false then
      (snullCleanup fuel (allocated cfg load contents)).map fun m => (-12, m)
    else if load.registerNetdev .sn0 = 0 ∨ load.registerNetdev .sn1 = 0 then some (0, registered cfg load contents)
    else (snullCleanup fuel (registered cfg load contents)).map fun m => (-19, m) := rfl

private theorem registered_log : registered cfg load contents =
    { allocated cfg load contents with
      netdevs := (allocated cfg load contents).netdevs ++
        ([Dev.sn0, Dev.sn1].filter fun dev => load.registerNetdev dev = 0).map .register } := by
  simp only [registered, Module.registerNetdev]
  by_cases zero : load.registerNetdev .sn0 = 0 <;> by_cases one : load.registerNetdev .sn1 = 0 <;>
    simp [Module.log, zero, one]

private theorem Loaded.register {l : Lists} (loaded : Loaded (allocated cfg load contents) [] l []) :
    Loaded (registered cfg load contents) ([Dev.sn0, Dev.sn1].filter fun dev => load.registerNetdev dev = 0) l [] := by
  have netdevs := loaded.netdevs
  rw [List.map_nil, List.append_nil] at netdevs
  rw [registered_log]
  exact ⟨loaded.represents, loaded.partition, loaded.unfreed, loaded.missing, congrArg (· ++ _) netdevs⟩

private theorem Loaded.used {m : Module} {devs : List Dev} {l : Lists} {actions : List Action} {after : Machine}
    (loaded : Loaded m devs l []) (all : ∀ dev, m.snullDevs dev = true)
    (run : Run (Machine.step cfg) (fun _ _ => True) ⟨m.state, []⟩ actions after) :
    ∃ l, Loaded { m with state := after.state } devs l (after.calls.flatMap Point.held) ∧
      after.state.fresh = m.state.fresh := by
  have start : Conserved (List.range m.state.fresh) ⟨m.state, []⟩ l :=
    ⟨loaded.represents, by simpa using loaded.partition⟩
  obtain ⟨l', kept⟩ := Conserved.run List.nodup_range ⟨l, start⟩ run
  obtain ⟨fresh, kfreed⟩ := run.invariant
    (fun machine => machine.state.fresh = m.state.fresh ∧ machine.state.kfreed = m.state.kfreed) ⟨rfl, rfl⟩
    fun _ _ _ ⟨fresh, kfreed⟩ _ stepped =>
      ⟨(Machine.step_storage stepped).1.trans fresh, (Machine.step_storage stepped).2.trans kfreed⟩
  exact ⟨l', ⟨kept.represents, fresh ▸ kept.partition, kfreed.trans loaded.unfreed, by simp [all], loaded.netdevs⟩,
    fresh⟩

/-- A load fails and leaves nothing behind exactly if neither device was
allocated. After a load that succeeds and any use of the devices, unloading
leaves nothing behind exactly if both were registered and no packet is outside
the pools, neither in a receive queue nor in the hands of a call. -/
theorem cleanup_clean_iff (cfg : Config) (load : Loading) (contents : Addr → Packet) (fuel : Nat)
    (enough : 2 * cfg.poolSize.toNat < fuel) :
    ∃ code m, snullInitModule cfg load contents fuel = some (code, m) ∧
      (code ≠ 0 → (Clean m ↔ ∀ dev, load.allocNetdev dev = false)) ∧
      (code = 0 → ∀ actions after, Run (Machine.step cfg) (fun _ _ => True) ⟨m.state, []⟩ actions after →
        ∃ m', snullCleanup fuel { m with state := after.state } = some m' ∧
          (Clean m' ↔ (∀ dev, load.registerNetdev dev = 0) ∧ (∀ dev, (after.state.priv dev).rxQueue = none) ∧
            ∀ point ∈ after.calls, point.held = [])) := by
  obtain ⟨l, loaded, quiet, devs, fresh⟩ := @allocated_loaded cfg load contents
  have room : (allocated cfg load contents).state.fresh < fuel := Nat.lt_of_le_of_lt fresh enough
  rw [initModule_eq, devs]
  split
  next failed =>
    obtain ⟨m, ran, clean⟩ := loaded.cleanup room
    refine ⟨-12, m, by rw [ran]; rfl, fun _ => ?_, by simp⟩
    rw [clean]
    simp [present_count, devs, quiet]
  next granted =>
    have loaded := loaded.register
    have all (dev : Dev) : (registered cfg load contents).snullDevs dev = true := by
      rw [registered_log, devs]
      cases dev <;> simp_all
    have registrations (dev : Dev) : ([Dev.sn0, Dev.sn1].filter fun dev => load.registerNetdev dev = 0).count dev =
        if load.registerNetdev dev = 0 then 1 else 0 := by
      by_cases zero : load.registerNetdev .sn0 = 0 <;> by_cases one : load.registerNetdev .sn1 = 0 <;> cases dev <;>
        simp [zero, one]
    have room : (registered cfg load contents).state.fresh < fuel := by
      rw [registered_log]
      exact room
    split
    · refine ⟨0, _, rfl, by simp, fun _ actions after run => ?_⟩
      obtain ⟨l', used, fresh⟩ := loaded.used all run
      obtain ⟨m', ran, clean⟩ := used.cleanup (fresh ▸ room)
      refine ⟨m', ran, clean.trans (and_congr ?_ (and_congr ?_ List.flatMap_eq_nil_iff))⟩
      · apply forall_congr'
        intro dev
        rw [present_count, registrations]
        simp [all]
      · exact forall_congr' fun dev => used.represents.rx_nil
    next none =>
      rw [not_or] at none
      obtain ⟨m, ran, clean⟩ := loaded.cleanup room
      refine ⟨-19, m, by rw [ran]; rfl, fun _ => ?_, by simp⟩
      rw [clean]
      constructor
      · rintro ⟨same, _⟩
        have := same .sn0
        simp [present_count, all, none] at this
      · intro refused
        simp [refused] at granted

/-- A ping that has come back is no obstacle to unloading. -/
theorem cleanup_clean_iff_ping : ∃ (m : Module) (actions : List Action) (after : Machine) (m' : Module),
    snullInitModule (sample 2 0) {} sampleMemory 5 = some (0, m) ∧
      Run (Machine.step (sample 2 0)) (fun _ _ => True) ⟨m.state, []⟩ actions after ∧ after.state.passedUp ≠ [] ∧
      snullCleanup 5 { m with state := after.state } = some m' ∧ Clean m' := by
  obtain ⟨code, m, loaded, _, unload⟩ := cleanup_clean_iff (sample 2 0) {} sampleMemory 5 (by decide)
  obtain ⟨rfl, rfl⟩ : code = 0 ∧ m = registered (sample 2 0) {} sampleMemory :=
    Prod.ext_iff.mp (Option.some.inj (loaded.symm.trans rfl))
  have reached : ∃ after : Machine, Run (Machine.step (sample 2 0)) (fun _ _ => True)
      ⟨(registered (sample 2 0) {} sampleMemory).state, []⟩
      (.open .sn0 :: .startTx .sn0 ⟨0, samplePing⟩ [] :: List.replicate 13 (.run 0 true)) after ∧
      after.calls = [] ∧ after.state.passedUp ≠ [] ∧ (after.state.priv .sn0).rxQueue = none ∧
        (after.state.priv .sn1).rxQueue = none := reaches_of_execute (by decide +kernel)
  obtain ⟨after, run, idle, passed, first, second⟩ := reached
  have empty (dev : Dev) : (after.state.priv dev).rxQueue = none := by
    cases dev
    · exact first
    · exact second
  obtain ⟨m', ran, clean⟩ := unload rfl _ after run
  exact ⟨_, _, after, m', loaded, run, passed, ran, clean.mpr ⟨fun _ => rfl, empty, by simp [idle]⟩⟩

/-- A ping of sn0 to itself and a frame from sn1 are queued before either is announced.
One handler run takes the ping for both, and the frame is still queued at unload. -/
theorem queued_packet_leaked : ¬ ∀ (cfg : Config) (load : Loading) (contents : Addr → Packet) (fuel : Nat) (code : Int)
    (m : Module), snullInitModule cfg load contents fuel = some (code, m) →
    (code ≠ 0 → Clean m) ∧
      (code = 0 → ∀ actions after, Run (Machine.step cfg) (fun _ _ => True) ⟨m.state, []⟩ actions after →
        after.calls = [] → ∀ m', snullCleanup fuel { m with state := after.state } = some m' → Clean m') := by
  intro claim
  have loaded : snullInitModule (sample 2 0) {} sampleMemory 5 =
      some (0, registered (sample 2 0) {} sampleMemory) := rfl
  have reached : ∃ after : Machine, Run (Machine.step (sample 2 0)) (fun _ _ => True)
      ⟨(registered (sample 2 0) {} sampleMemory).state, []⟩
      (.open .sn0 :: .open .sn1 ::
        .startTx .sn0 ⟨0, samplePing⟩ [] :: List.replicate 5 (.run 0 true) ++
        .startTx .sn1 ⟨1, samplePlain⟩ [] :: List.replicate 5 (.run 1 true) ++
        .run 0 true :: .run 1 true :: List.replicate 12 (.run 0 true)) after ∧
      after.calls = [] ∧ ∃ m' ∈ snullCleanup 5 { registered (sample 2 0) {} sampleMemory with state := after.state },
        m'.state.kfreed.length ≠ m'.state.fresh := reaches_of_execute (by decide +kernel)
  obtain ⟨after, run, idle, m', ran, leaked⟩ := reached
  have clean := (claim _ _ _ _ _ _ loaded).2 rfl _ after run idle m' ran
  apply leaked
  simpa using clean.packets.length_eq

end DeviceDrivers.Snull
