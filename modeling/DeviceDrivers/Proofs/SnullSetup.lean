import DeviceDrivers.Proofs.SnullLists
import DeviceDrivers.Snull.Module

/-! The state in which the two `snull_setup_pool` calls leave the devices. -/

namespace DeviceDrivers.Snull
open Chains

/-- A small regular-mode driver for concrete runs; its checksum is always zero. -/
def sample (poolSize : Int) (lockup : BitVec 32) : Config where
  lockup := lockup
  poolSize := poolSize
  ipFastCsum _ _ := 0

def sampleMemory (_ : Addr) : Packet := ⟨none, .sn0, 0, []⟩

def samplePing : List UInt8 := List.replicate 34 0 ++ [8, 0]
def samplePlain : List UInt8 := List.replicate 36 1

variable {cfg : Config} {kmalloc : Dev → Nat → Bool} {memory : Addr → Packet}

structure Stocked (s : State) (l : Lists) : Prop where
  represents : Represents s.control.links l
  complete : l.all.Perm (List.range s.fresh)
  quiet : ∀ dev, l.rx dev = []

private theorem links_addPacket (dev : Dev) (s : State) :
    (addPacket dev s).control.links =
      { s.control.links with dev := Function.update s.control.links.dev s.fresh dev }.give s.fresh := by
  rw [Snull.addPacket, State.onPriv, control_onDevice, control_onPacket]
  simp [State.control, State.priv, Links.give]

theorem Stocked.addPacket {s : State} {l : Lists} (stocked : Stocked s l) (dev : Dev) :
    Stocked (addPacket dev s) (l.give dev s.fresh) := by
  have absent : s.fresh ∉ l.all := fun member => by
    simpa using stocked.complete.subset member
  have renamed : Represents { s.control.links with dev := Function.update s.control.links.dev s.fresh dev } l := by
    refine ⟨stocked.represents.pools, stocked.represents.queues, ?_⟩
    intro other pkt member
    have different : pkt ≠ s.fresh := by
      rintro rfl
      exact absent (Lists.mem_all.mpr ⟨other, .inl member⟩)
    simpa [different] using stocked.represents.owned other pkt member
  refine ⟨?_, ?_, stocked.quiet⟩
  · rw [links_addPacket]
    simpa using renamed.give absent
  · refine Lists.give_perm.trans ((stocked.complete.cons _).trans ?_)
    change (s.fresh :: List.range s.fresh).Perm (List.range (s.fresh + 1))
    rw [List.range_succ]
    exact (List.perm_append_singleton _ _).symm

/-- What each packet keeps, the loop keeps, wherever `kmalloc` ends it. -/
private theorem setupPoolLoop_keeps {outcome : Nat → Bool} {dev : Dev} {remaining i : Nat} {s : State}
    (kept : State → Prop) (initial : kept s) (added : ∀ s, kept s → kept (addPacket dev s)) :
    kept (snullSetupPoolLoop outcome dev remaining i s) := by
  induction remaining generalizing i s with
  | zero => exact initial
  | succ remaining ih =>
    rw [snullSetupPoolLoop]
    split
    · exact ih (added s initial)
    · exact initial

private theorem Stocked.setupPoolLoop {outcome : Nat → Bool} {dev : Dev} {remaining i : Nat} {s : State}
    {l : Lists} (stocked : Stocked s l) :
    ∃ l, Stocked (snullSetupPoolLoop outcome dev remaining i s) l := by
  apply setupPoolLoop_keeps fun s => ∃ l, Stocked s l
  · exact ⟨l, stocked⟩
  · rintro s ⟨l, stocked⟩
    exact ⟨_, stocked.addPacket dev⟩

private def withPool (head : Option Addr) (device : NetDevice) : NetDevice :=
  { device with priv := { device.priv with ppool := head } }

private theorem addPacket_device (dev other : Dev) (s : State) :
    (addPacket dev s).device other =
      if other = dev then withPool (some s.fresh) (s.device dev) else s.device other := by
  simp [addPacket, State.onPriv, withPool, Function.update_apply]

private theorem setupPoolLoop_device {outcome : Nat → Bool} {dev : Dev} (remaining i : Nat) (s : State) :
    ∃ head, ∀ other, (snullSetupPoolLoop outcome dev remaining i s).device other =
      if other = dev then withPool head (s.device dev) else s.device other := by
  apply setupPoolLoop_keeps fun after =>
    ∃ head, ∀ other, after.device other = if other = dev then withPool head (s.device dev) else s.device other
  · exact ⟨(s.priv dev).ppool, fun other => by split <;> simp_all [withPool, State.priv]⟩
  · rintro before ⟨head, same⟩
    refine ⟨some before.fresh, fun other => ?_⟩
    rw [addPacket_device, same, same, if_pos rfl]
    split <;> simp [withPool]

private theorem setupPoolLoop_nonempty {outcome : Nat → Bool} {dev : Dev} {remaining i : Nat} {s : State}
    (some : (s.priv dev).ppool ≠ none) :
    ((snullSetupPoolLoop outcome dev remaining i s).priv dev).ppool ≠ none := by
  apply setupPoolLoop_keeps fun s => (s.priv dev).ppool ≠ none
  · exact some
  · intro s _
    simp [State.priv, addPacket_device, withPool]

private def prepared (dev : Dev) (s : State) : State :=
  (snullRxInts dev true (s.onDevice dev fun device => { device with mtu := 1500, priv := {} })).onPriv dev
    fun priv => { priv with ppool := none }

private theorem snullInit_loop {outcome : Nat → Bool} {poolSize : Int} {dev : Dev} {s : State} :
    snullInit poolSize outcome dev s = snullSetupPoolLoop outcome dev poolSize.toNat 0 (prepared dev s) := rfl

private theorem prepared_device (dev other : Dev) (s : State) :
    (prepared dev s).device other =
      if other = dev then { s.device dev with mtu := 1500, priv := { rxIntEnabled := true } }
      else s.device other := by
  simp only [prepared, snullRxInts, State.onPriv, State.onDevice_device, Function.update_apply]
  split <;> simp

private theorem prepared_links {dev : Dev} {s : State} (pool : (s.priv dev).ppool = none)
    (queue : (s.priv dev).rxQueue = none) : (prepared dev s).control.links = s.control.links := by
  ext other : 2
  · rfl
  · rfl
  all_goals
    simp only [State.control, State.priv, prepared_device]
    split
    next found => simp_all [State.priv]
    next => rfl

theorem Stocked.init {s : State} {l : Lists} (stocked : Stocked s l) (outcome : Nat → Bool)
    (poolSize : Int) (dev : Dev) (pool : (s.priv dev).ppool = none)
    (queue : (s.priv dev).rxQueue = none) : ∃ l, Stocked (snullInit poolSize outcome dev s) l := by
  rw [snullInit_loop]
  apply Stocked.setupPoolLoop (l := l)
  exact ⟨prepared_links pool queue ▸ stocked.represents, stocked.complete, stocked.quiet⟩

theorem init_device (outcome : Nat → Bool) (poolSize : Int) (dev : Dev) (s : State) :
    ∃ head, ∀ other, (snullInit poolSize outcome dev s).device other =
      if other = dev then { s.device dev with mtu := 1500, priv := { rxIntEnabled := true, ppool := head } }
      else s.device other := by
  rw [snullInit_loop]
  obtain ⟨head, same⟩ := setupPoolLoop_device poolSize.toNat 0 (prepared dev s)
  refine ⟨head, fun other => ?_⟩
  rw [same]
  split <;> simp_all [prepared_device, withPool]

private theorem init_nonempty {outcome : Nat → Bool} {poolSize : Int} {dev : Dev} {s : State}
    (wanted : 1 ≤ poolSize) (granted : outcome 0 = true) :
    ((snullInit poolSize outcome dev s).priv dev).ppool ≠ none := by
  obtain ⟨rounds, same⟩ : ∃ rounds, poolSize.toNat = rounds + 1 := ⟨poolSize.toNat - 1, by omega⟩
  rw [snullInit_loop, same]
  simp only [snullSetupPoolLoop, granted, if_true]
  apply setupPoolLoop_nonempty
  simp [State.priv, addPacket_device, withPool]

theorem setUp_device (dev : Dev) : ∃ head, (setUp cfg kmalloc memory).device dev =
    { priv := { rxIntEnabled := true, ppool := head }, mtu := 1500, up := false, stopped := true } := by
  obtain ⟨second, last⟩ := init_device (kmalloc .sn1) cfg.poolSize .sn1
    (snullInit cfg.poolSize (kmalloc .sn0) .sn0 (blank memory))
  obtain ⟨first, before⟩ := init_device (kmalloc .sn0) cfg.poolSize .sn0 (blank memory)
  cases dev with
  | sn0 =>
    refine ⟨first, ?_⟩
    rw [setUp, last, if_neg (by simp), before, if_pos rfl]
    rfl
  | sn1 =>
    refine ⟨second, ?_⟩
    rw [setUp, last, if_pos rfl, before, if_neg (by simp)]
    rfl

private theorem setupPoolLoop_logs {outcome : Nat → Bool} {dev : Dev} (remaining i : Nat) (s : State) :
    let after := snullSetupPoolLoop outcome dev remaining i s
    after.freed = s.freed ∧ after.touched = s.touched ∧ after.kfreed = s.kfreed ∧ after.passedUp = s.passedUp := by
  apply setupPoolLoop_keeps fun after =>
    after.freed = s.freed ∧ after.touched = s.touched ∧ after.kfreed = s.kfreed ∧ after.passedUp = s.passedUp
  · exact ⟨rfl, rfl, rfl, rfl⟩
  · exact fun _ same => same

theorem init_logs (outcome : Nat → Bool) (poolSize : Int) (dev : Dev) (s : State) :
    let after := snullInit poolSize outcome dev s
    after.freed = s.freed ∧ after.touched = s.touched ∧ after.kfreed = s.kfreed ∧ after.passedUp = s.passedUp :=
  setupPoolLoop_logs _ _ _

theorem setUp_logs : (setUp cfg kmalloc memory).freed = [] ∧ (setUp cfg kmalloc memory).touched = [] ∧
    (setUp cfg kmalloc memory).kfreed = [] ∧ (setUp cfg kmalloc memory).passedUp = [] := by
  obtain ⟨freed, touched, kfreed, passedUp⟩ := init_logs (kmalloc .sn1) cfg.poolSize .sn1
    (snullInit cfg.poolSize (kmalloc .sn0) .sn0 (blank memory))
  obtain ⟨freed', touched', kfreed', passedUp'⟩ := init_logs (kmalloc .sn0) cfg.poolSize .sn0 (blank memory)
  exact ⟨freed.trans freed', touched.trans touched', kfreed.trans kfreed', passedUp.trans passedUp'⟩

theorem init_fresh (outcome : Nat → Bool) (poolSize : Int) (dev : Dev) (s : State) :
    (snullInit poolSize outcome dev s).fresh ≤ s.fresh + poolSize.toNat := by
  have loop (remaining i : Nat) (s : State) :
      (snullSetupPoolLoop outcome dev remaining i s).fresh ≤ s.fresh + remaining := by
    induction remaining generalizing i s with
    | zero => exact le_refl _
    | succ remaining ih =>
      simp only [snullSetupPoolLoop]
      split
      · have rest := ih (i + 1) (Snull.addPacket dev s)
        exact rest.trans_eq (Nat.add_right_comm s.fresh 1 remaining)
      · exact Nat.le_add_right ..
  rw [snullInit_loop]
  exact loop _ _ (prepared dev s)

theorem blank_stocked : Stocked (blank memory) ⟨fun _ => [], fun _ => []⟩ :=
  ⟨⟨fun _ => .nil, fun _ => .nil, by simp⟩, .refl _, fun _ => rfl⟩

theorem setUp_stocked : ∃ l, Stocked (setUp cfg kmalloc memory) l := by
  obtain ⟨l, first⟩ := blank_stocked.init (kmalloc .sn0) cfg.poolSize .sn0 rfl rfl
  obtain ⟨head, device⟩ := init_device (kmalloc .sn0) cfg.poolSize .sn0 (blank memory)
  have other : (snullInit cfg.poolSize (kmalloc .sn0) .sn0 (blank memory)).device .sn1 = {} :=
    (device .sn1).trans (if_neg (by simp))
  apply first.init (kmalloc .sn1) cfg.poolSize .sn1
  · rw [State.priv, other]
  · rw [State.priv, other]

theorem setUp_nonempty (wanted : 1 ≤ cfg.poolSize) (granted : ∀ dev, kmalloc dev 0 = true) (dev : Dev) :
    ((setUp cfg kmalloc memory).priv dev).ppool ≠ none := by
  cases dev with
  | sn0 =>
    obtain ⟨_, device⟩ := init_device (kmalloc .sn1) cfg.poolSize .sn1
      (snullInit cfg.poolSize (kmalloc .sn0) .sn0 (blank memory))
    have untouched := device .sn0
    simp only [setUp, State.priv, untouched]
    exact init_nonempty wanted (granted .sn0)
  | sn1 => exact init_nonempty wanted (granted .sn1)

end DeviceDrivers.Snull
