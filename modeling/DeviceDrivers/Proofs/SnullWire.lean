import DeviceDrivers.Proofs.SnullSettled

/-! Calls that do not overlap see a lossless wire: every frame arrives before
the call that sent it returns, or is counted as dropped. -/

namespace DeviceDrivers.Snull
open Chains Runs

def carriedFrame (cfg : Config) (around : Surroundings) (skb : Skb) : List UInt8 :=
  delivered (sent (padded skb.data) cfg.ipFastCsum around.beyond)

theorem carriedFrame_length (cfg : Config) (around : Surroundings) (skb : Skb) :
    (carriedFrame cfg around skb).length = (padded skb.data).size := by
  have full : (padded skb.data).bytes.length = (padded skb.data).size := padded_full skb.data
  have enough := padded_enough_bytes skb.data
  have same : (sent (padded skb.data) cfg.ipFastCsum around.beyond).length = _ := sent_length enough
  rw [carriedFrame, delivered_length (by omega), same, full]

/-- What one transmission on a wire with these pools has done by its return. -/
structure Carried (cfg : Config) (around : Surroundings) (skb : Skb) (dev : Dev) (pool : Dev → List Addr)
    (s s' : State) : Prop where
  queues : ∀ other, (s'.priv other).rxQueue = none
  pools : ∀ other, Chain (fun pkt => (s'.heap pkt).next) (s'.priv other).ppool (pool other)
  owned : ∀ other, ∀ pkt ∈ pool other, (s'.heap pkt).dev = other
  passedUp : s'.passedUp =
    s.passedUp ++ if around.rxMemory then [(route skb dev, carriedFrame cfg around skb)] else []
  counted : ∀ other, (s'.priv other).account.incoming =
    if other = route skb dev then
      (s.priv other).account.incoming.arrive around.rxMemory (carriedFrame cfg around skb).length
    else (s.priv other).account.incoming
  stopped : (s'.device dev).stopped = simulatesLockup cfg dev s

def Call.Fits : Call → Prop
  | .tx _ skb _ => skb.data.length ≤ ethDataLen
  | .txTimeout _ _ => True

instance (call : Call) : Decidable call.Fits :=
  match call with
  | .tx _ _ _ => inferInstanceAs (Decidable (_ ≤ _))
  | .txTimeout _ _ => inferInstanceAs (Decidable True)

abbrev Call.Contract (s : State) (call : Call) : Prop := call.Allowed s ∧ call.Fits

private theorem Settled.carried {cfg : Config} {around : Surroundings} {skb : Skb} {dev : Dev} {links : Links}
    {l : Lists} {s : State} (settled : Settled links s) (represents : Represents links l)
    (regular : cfg.useNapi = false) (running : s.control.stopped dev = false) (head : links.ppool dev ≠ none) :
    ∃ s', snullTx cfg around skb dev s = some s' ∧ Carried cfg around skb dev l.pool s s' := by
  obtain ⟨s', ran, spec⟩ := @Settled.transmit cfg s dev around links skb settled regular running head
  have kept : Settled links s' :=
    settled.step regular (show Call.Allowed s (.tx dev skb around) from running) ran
  have carried (g : Ledger) (ledger : s'.ledger = g) (stopped : s'.control.stopped dev = simulatesLockup cfg dev s)
      (passedUp : g.passedUp = (s.arrived cfg around skb dev).passedUp)
      (incoming : ∀ other, (g.account other).incoming = ((s.arrived cfg around skb dev).account other).incoming) :
      Carried cfg around skb dev l.pool s s' := by
    refine ⟨?_, ?_, ?_, ?_, ?_, stopped⟩
    · intro other
      have quiet := kept.quiet other
      rw [← kept.restored] at quiet
      exact quiet
    · intro other
      have chain := represents.pools other
      rw [← kept.restored] at chain
      exact chain
    · intro other pkt member
      have owned := represents.owned other pkt member
      rw [← kept.restored] at owned
      exact owned
    · have same : s'.ledger.passedUp = _ := ledger ▸ passedUp.trans arrived_passedUp
      exact same
    · intro other
      have same : (s'.ledger.account other).incoming = _ := ledger ▸ (incoming other).trans (arrived_incoming other)
      rw [carriedFrame_length]
      exact same
  refine ⟨s', ran, ?_⟩
  split at spec
  next locks =>
    exact carried _ spec.2 (by rw [spec.1]; simp [locks]) rfl fun _ => rfl
  next completes =>
    exact carried _ spec.2 (by rw [spec.1]; simpa [running] using completes) rfl fun _ => completed_incoming ..

/-- Regular mode, from freshly opened devices with non-empty pools: after any
sequence of complete calls within the contract, every further transmission
returns, and when it does everything has been carried over. -/
theorem wire_lossless (cfg : Config) (kmalloc : Dev → Nat → Bool) (contents : Addr → Packet)
    (regular : cfg.useNapi = false) (stocked : ∀ dev, ((setUp cfg kmalloc contents).priv dev).ppool ≠ none) :
    ∃ pool : Dev → List Addr,
      (∀ dev, pool dev ≠ [] ∧ Chain (fun pkt => ((opened cfg kmalloc contents).heap pkt).next)
        ((opened cfg kmalloc contents).priv dev).ppool (pool dev)) ∧
      ∀ calls s, Run (Call.run cfg) Call.Contract (opened cfg kmalloc contents) calls s →
        ∀ dev skb around, Call.Contract s (.tx dev skb around) →
          ∃ s', snullTx cfg around skb dev s = some s' ∧ Carried cfg around skb dev pool s s' := by
  obtain ⟨l, filled⟩ := @setUp_stocked cfg kmalloc contents
  refine ⟨l.pool, ?_, ?_⟩
  · intro dev
    have start := (@Settled.initial cfg kmalloc contents).restored
    have chain := filled.represents.pools dev
    refine ⟨fun empty => stocked dev (filled.represents.pool_nil.mp empty), ?_⟩
    rw [← start] at chain
    exact chain
  · intro calls s run dev skb around permitted
    have settled := Settled.run regular (fun _ _ both => both.1) run
    exact settled.carried filled.represents regular permitted.1 (stocked dev)

/-- A single packet and a lockup at the first transmission: the ping is carried
although its queue was stopped for want of packets and stays stopped. -/
theorem wire_lossless_single : ∃ pool s',
    snullTx (sample 1 1) {} ⟨0, samplePing⟩ .sn0 (opened (sample 1 1) (fun _ _ => true) sampleMemory) = some s' ∧
      Carried (sample 1 1) {} ⟨0, samplePing⟩ .sn0 pool
        (opened (sample 1 1) (fun _ _ => true) sampleMemory) s' ∧
      (s'.device .sn0).stopped = true := by
  have stocked (dev : Dev) : ((setUp (sample 1 1) (fun _ _ => true) sampleMemory).priv dev).ppool ≠ none :=
    setUp_nonempty (by decide) (fun _ => rfl) dev
  obtain ⟨pool, _, carries⟩ := wire_lossless (sample 1 1) (fun _ _ => true) sampleMemory rfl stocked
  obtain ⟨s', ran, carried⟩ := carries [] _ .nil .sn0 ⟨0, samplePing⟩ {} (by decide)
  exact ⟨pool, s', ran, carried, carried.stopped.trans (by decide)⟩

end DeviceDrivers.Snull
