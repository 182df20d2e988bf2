import DeviceDrivers.Library.Chains
import DeviceDrivers.Proofs.SnullControl
import Mathlib.Data.List.Perm.Basic

/-! Pools and receive queues as plain lists. The pointers of a state represent
such lists, and each pointer operation acts on them as one list operation. -/

namespace DeviceDrivers.Snull
open Chains

/-- What the component is for: each device's free packets and waiting packets. -/
@[ext] structure Lists where
  pool : Dev → List Addr
  rx : Dev → List Addr

namespace Lists
variable (l : Lists) (dev : Dev) (pkt : Addr)

def all : List Addr := l.pool .sn0 ++ l.pool .sn1 ++ l.rx .sn0 ++ l.rx .sn1

def take : Lists := { l with pool := Function.update l.pool dev (l.pool dev).tail }
def give : Lists := { l with pool := Function.update l.pool dev (pkt :: l.pool dev) }
def enqueue : Lists := { l with rx := Function.update l.rx dev (pkt :: l.rx dev) }
def dequeue : Lists := { l with rx := Function.update l.rx dev (l.rx dev).tail }

variable {l dev pkt}

theorem mem_all : pkt ∈ l.all ↔ ∃ dev, pkt ∈ l.pool dev ∨ pkt ∈ l.rx dev := by
  simp only [all, List.mem_append]
  constructor
  · rintro (((member | member) | member) | member)
    · exact ⟨.sn0, .inl member⟩
    · exact ⟨.sn1, .inl member⟩
    · exact ⟨.sn0, .inr member⟩
    · exact ⟨.sn1, .inr member⟩
  · rintro ⟨dev, member⟩
    cases dev <;> tauto

theorem pool_rx_apart {owner : Dev} (distinct : l.all.Nodup) (free : pkt ∈ l.pool owner) : pkt ∉ l.rx dev := by
  intro queued
  rw [all, List.append_assoc (l.pool .sn0 ++ l.pool .sn1)] at distinct
  have pooled : pkt ∈ l.pool .sn0 ++ l.pool .sn1 := by
    cases owner <;> simp [free]
  have waiting : pkt ∈ l.rx .sn0 ++ l.rx .sn1 := by
    cases dev <;> simp [queued]
  exact List.disjoint_of_nodup_append distinct pooled waiting

theorem give_perm : (l.give dev pkt).all.Perm (pkt :: l.all) := by
  rw [List.perm_iff_count]
  intro other
  cases dev
  · simp [all, give, List.count_cons]
  · simp [all, give, List.count_cons]
    omega

theorem enqueue_perm : (l.enqueue dev pkt).all.Perm (pkt :: l.all) := by
  rw [List.perm_iff_count]
  intro other
  cases dev <;>
    · simp [all, enqueue, List.count_cons]
      omega

theorem take_perm {rest : List Addr} (front : l.pool dev = pkt :: rest) :
    l.all.Perm (pkt :: (l.take dev).all) := by
  rw [List.perm_iff_count]
  intro other
  cases dev
  · simp [all, take, front, List.count_cons]
  · simp [all, take, front, List.count_cons]
    omega

theorem dequeue_perm {rest : List Addr} (front : l.rx dev = pkt :: rest) :
    l.all.Perm (pkt :: (l.dequeue dev).all) := by
  rw [List.perm_iff_count]
  intro other
  cases dev <;>
    · simp [all, dequeue, front, List.count_cons]
      omega

theorem dequeue_empty (empty : l.rx dev = []) : l.dequeue dev = l := by
  ext other : 2
  · rfl
  · by_cases same : other = dev
    · subst other
      simp [dequeue, empty]
    · simp [dequeue, same]

end Lists

/-- The pointers thread exactly these lists, and a free packet belongs to the
device in whose pool it is. -/
structure Represents (links : Links) (l : Lists) : Prop where
  pools : ∀ dev, Chain links.next (links.ppool dev) (l.pool dev)
  queues : ∀ dev, Chain links.next (links.rxQueue dev) (l.rx dev)
  owned : ∀ dev, ∀ pkt ∈ l.pool dev, links.dev pkt = dev

namespace Represents
variable {links : Links} {l : Lists} {dev : Dev} {pkt : Addr}

theorem pool_front (holds : Represents links l) (head : links.ppool dev = some pkt) :
    ∃ rest, l.pool dev = pkt :: rest ∧ Chain links.next (links.next pkt) rest :=
  chain_some.mp (head ▸ holds.pools dev)

theorem rx_front (holds : Represents links l) (head : links.rxQueue dev = some pkt) :
    ∃ rest, l.rx dev = pkt :: rest ∧ Chain links.next (links.next pkt) rest :=
  chain_some.mp (head ▸ holds.queues dev)

theorem rx_nil (holds : Represents links l) : l.rx dev = [] ↔ links.rxQueue dev = none :=
  (holds.queues dev).nil_iff

theorem pool_nil (holds : Represents links l) : l.pool dev = [] ↔ links.ppool dev = none :=
  (holds.pools dev).nil_iff

theorem take (holds : Represents links l) (head : links.ppool dev = some pkt) :
    Represents (links.take dev pkt) (l.take dev) := by
  obtain ⟨rest, front, tail⟩ := holds.pool_front head
  refine ⟨?_, holds.queues, ?_⟩
  · intro other
    by_cases same : other = dev
    · subst other
      simpa [Links.take, Lists.take, front] using tail
    · simpa [Links.take, Lists.take, same] using holds.pools other
  · intro other pkt member
    apply holds.owned other
    by_cases same : other = dev
    · subst other
      apply List.mem_of_mem_tail
      simpa [Lists.take] using member
    · simpa [Lists.take, same] using member

theorem dequeue (holds : Represents links l) (head : links.rxQueue dev = some pkt) :
    Represents (links.dequeue dev pkt) (l.dequeue dev) := by
  obtain ⟨rest, front, tail⟩ := holds.rx_front head
  refine ⟨holds.pools, ?_, holds.owned⟩
  intro other
  by_cases same : other = dev
  · subst other
    simpa [Links.dequeue, Lists.dequeue, front] using tail
  · simpa [Links.dequeue, Lists.dequeue, same] using holds.queues other

private theorem relinked (holds : Represents links l) (absent : pkt ∉ l.all) (value : Option Addr) :
    (∀ dev, Chain (Function.update links.next pkt value) (links.ppool dev) (l.pool dev)) ∧
    (∀ dev, Chain (Function.update links.next pkt value) (links.rxQueue dev) (l.rx dev)) :=
  ⟨fun dev => (holds.pools dev).untouched (fun member => absent (Lists.mem_all.mpr ⟨dev, .inl member⟩)) value,
    fun dev => (holds.queues dev).untouched (fun member => absent (Lists.mem_all.mpr ⟨dev, .inr member⟩)) value⟩

theorem give (holds : Represents links l) (absent : pkt ∉ l.all) :
    Represents (links.give pkt) (l.give (links.dev pkt) pkt) := by
  obtain ⟨pools, queues⟩ := holds.relinked absent (links.ppool (links.dev pkt))
  refine ⟨?_, queues, ?_⟩
  · intro other
    by_cases same : other = links.dev pkt
    · subst other
      have front : pkt ∉ l.pool (links.dev pkt) := fun member => absent (Lists.mem_all.mpr ⟨_, .inl member⟩)
      simpa [Links.give, Lists.give] using (holds.pools (links.dev pkt)).push front
    · simpa [Links.give, Lists.give, same] using pools other
  · intro other free member
    by_cases same : other = links.dev pkt
    · subst other
      simp only [Lists.give, Function.update_self, List.mem_cons] at member
      rcases member with rfl | member
      · rfl
      · exact holds.owned _ _ member
    · apply holds.owned _ _
      simpa [Lists.give, same] using member

theorem enqueue (holds : Represents links l) (absent : pkt ∉ l.all) :
    Represents (links.enqueue dev pkt) (l.enqueue dev pkt) := by
  obtain ⟨pools, queues⟩ := holds.relinked absent (links.rxQueue dev)
  refine ⟨pools, ?_, holds.owned⟩
  intro other
  by_cases same : other = dev
  · subst other
    have front : pkt ∉ l.rx dev := fun member => absent (Lists.mem_all.mpr ⟨_, .inr member⟩)
    simpa [Links.enqueue, Lists.enqueue] using (holds.queues dev).push front
  · simpa [Links.enqueue, Lists.enqueue, same] using queues other

end Represents

end DeviceDrivers.Snull
