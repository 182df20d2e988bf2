import DeviceDrivers.Proofs.SnullSequential
import DeviceDrivers.Proofs.SnullStranding
import DeviceDrivers.Proofs.SnullWire

/-! What the receiver of a frame sees of it in regular mode: how a ping comes
back, and which other frames come through unchanged. The frames are sent from
any state the system reaches in which the sender is not due to receive. -/

namespace DeviceDrivers.Snull
open Runs Touches OnesComplement

/-- A state in which a transmission on the device is carried over at once: it has
a packet to send with, and none it was told to receive. -/
structure Ready (cfg : Config) (s : State) (dev : Dev) : Prop where
  reached : ∃ kmalloc contents actions m,
    Run (Machine.step cfg) (fun _ _ => True) ⟨setUp cfg kmalloc contents, []⟩ actions m ∧ m.state = s
  answered : raised (s.priv dev).status snullRxIntr = true → (s.priv dev).rxQueue = none
  stocked : (s.priv dev).ppool ≠ none

variable {cfg : Config} {around : Surroundings} {skb : Skb} {dev : Dev} {s : State}

private theorem opened_run (cfg : Config) (kmalloc : Dev → Nat → Bool) (contents : Addr → Packet) :
    Run (Machine.step cfg) (fun _ _ => True) ⟨setUp cfg kmalloc contents, []⟩ [.open .sn0, .open .sn1]
      ⟨opened cfg kmalloc contents, []⟩ := run_of_execute rfl

private theorem announced_of_reached {kmalloc : Dev → Nat → Bool} {contents : Addr → Packet} {actions : List Action}
    {m : Machine} (regular : cfg.useNapi = false)
    (run : Run (Machine.step cfg) (fun _ _ => True) ⟨setUp cfg kmalloc contents, []⟩ actions m) :
    ∃ l, Announced (List.range (setUp cfg kmalloc contents).fresh) m l := by
  obtain ⟨first, initial, _⟩ := @Announced.initial cfg kmalloc contents
  exact Announced.run List.nodup_range regular ⟨first, initial⟩ run

/-- While no call is in progress every announcement has been answered. -/
private theorem Ready.of_idle {kmalloc : Dev → Nat → Bool} {contents : Addr → Packet} {actions : List Action}
    (regular : cfg.useNapi = false)
    (run : Run (Machine.step cfg) (fun _ _ => True) ⟨setUp cfg kmalloc contents, []⟩ actions ⟨s, []⟩)
    (stocked : (s.priv dev).ppool ≠ none) : Ready cfg s dev := by
  refine ⟨⟨kmalloc, contents, actions, _, run, rfl⟩, ?_, stocked⟩
  intro set
  obtain ⟨l, kept⟩ := announced_of_reached regular run
  obtain ⟨caller, running⟩ := kept.answered dev set
  simp at running

private theorem Ready.of_calls {kmalloc : Dev → Nat → Bool} {contents : Addr → Packet} {calls : List Call}
    (regular : cfg.useNapi = false) (stocked : ∀ dev, ((setUp cfg kmalloc contents).priv dev).ppool ≠ none)
    (run : Run (Call.run cfg) Call.Allowed (opened cfg kmalloc contents) calls s) : Ready cfg s dev := by
  have settled := Settled.run regular (fun _ _ allowed => allowed) run
  obtain ⟨actions, interleaved⟩ := calls_interleaved run
  apply Ready.of_idle regular ((opened_run cfg kmalloc contents).append interleaved)
  have head := stocked dev
  change (setUp cfg kmalloc contents).control.links.ppool dev ≠ none at head
  rw [← settled.restored] at head
  exact head

theorem Ready.delivers (ready : Ready cfg s dev) (regular : cfg.useNapi = false) (memory : around.rxMemory = true)
    (skb : Skb) :
    ∃ s', snullTx cfg around skb dev s = some s' ∧
      s'.passedUp = s.passedUp ++ [(route skb dev, carriedFrame cfg around skb)] := by
  obtain ⟨kmalloc, contents, actions, m, run, rfl⟩ := ready.reached
  obtain ⟨l, kept⟩ := announced_of_reached regular run
  obtain ⟨pkt, head⟩ := Option.ne_none_iff_exists'.mp ready.stocked
  have owned : m.state.control.links.dev pkt = dev := by
    obtain ⟨rest, front, _⟩ := kept.represents.pool_front head
    apply kept.represents.owned dev pkt
    simp [front]
  obtain ⟨s', ran, spec⟩ :=
    @snullTx_spec cfg m.state dev around skb pkt regular kept.enabled ready.answered head owned
  have arrived : s'.ledger.passedUp = (m.state.arrived cfg around skb dev).passedUp := by
    split at spec
    · rw [spec.2]
    · rw [spec.2]
      rfl
  refine ⟨s', ran, arrived.trans (arrived_passedUp.trans ?_)⟩
  rw [memory]
  rfl

structure TurnedAround (f frame : List UInt8) : Prop where
  length : frame.length = f.length
  source : slice frame 26 4 = slice f 30 4
  destination : slice frame 30 4 = slice f 26 4
  type : frame[34]? = some 0
  header : sum16 (slice frame 14 20) = 65535
  kept : ∀ i, i < 24 ∨ 34 < i → frame[i]? = f[i]?

private theorem route_ping (type : (zeroPadded skb.data).getD 34 0 = 8) (code : (zeroPadded skb.data).getD 35 0 = 0) :
    route skb dev = dev := by
  rw [route_eq, padded_zeroPadded]
  exact if_pos ⟨.inl type, code⟩

private theorem turnedAround (rfc : Rfc1071 cfg.ipFastCsum) (type : (zeroPadded skb.data).getD 34 0 = 8)
    (code : (zeroPadded skb.data).getD 35 0 = 0) (plain : ihl ((zeroPadded skb.data).getD 14 0) = 5) :
    TurnedAround (zeroPadded skb.data) (carriedFrame cfg around skb) := by
  have enough := padded_enough_bytes skb.data
  rw [← padded_zeroPadded] at type code plain ⊢
  have bytes := fun i => @delivered_echo (padded skb.data) cfg.ipFastCsum around.beyond enough type code i
  refine ⟨(carriedFrame_length ..).trans (padded_full _).symm, ?_, ?_, ?_,
    delivered_header rfc enough type code plain, ?_⟩
  · apply List.ext_getElem?
    intro index
    rw [getElem?_slice, getElem?_slice]
    split
    next inside =>
      rw [carriedFrame, bytes _ (by omega), if_pos (by omega)]
      congr 1
      omega
    next => rfl
  · apply List.ext_getElem?
    intro index
    rw [getElem?_slice, getElem?_slice]
    split
    next inside =>
      rw [carriedFrame, bytes _ (by omega), if_neg (by omega), if_pos (by omega)]
      congr 1
      omega
    next => rfl
  · apply bytes 34
    omega
  · intro i outside
    rw [carriedFrame, bytes _ (by omega), if_neg (by omega), if_neg (by omega), if_neg (by omega)]

/-- An echo request without IP options comes back on the device that sent it:
addresses exchanged, type 0, the header checksum recomputed, and no other byte
changed. -/
theorem echo_turned_around (cfg : Config) (s : State) (dev : Dev) (ready : Ready cfg s dev)
    (regular : cfg.useNapi = false) (rfc : Rfc1071 cfg.ipFastCsum) (around : Surroundings)
    (memory : around.rxMemory = true) (skb : Skb)
    (type : (zeroPadded skb.data).getD 34 0 = 8)
    (code : (zeroPadded skb.data).getD 35 0 = 0) (plain : ihl ((zeroPadded skb.data).getD 14 0) = 5) :
    ∃ s' frame, snullTx cfg around skb dev s = some s' ∧ s'.passedUp = s.passedUp ++ [(dev, frame)] ∧
      TurnedAround (zeroPadded skb.data) frame := by
  obtain ⟨s', ran, passed⟩ := ready.delivers regular memory skb
  rw [route_ping type code] at passed
  exact ⟨s', _, ran, passed, turnedAround rfc type code plain⟩

def internet : Config :=
  { sample 2 0 with ipFastCsum := fun memory words => checksum (memory.take (4 * words)) }

private theorem internet_rfc : Rfc1071 internet.ipFastCsum := fun _ _ _ _ => rfl

private theorem internet_ready : Ready internet (opened internet (fun _ _ => true) sampleMemory) .sn0 :=
  .of_calls rfl (setUp_nonempty (by decide) fun _ => rfl) .nil

def sampleRequest : List UInt8 :=
  List.replicate 12 0 ++ [0x08, 0x00] ++
    [0x45, 0, 0, 28, 0, 0, 0, 0, 0x40, 1, 0x7a, 0xe2, 0, 0, 0, 0, 0, 0, 0, 0] ++
    [8, 0, 0xf7, 0xff, 0, 0, 0, 0]

theorem echo_turned_around_request : ∃ s' frame,
    snullTx internet {} ⟨0, sampleRequest⟩ .sn0 (opened internet (fun _ _ => true) sampleMemory) = some s' ∧
      s'.passedUp = [(.sn0, frame)] ∧ TurnedAround (zeroPadded sampleRequest) frame :=
  echo_turned_around internet _ .sn0 internet_ready rfl internet_rfc {} rfl ⟨0, sampleRequest⟩ (by decide)
    (by decide) (by decide)

def totalLength (f : List UInt8) : Nat := (f.getD 16 0).toNat * 256 + (f.getD 17 0).toNat

/-- An ICMP message of this type and of code 0, in an IPv4 packet without
options whose total length is within the frame. -/
structure IcmpFrame (type : UInt8) (f : List UInt8) : Prop where
  etherType : f[12]? = some 8 ∧ f[13]? = some 0
  version : f[14]? = some 0x45
  total : 28 ≤ totalLength f ∧ 14 + totalLength f ≤ f.length
  protocol : f[23]? = some 1
  message : f[34]? = some type ∧ f[35]? = some 0

def HeaderVerifies (f : List UInt8) : Prop := sum16 (slice f 14 20) = 65535

def IcmpVerifies (f : List UInt8) : Prop := sum16 (slice f 34 (totalLength f - 20)) = 65535

instance (f : List UInt8) : Decidable (IcmpVerifies f) := inferInstanceAs (Decidable (_ = _))

private theorem icmp_total {type : UInt8} {f : List UInt8} (icmp : IcmpFrame type f) :
    total (slice f 34 (totalLength f - 20)) = type.toNat * 256 + total (slice f 36 (totalLength f - 22)) := by
  have first : slice f 34 2 = [type, 0] := by
    apply List.ext_getElem?
    intro index
    rw [getElem?_slice]
    match index with
    | 0 => exact icmp.message.1
    | 1 => exact icmp.message.2
    | _ + 2 => simp
  have bound := icmp.total.1
  rw [show totalLength f - 20 = 2 + (totalLength f - 22) by omega, slice_add, first, total_append ⟨1, rfl⟩]
  simp [total_cons_cons]

private theorem getElem?_zeroPadded {f : List UInt8} {i : Nat} (inside : i < f.length) : (zeroPadded f)[i]? = f[i]? :=
  List.getElem?_append_left inside

private theorem echo_reply {f frame : List UInt8} (request : IcmpFrame 8 f)
    (turned : TurnedAround (zeroPadded f) frame) :
    IcmpFrame 0 frame ∧ totalLength frame = totalLength f ∧
      slice frame 36 (totalLength f - 22) = slice f 36 (totalLength f - 22) := by
  obtain ⟨some, within⟩ := request.total
  have kept (i : Nat) (outside : i < 24 ∨ 34 < i) (inside : i < f.length) : frame[i]? = f[i]? :=
    (turned.kept i outside).trans (getElem?_zeroPadded inside)
  have same : totalLength frame = totalLength f := by
    simp only [totalLength, List.getD_eq_getElem?_getD]
    rw [kept 16 (by omega) (by omega), kept 17 (by omega) (by omega)]
  have longer : f.length ≤ frame.length := by
    rw [turned.length, zeroPadded_length]
    exact Nat.le_max_right ..
  refine ⟨⟨?_, ?_, ?_, ?_, ⟨turned.type, ?_⟩⟩, same, ?_⟩
  · rw [kept 12 (by omega) (by omega), kept 13 (by omega) (by omega)]
    exact request.etherType
  · rw [kept 14 (by omega) (by omega)]
    exact request.version
  · rw [same]
    omega
  · rw [kept 23 (by omega) (by omega)]
    exact request.protocol
  · rw [kept 35 (by omega) (by omega)]
    exact request.message.2
  · exact slice_congr fun index small => kept _ (by omega) (by omega)

/-- The type falls from 8 to 0 and the checksum stays, so the words of the
reply add up to 0x800 less than those of the request. -/
private theorem icmp_broken {f frame : List UInt8} (request : IcmpFrame 8 f) (valid : IcmpVerifies f)
    (reply : IcmpFrame 0 frame) (same : totalLength frame = totalLength f)
    (rest : slice frame 36 (totalLength f - 22) = slice f 36 (totalLength f - 22)) : ¬ IcmpVerifies frame := by
  have before := icmp_total request
  have after := icmp_total reply
  rw [same, rest] at after
  have eight : (8 : UInt8).toNat * 256 = 2048 := rfl
  have zero : (0 : UInt8).toNat * 256 = 0 := rfl
  obtain ⟨_, divides⟩ := sum16_full.mp valid
  intro verifies
  rw [IcmpVerifies, same] at verifies
  obtain ⟨_, again⟩ := sum16_full.mp verifies
  omega

/-- No valid echo request is answered by a reply whose ICMP checksum verifies,
although the reply is well formed otherwise and its IP header verifies. -/
theorem reply_checksum_broken (cfg : Config) (s : State) (dev : Dev) (ready : Ready cfg s dev)
    (regular : cfg.useNapi = false) (rfc : Rfc1071 cfg.ipFastCsum) (around : Surroundings)
    (memory : around.rxMemory = true) (skb : Skb) (request : IcmpFrame 8 skb.data) (valid : IcmpVerifies skb.data) :
    ∃ s' frame, snullTx cfg around skb dev s = some s' ∧ s'.passedUp = s.passedUp ++ [(dev, frame)] ∧
      IcmpFrame 0 frame ∧ HeaderVerifies frame ∧ ¬ IcmpVerifies frame := by
  have inside := request.total
  have same (i : Nat) (value : UInt8) (small : i < 42) (byte : skb.data[i]? = some value) :
      (zeroPadded skb.data).getD i 0 = value := by
    rw [List.getD_eq_getElem?_getD, getElem?_zeroPadded (by omega), byte]
    rfl
  have type := same 34 8 (by omega) request.message.1
  have code := same 35 0 (by omega) request.message.2
  have plain : ihl ((zeroPadded skb.data).getD 14 0) = 5 := by
    rw [same 14 0x45 (by omega) request.version]
    rfl
  obtain ⟨s', ran, passed⟩ := ready.delivers regular memory skb
  rw [route_ping type code] at passed
  have turned := @turnedAround cfg around skb rfc type code plain
  obtain ⟨reply, total, rest⟩ := echo_reply request turned
  exact ⟨s', _, ran, passed, reply, turned.header, icmp_broken request valid reply total rest⟩

private theorem sampleRequest_icmp : IcmpFrame 8 sampleRequest :=
  ⟨by decide, by decide, by decide, by decide, by decide⟩

theorem reply_checksum_broken_request : ∃ s' frame,
    snullTx internet {} ⟨0, sampleRequest⟩ .sn0 (opened internet (fun _ _ => true) sampleMemory) = some s' ∧
      s'.passedUp = [(.sn0, frame)] ∧ IcmpFrame 0 frame ∧ HeaderVerifies frame ∧ ¬ IcmpVerifies frame :=
  reply_checksum_broken internet _ .sn0 internet_ready rfl internet_rfc {} rfl ⟨0, sampleRequest⟩ sampleRequest_icmp
    (by decide)

theorem reply_rejected : ¬ ∀ (cfg : Config) (s : State) (dev : Dev), Ready cfg s dev → cfg.useNapi = false →
    Rfc1071 cfg.ipFastCsum → ∀ (around : Surroundings), around.rxMemory = true → ∀ skb : Skb,
      IcmpFrame 8 skb.data → HeaderVerifies skb.data → IcmpVerifies skb.data →
      ∃ s' frame, snullTx cfg around skb dev s = some s' ∧ s'.passedUp = s.passedUp ++ [(dev, frame)] ∧
        IcmpFrame 0 frame ∧ HeaderVerifies frame ∧ IcmpVerifies frame := by
  intro claim
  have header : HeaderVerifies sampleRequest := by
    unfold HeaderVerifies
    decide
  obtain ⟨s', frame, ran, passed, _, _, verifies⟩ := claim internet _ .sn0 internet_ready rfl internet_rfc {} rfl
    ⟨0, sampleRequest⟩ sampleRequest_icmp header (by decide)
  obtain ⟨after, again, delivered⟩ := @Ready.delivers internet {} .sn0 _ internet_ready rfl rfl ⟨0, sampleRequest⟩
  obtain rfl : after = s' := Option.some.inj (again.symm.trans ran)
  have same := passed.symm.trans delivered
  simp only [List.append_cancel_left_eq, List.cons.injEq, Prod.mk.injEq, and_true] at same
  rw [same.2] at verifies
  exact absurd verifies (by decide)

def Ipv4 (f : List UInt8) : Prop := f[12]? = some 8 ∧ f[13]? = some 0

instance (f : List UInt8) : Decidable (Ipv4 f) := inferInstanceAs (Decidable (_ ∧ _))

/-- An ICMP echo request or reply of code 0, found where the length of the IP
header says. -/
structure IsEcho (f : List UInt8) : Prop where
  etherType : Ipv4 f
  protocol : f[23]? = some 1
  type : f[14 + 4 * ihl (f.getD 14 0)]? = some 8 ∨ f[14 + 4 * ihl (f.getD 14 0)]? = some 0
  code : f[15 + 4 * ihl (f.getD 14 0)]? = some 0

/-- The receiver sees the frame that was sent, or an IPv4 frame that differs
from it in the header checksum only. -/
def Transparent (f frame : List UInt8) : Prop :=
  frame = f ∨ Ipv4 f ∧ frame.length = f.length ∧ ∀ i, i ≠ 24 → i ≠ 25 → frame[i]? = f[i]?

/-- Bytes 24 and 25 already are what `ip_fast_csum` returns for the rest. -/
def ChecksumInPlace (cfg : Config) (around : Surroundings) (f : List UInt8) : Prop :=
  slice f 24 2 = be16 (ipChecksum cfg.ipFastCsum around.beyond f)

private theorem carried_plain (plain : ¬ TakenForPing (zeroPadded skb.data)) :
    carriedFrame cfg around skb = rebuilt cfg.ipFastCsum around.beyond (zeroPadded skb.data) := by
  have enough := zeroPadded_enough skb.data
  have other : ¬ isPing (frameProt (zeroPadded skb.data)) = true := by
    rw [isPing_frameProt]
    exact plain
  have kept (i : Nat) (outside : 26 ≤ i) :
      (rebuilt cfg.ipFastCsum around.beyond (zeroPadded skb.data)).getD i 0 = (zeroPadded skb.data).getD i 0 := by
    simp only [ethZlen] at enough
    simp only [List.getD_eq_getElem?_getD]
    rw [rebuilt, getElem?_splice (by simp [be16]; omega), if_neg (by simp [be16]; omega)]
  rw [carriedFrame, sent, padded_zeroPadded, if_neg other, delivered, kept 34 (by omega), kept 35 (by omega), if_neg]
  rintro ⟨type, code⟩
  exact plain ⟨.inl type, code⟩

private theorem rebuilt_transparent {f : List UInt8} (enough : ethZlen ≤ f.length) :
    Transparent f (rebuilt cfg.ipFastCsum around.beyond f) ↔ Ipv4 f ∨ ChecksumInPlace cfg around f := by
  have inside : 24 + (be16 (ipChecksum cfg.ipFastCsum around.beyond f)).length ≤ f.length := by
    simp only [ethZlen] at enough
    simp only [be16, List.length_cons, List.length_nil]
    omega
  have two : (be16 (ipChecksum cfg.ipFastCsum around.beyond f)).length = 2 := rfl
  constructor
  · rintro (same | ⟨ip, _⟩)
    · right
      have written : slice (rebuilt cfg.ipFastCsum around.beyond f) 24 2 = _ := slice_splice inside
      rw [same] at written
      exact written
    · exact .inl ip
  · rintro (ip | inPlace)
    · refine .inr ⟨ip, length_splice inside, fun i first second => ?_⟩
      rw [rebuilt, getElem?_splice inside, if_neg (by rw [two]; omega)]
    · left
      apply List.ext_getElem?
      intro i
      rw [rebuilt, getElem?_splice inside, ← inPlace]
      split
      next covered =>
        rw [← inPlace] at two
        rw [getElem?_slice, if_pos (by omega)]
        congr 1
        omega
      next => rfl

/-- A frame comes through to the twin unchanged, up to the header checksum of an
IPv4 frame, exactly if bytes 34 and 35 do not look like a ping's and it is IPv4
or happens to hold the recomputed value already. -/
theorem transparent_iff (cfg : Config) (s : State) (dev : Dev) (ready : Ready cfg s dev)
    (regular : cfg.useNapi = false) (around : Surroundings) (memory : around.rxMemory = true) (skb : Skb) :
    (∃ s' frame, snullTx cfg around skb dev s = some s' ∧ s'.passedUp = s.passedUp ++ [(dev.twin, frame)] ∧
      Transparent (zeroPadded skb.data) frame) ↔
    ¬ TakenForPing (zeroPadded skb.data) ∧
      (Ipv4 (zeroPadded skb.data) ∨ ChecksumInPlace cfg around (zeroPadded skb.data)) := by
  obtain ⟨s', ran, passed⟩ := ready.delivers regular memory skb
  have target : route skb dev = dev.twin ↔ ¬ TakenForPing (zeroPadded skb.data) := by
    have apart : dev ≠ dev.twin := by cases dev <;> simp [Dev.twin]
    rw [route_eq, padded_zeroPadded]
    split
    next ping => simp [ping, apart]
    next plain => simp [plain]
  constructor
  · rintro ⟨after, frame, again, delivered, transparent⟩
    obtain rfl : after = s' := Option.some.inj (again.symm.trans ran)
    have same := delivered.symm.trans passed
    simp only [List.append_cancel_left_eq, List.cons.injEq, Prod.mk.injEq, and_true] at same
    have plain := target.mp same.1.symm
    rw [same.2, carried_plain plain, rebuilt_transparent (zeroPadded_enough _)] at transparent
    exact ⟨plain, transparent⟩
  · rintro ⟨plain, transparent⟩
    rw [target.mpr plain] at passed
    refine ⟨s', _, ran, passed, ?_⟩
    rw [carried_plain plain]
    exact (rebuilt_transparent (zeroPadded_enough _)).mpr transparent

def sampleSegment : List UInt8 :=
  List.replicate 12 0 ++ [0x08, 0x00, 0x45] ++ List.replicate 8 0 ++ [6] ++ List.replicate 10 0 ++
    [0x11, 0x11, 0x22, 0x22]

theorem transparent_iff_segment : ∃ s' frame,
    snullTx internet {} ⟨0, sampleSegment⟩ .sn0 (opened internet (fun _ _ => true) sampleMemory) = some s' ∧
      s'.passedUp = [(.sn1, frame)] ∧ Transparent (zeroPadded sampleSegment) frame :=
  (transparent_iff internet _ .sn0 internet_ready rfl {} rfl ⟨0, sampleSegment⟩).mpr ⟨by decide, .inl (by decide)⟩

/-- A UDP datagram from port 2048, whose high byte is the type of an echo request. -/
def sampleDatagram : List UInt8 :=
  List.replicate 12 0 ++ [0x08, 0x00, 0x45] ++ List.replicate 8 0 ++ [17] ++ List.replicate 10 0 ++
    [0x08, 0x00, 0x22, 0x22]

theorem datagram_misrouted : ¬ ∀ (cfg : Config) (s : State) (dev : Dev), Ready cfg s dev → cfg.useNapi = false →
    ∀ (around : Surroundings), around.rxMemory = true → ∀ skb : Skb,
      skb.data.length ≤ ethDataLen → ¬ IsEcho skb.data →
      ∃ s' frame, snullTx cfg around skb dev s = some s' ∧ s'.passedUp = s.passedUp ++ [(dev.twin, frame)] ∧
        Transparent (zeroPadded skb.data) frame := by
  intro claim
  have other : ¬ IsEcho sampleDatagram := fun echo => absurd echo.protocol (by decide)
  obtain ⟨s', frame, ran, passed, _⟩ := claim internet _ .sn0 internet_ready rfl {} rfl ⟨0, sampleDatagram⟩
    (by decide) other
  obtain ⟨after, again, delivered⟩ := @Ready.delivers internet {} .sn0 _ internet_ready rfl rfl ⟨0, sampleDatagram⟩
  obtain rfl : after = s' := Option.some.inj (again.symm.trans ran)
  have same := passed.symm.trans delivered
  simp only [List.append_cancel_left_eq, List.cons.injEq, Prod.mk.injEq, and_true] at same
  exact absurd same.1 (by decide)

end DeviceDrivers.Snull
