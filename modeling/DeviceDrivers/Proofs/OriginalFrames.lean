import DeviceDrivers.Snull.OriginalFrames
import DeviceDrivers.Proofs.SnullFrames

/-! The translation between the two networks. Frames that cross twice come back as they
were, so each side sees the other under addresses that lead back to it. -/

namespace DeviceDrivers.Snull.Original
open Touches OnesComplement

variable {bytes : List UInt8} {buf : Block Buffer} {ipFastCsum : List UInt8 → Nat → UInt16} {beyond : List UInt8}

def flipped (bytes : List UInt8) (place : Nat) : List UInt8 := splice bytes place [bytes.getD place 0 ^^^ 1]

def toggled (bytes : List UInt8) : List UInt8 := flipped (flipped bytes 28) 32

def translated (ipFastCsum : List UInt8 → Nat → UInt16) (beyond bytes : List UInt8) : List UInt8 :=
  rebuilt ipFastCsum beyond (toggled bytes)

private theorem flipped_length {place : Nat} (inside : place < bytes.length) :
    (flipped bytes place).length = bytes.length :=
  length_splice inside

private theorem flipped_bytes {place : Nat} (inside : place < bytes.length) (i : Nat) :
    (flipped bytes place)[i]? = if i = place then some (bytes.getD place 0 ^^^ 1) else bytes[i]? := by
  rw [flipped, getElem?_splice inside]
  simp only [List.length_singleton]
  grind

private theorem toggled_length (enough : 0x26 < bytes.length) : (toggled bytes).length = bytes.length := by
  have first : (flipped bytes 28).length = bytes.length := flipped_length (by omega)
  rw [toggled, flipped_length (by omega), first]

private theorem toggled_bytes (enough : 0x26 < bytes.length) (i : Nat) :
    (toggled bytes)[i]? = if i = 28 ∨ i = 32 then some (bytes.getD i 0 ^^^ 1) else bytes[i]? := by
  have first : (flipped bytes 28).length = bytes.length := flipped_length (by omega)
  have octet : (flipped bytes 28).getD 32 0 = bytes.getD 32 0 := by
    simp only [List.getD_eq_getElem?_getD]
    rw [flipped_bytes (by omega), if_neg (by decide)]
  rw [toggled, flipped_bytes (by omega), flipped_bytes (by omega), octet]
  grind

theorem rebuilt_length (enough : 0x26 < bytes.length) : (rebuilt ipFastCsum beyond bytes).length = bytes.length :=
  length_splice (by simp only [be16, List.length_cons, List.length_nil]; omega)

theorem rebuilt_bytes (enough : 0x26 < bytes.length) {i : Nat} (outside : ¬ (24 ≤ i ∧ i < 26)) :
    (rebuilt ipFastCsum beyond bytes)[i]? = bytes[i]? := by
  rw [rebuilt, getElem?_splice (by simp only [be16, List.length_cons, List.length_nil]; omega)]
  exact if_neg (by simpa [be16] using outside)

/-- The old checksum does not count. -/
private theorem rebuilt_congr {other : List UInt8} (enough : 0x26 < bytes.length) (same : other.length = bytes.length)
    (agree : ∀ i, ¬ (24 ≤ i ∧ i < 26) → other[i]? = bytes[i]?) :
    rebuilt ipFastCsum beyond other = rebuilt ipFastCsum beyond bytes := by
  have overwritten (field : List UInt8) (two : field.length = 2) : splice other 24 field = splice bytes 24 field := by
    apply List.ext_getElem?
    intro i
    rw [getElem?_splice (by omega), getElem?_splice (by omega), two]
    split
    next => rfl
    next outside => exact agree i outside
  have version : other.getD ethHlen 0 = bytes.getD ethHlen 0 := by
    simp only [List.getD_eq_getElem?_getD]
    rw [agree ethHlen (by simp [ethHlen])]
  have sum : ipChecksum ipFastCsum beyond other = ipChecksum ipFastCsum beyond bytes := by
    rw [ipChecksum, ipChecksum, overwritten [0, 0] rfl, version]
  rw [rebuilt, rebuilt, sum, overwritten _ rfl]

theorem translated_length (enough : 0x26 < bytes.length) :
    (translated ipFastCsum beyond bytes).length = bytes.length := by
  have same := toggled_length enough
  rw [translated, rebuilt_length (by omega), same]

theorem translated_bytes (enough : 0x26 < bytes.length) {i : Nat} (outside : ¬ (24 ≤ i ∧ i < 26)) :
    (translated ipFastCsum beyond bytes)[i]? = if i = 28 ∨ i = 32 then some (bytes.getD i 0 ^^^ 1) else bytes[i]? := by
  have same := toggled_length enough
  rw [translated, rebuilt_bytes (by omega) outside, toggled_bytes enough]

private theorem translated_twice (enough : 0x26 < bytes.length) (beyond beyond' : List UInt8) :
    translated ipFastCsum beyond' (translated ipFastCsum beyond bytes) = rebuilt ipFastCsum beyond' bytes := by
  have there : (translated ipFastCsum beyond bytes).length = bytes.length := translated_length enough
  have again : (toggled (translated ipFastCsum beyond bytes)).length = _ := toggled_length (by omega)
  apply rebuilt_congr enough (again.trans there)
  intro i outside
  have octet (place : Nat) (third : place = 28 ∨ place = 32) :
      (translated ipFastCsum beyond bytes).getD place 0 ^^^ 1 = bytes.getD place 0 := by
    rw [List.getD_eq_getElem?_getD, translated_bytes enough (by omega), if_pos third, Option.getD_some,
      UInt8.xor_assoc, UInt8.xor_self, UInt8.xor_zero]
  rw [toggled_bytes (by omega)]
  split
  next third =>
    rw [octet i third]
    have inside : i < bytes.length := by omega
    simp [inside]
  next elsewhere => rw [translated_bytes enough outside, if_neg elsewhere]

theorem hwTxFrame_value (enough : 0x26 < buf.bytes.length) : (snullHwTxFrame ipFastCsum beyond buf).value =
    { buf with bytes := translated ipFastCsum beyond buf.bytes } := by
  have same := toggled_length enough
  have value : (snullHwTxFrame ipFastCsum beyond buf).value =
      (rebuildChecksum ipFastCsum beyond { buf with bytes := toggled buf.bytes }).value := rfl
  rw [value, rebuildChecksum_value (by simpa [same] using enough)]
  rfl

private theorem arrival_translated (beyond : List UInt8) (old : Payload) (skb : List UInt8) :
    arrival ipFastCsum beyond old skb = translated ipFastCsum beyond (zeroPadded skb) := by
  have enough := padded_enough_bytes skb
  have full : Block.Full { padded skb with bytes := translated ipFastCsum beyond (padded skb).bytes } :=
    (translated_length enough).trans (padded_full skb)
  have value : (carried ipFastCsum beyond old skb).value =
      (copyOut (fillPayload old (snullHwTxFrame ipFastCsum beyond (padded skb)).value).value).value := rfl
  rw [arrival, value, hwTxFrame_value enough, copyOut_fill old full, padded_zeroPadded]

private theorem zeroPadded_long {frame : List UInt8} (long : ethZlen ≤ frame.length) : zeroPadded frame = frame := by
  simp [zeroPadded, Nat.sub_eq_zero_of_le long]

theorem enough (skb : List UInt8) : 0x26 < (zeroPadded skb).length :=
  Nat.lt_of_lt_of_le (by decide) (zeroPadded_enough skb)

/-- A frame that crosses arrives, padded, with the last bit of both third octets changed
and, where its IP header ends inside it, a header checksum to match. One that crosses
twice comes back as it was, if its checksum was right, and with the right one if not. -/
theorem crossing (ipFastCsum : List UInt8 → Nat → UInt16) (beyond beyond' : List UInt8) (old old' : Payload)
    (skb : List UInt8) :
    (∀ i, ¬ (24 ≤ i ∧ i < 26) → (arrival ipFastCsum beyond old skb)[i]? =
        if i = 28 ∨ i = 32 then some ((zeroPadded skb).getD i 0 ^^^ 1) else (zeroPadded skb)[i]?) ∧
      (Rfc1071 ipFastCsum → ∀ words, ihl ((zeroPadded skb).getD ethHlen 0) = words → 5 ≤ words →
        ethHlen + 4 * words ≤ (zeroPadded skb).length →
          sum16 (slice (arrival ipFastCsum beyond old skb) 14 (4 * words)) = 65535) ∧
      arrival ipFastCsum beyond' old' (arrival ipFastCsum beyond old skb) = rebuilt ipFastCsum beyond' (zeroPadded skb) ∧
      (slice (zeroPadded skb) 24 2 = be16 (ipChecksum ipFastCsum beyond' (zeroPadded skb)) →
        arrival ipFastCsum beyond' old' (arrival ipFastCsum beyond old skb) = zeroPadded skb) := by
  have long := enough skb
  simp only [arrival_translated]
  have same : (translated ipFastCsum beyond (zeroPadded skb)).length = _ := translated_length long
  have whole : zeroPadded (translated ipFastCsum beyond (zeroPadded skb)) = translated ipFastCsum beyond (zeroPadded skb) :=
    zeroPadded_long (same ▸ zeroPadded_enough skb)
  rw [whole, translated_twice long]
  refine ⟨fun i outside => translated_bytes long outside, ?_, rfl, ?_⟩
  · intro rfc words length least inside
    have same := toggled_length long
    apply rebuilt_header rfc (by omega) least (by omega)
    rw [List.getD_eq_getElem?_getD, toggled_bytes long, if_neg (by decide), ← List.getD_eq_getElem?_getD, length]
  · intro right
    rw [rebuilt, ← right]
    apply List.ext_getElem?
    intro i
    have two : (slice (zeroPadded skb) 24 2).length = 2 := length_slice (by omega)
    rw [getElem?_splice (by omega), two, getElem?_slice]
    grind

/-! The two addresses at the head of a frame, and the two in its IP header. -/

private theorem header_shape (dev : Dev) (type : UInt16) (data : List UInt8) :
    snullHeader dev type none none data = devAddr dev.twin ++ devAddr dev ++ be16 type ++ data := by
  cases dev <;> rfl

private theorem devAddr_length (dev : Dev) : (devAddr dev).length = 6 := by
  cases dev <;> rfl

private theorem header_length (dev : Dev) (type : UInt16) (data : List UInt8) :
    (snullHeader dev type none none data).length = 14 + data.length := by
  simp only [header_shape, List.length_append, devAddr_length, be16, List.length_cons, List.length_nil]

private theorem slice_zeroPadded {frame : List UInt8} {first count : Nat} (inside : first + count ≤ frame.length) :
    slice (zeroPadded frame) first count = slice frame first count := by
  apply slice_congr
  intro index small
  rw [zeroPadded, List.getElem?_append_left (by omega)]

private theorem slice_append_right {front back : List UInt8} {place : Nat} (first count : Nat)
    (behind : place = front.length + first) : slice (front ++ back) place count = slice back first count := by
  subst behind
  apply List.ext_getElem?
  intro index
  rw [getElem?_slice, getElem?_slice, List.getElem?_append_right (by omega)]
  congr 2
  omega

private theorem slice_translated (long : 0x26 < bytes.length) {first count : Nat}
    (apart : ∀ index < count, ¬ (24 ≤ first + index ∧ first + index < 26) ∧ first + index ≠ 28 ∧ first + index ≠ 32) :
    slice (translated ipFastCsum beyond bytes) first count = slice bytes first count := by
  apply slice_congr
  intro index small
  obtain ⟨sum, octets⟩ := apart index small
  rw [translated_bytes long sum, if_neg (by omega)]

private theorem address_translated (long : 0x26 < bytes.length) {first : Nat} (address : first = 26 ∨ first = 30) :
    slice (translated ipFastCsum beyond bytes) first 4 = flipped (slice bytes first 4) 2 := by
  have four : (slice bytes first 4).length = 4 := length_slice (by omega)
  apply List.ext_getElem?
  intro index
  rw [flipped_bytes (by omega), getElem?_slice, getElem?_slice]
  by_cases small : index < 4
  · rw [if_pos small, translated_bytes long (by omega)]
    by_cases third : index = 2
    · rw [if_pos (by omega), if_pos third, List.getD_eq_getElem?_getD, List.getD_eq_getElem?_getD, getElem?_slice,
        if_pos (by omega), third]
    · rw [if_neg (by omega), if_neg third, if_pos small]
  · rw [if_neg small, if_neg (by omega), if_neg small]

private theorem flipped_twice {place : Nat} (inside : place < bytes.length) :
    flipped (flipped bytes place) place = bytes := by
  apply List.ext_getElem?
  intro index
  rw [flipped_bytes (by rwa [flipped_length inside]), List.getD_eq_getElem?_getD, flipped_bytes inside, if_pos rfl,
    flipped_bytes inside]
  split
  next here =>
    rw [Option.getD_some, UInt8.xor_assoc, UInt8.xor_self, UInt8.xor_zero, here]
    simp [inside]
  next => rfl

private theorem headed_arrival (ipFastCsum : List UInt8 → Nat → UInt16) (beyond : List UInt8) (dev : Dev)
    (type : UInt16) (old : Payload) {packet : List UInt8} (long : 20 ≤ packet.length) :
    slice (arrival ipFastCsum beyond old (snullHeader dev type none none packet)) 0 6 = devAddr dev.twin ∧
      slice (arrival ipFastCsum beyond old (snullHeader dev type none none packet)) 6 6 = devAddr dev ∧
      slice (arrival ipFastCsum beyond old (snullHeader dev type none none packet)) 12 2 = be16 type ∧
      slice (arrival ipFastCsum beyond old (snullHeader dev type none none packet)) 26 4 = flipped (slice packet 12 4) 2 ∧
      slice (arrival ipFastCsum beyond old (snullHeader dev type none none packet)) 30 4 = flipped (slice packet 16 4) 2 := by
  have length := header_length dev type packet
  have wide := enough (snullHeader dev type none none packet)
  have twin := devAddr_length dev.twin
  have own := devAddr_length dev
  have front : (devAddr dev.twin ++ devAddr dev ++ be16 type).length = 14 := by
    simp only [List.length_append, twin, own, be16, List.length_cons, List.length_nil]
  have behind (first : Nat) : slice (snullHeader dev type none none packet) (14 + first) 4 = slice packet first 4 := by
    rw [header_shape]
    exact slice_append_right first 4 (by rw [front])
  rw [arrival_translated, slice_translated wide (by omega), slice_translated wide (by omega),
    slice_translated wide (by omega), address_translated wide (.inl rfl), address_translated wide (.inr rfl),
    slice_zeroPadded (by omega), slice_zeroPadded (by omega), slice_zeroPadded (by omega),
    slice_zeroPadded (by omega), slice_zeroPadded (by omega), behind 12, behind 16, header_shape]
  refine ⟨?_, ?_, ?_, rfl, rfl⟩
  · cases dev <;> rfl
  · cases dev <;> rfl
  · cases dev <;> rfl

/-- A packet sent with the driver's header reaches the other device under that device's
address. A reply to the addresses that it shows there comes back as one from the address
that the packet was sent to, to the address it was sent from. -/
theorem conversation (ipFastCsum : List UInt8 → Nat → UInt16) (beyond beyond' : List UInt8) (old old' : Payload)
    (dev : Dev) (type : UInt16) (packet reply : List UInt8) (long : 20 ≤ packet.length)
    (source : slice reply 12 4 = slice (arrival ipFastCsum beyond old (snullHeader dev type none none packet)) 30 4)
    (target : slice reply 16 4 = slice (arrival ipFastCsum beyond old (snullHeader dev type none none packet)) 26 4) :
    slice (arrival ipFastCsum beyond old (snullHeader dev type none none packet)) 0 12 = devAddr dev.twin ++ devAddr dev ∧
      slice (arrival ipFastCsum beyond' old' (snullHeader dev.twin type none none reply)) 0 12 =
        devAddr dev ++ devAddr dev.twin ∧
      slice (arrival ipFastCsum beyond' old' (snullHeader dev.twin type none none reply)) 26 4 = slice packet 16 4 ∧
      slice (arrival ipFastCsum beyond' old' (snullHeader dev.twin type none none reply)) 30 4 = slice packet 12 4 := by
  obtain ⟨dest, own, _, saddr, daddr⟩ := headed_arrival ipFastCsum beyond dev type old long
  have first : (slice packet 12 4).length = 4 := length_slice (by omega)
  have last : (slice packet 16 4).length = 4 := length_slice (by omega)
  rw [daddr] at source
  rw [saddr] at target
  have replied : 20 ≤ reply.length := by
    have taken := congrArg List.length target
    rw [flipped_length (by omega), first, slice, List.length_take, List.length_drop] at taken
    omega
  obtain ⟨dest', own', _, saddr', daddr'⟩ :=
    headed_arrival ipFastCsum beyond' dev.twin type old' replied
  rw [show 12 = 6 + 6 from rfl, slice_add, slice_add, dest, own, dest', own', saddr', daddr', source, target,
    flipped_twice (by omega), flipped_twice (by omega)]
  exact ⟨rfl, by cases dev <;> rfl, rfl, rfl⟩

/-- From 192.168.0.1 to 192.168.0.2, which the other side sees as from 192.168.1.1 to 192.168.1.2. -/
theorem conversation_ping : ∃ packet reply : List UInt8,
    slice packet 12 8 = [192, 168, 0, 1, 192, 168, 0, 2] ∧ slice reply 12 8 = [192, 168, 1, 2, 192, 168, 1, 1] ∧
      slice (arrival (fun memory words => checksum (memory.take (4 * words))) [] ⟨0, []⟩
        (snullHeader Dev.sn1 0x0800 none none reply)) 26 4 = slice packet 16 4 := by
  let packet : List UInt8 := [0x45, 0, 0, 20, 0, 0, 0, 0, 64, 1, 0, 0, 192, 168, 0, 1, 192, 168, 0, 2]
  let reply : List UInt8 := [0x45, 0, 0, 20, 0, 0, 0, 0, 64, 1, 0, 0, 192, 168, 1, 2, 192, 168, 1, 1]
  refine ⟨packet, reply, rfl, rfl, ?_⟩
  exact (conversation (fun memory words => checksum (memory.take (4 * words))) [] [] ⟨0, []⟩ ⟨0, []⟩ .sn0 0x0800
    packet reply (by decide) (by decide) (by decide)).2.2.1

end DeviceDrivers.Snull.Original
