import DeviceDrivers.Snull.Frames

/-! What happens to the bytes of a frame between `snull_tx` and the receive path. -/

namespace DeviceDrivers.Snull
open Touches

def padded (skb : List UInt8) : Block Buffer := (snullTxData skb).value

theorem padded_size (skb : List UInt8) : (padded skb).size = max ethZlen skb.length := by
  simp only [padded, snullTxData, ite_value]
  split <;> simp <;> omega

private theorem padded_bytes (skb : List UInt8) :
    (padded skb).bytes = skb ++ List.replicate (ethZlen - skb.length) 0 := by
  simp only [padded, snullTxData, ite_value]
  split
  next short =>
    simp [splice, slice]
  next long =>
    have none : ethZlen - skb.length = 0 := by omega
    simp [none]

def zeroPadded (frame : List UInt8) : List UInt8 := frame ++ List.replicate (ethZlen - frame.length) 0

theorem zeroPadded_length (frame : List UInt8) : (zeroPadded frame).length = max ethZlen frame.length := by
  simp only [zeroPadded, List.length_append, List.length_replicate]
  omega

theorem zeroPadded_enough (frame : List UInt8) : ethZlen ≤ (zeroPadded frame).length := by
  rw [zeroPadded_length]
  exact Nat.le_max_left ..

theorem padded_zeroPadded (frame : List UInt8) : (padded frame).bytes = zeroPadded frame := padded_bytes frame

theorem padded_full (skb : List UInt8) : (padded skb).Full := by
  simp only [Block.Full, padded_bytes, padded_size, List.length_append, List.length_replicate]
  omega

theorem padded_enough (skb : List UInt8) : ethZlen ≤ (padded skb).size := by
  rw [padded_size]
  exact Nat.le_max_left ..

theorem padded_enough_bytes (skb : List UInt8) : 0x26 < (padded skb).bytes.length := by
  rw [padded_full]
  exact Nat.lt_of_lt_of_le (by decide) (padded_enough skb)

theorem padded_long (skb : List UInt8) : ¬ (padded skb).size < headerLen := by
  have := padded_enough skb
  simp only [ethZlen, headerLen, ethHlen] at this ⊢
  omega

variable {buf : Block Buffer}

def swapped (bytes : List UInt8) : List UInt8 :=
  splice (splice bytes 26 (slice bytes 30 4)) 30 (slice bytes 26 4)

private theorem addresses_length {bytes : List UInt8} (enough : 0x26 < bytes.length) :
    (slice bytes 26 4).length = 4 ∧ (slice bytes 30 4).length = 4 ∧
      (splice bytes 26 (slice bytes 30 4)).length = bytes.length := by
  have daddr : (slice bytes 30 4).length = 4 := length_slice (by omega)
  exact ⟨length_slice (by omega), daddr, length_splice (by omega)⟩

private theorem swapped_length {bytes : List UInt8} (enough : 0x26 < bytes.length) :
    (swapped bytes).length = bytes.length := by
  obtain ⟨saddr, _, first⟩ := addresses_length enough
  exact (length_splice (by omega)).trans first

private theorem swapped_bytes {bytes : List UInt8} (enough : 0x26 < bytes.length) (i : Nat) :
    (swapped bytes)[i]? =
      if 26 ≤ i ∧ i < 30 then bytes[i + 4]? else if 30 ≤ i ∧ i < 34 then bytes[i - 4]? else bytes[i]? := by
  obtain ⟨saddr, daddr, first⟩ := addresses_length enough
  rw [swapped, getElem?_splice (by omega), getElem?_splice (by omega)]
  simp only [getElem?_slice, saddr, daddr]
  grind

private theorem exchangeAddresses_value (buf : Block Buffer) : (exchangeAddresses buf).value =
    { buf with bytes := splice (swapped buf.bytes) 38 [(swapped buf.bytes).getD 38 0 - 8] } := rfl

theorem exchangeAddresses_length (enough : 0x26 < buf.bytes.length) :
    (exchangeAddresses buf).value.bytes.length = buf.bytes.length := by
  have same := swapped_length enough
  rw [exchangeAddresses_value, length_splice (by simp [same]; omega), same]

variable (ipFastCsum : List UInt8 → Nat → UInt16) (beyond : List UInt8)

/-- The value `ip_fast_csum` is asked for: the sum over a header whose checksum field is zero. -/
def ipChecksum (bytes : List UInt8) : UInt16 :=
  ipFastCsum ((splice bytes 24 [0, 0] ++ beyond).drop ethHlen) (ihl (bytes.getD ethHlen 0))

def rebuilt (bytes : List UInt8) : List UInt8 :=
  splice bytes 24 (OnesComplement.be16 (ipChecksum ipFastCsum beyond bytes))

variable {ipFastCsum beyond}

theorem rebuildChecksum_value (enough : 0x26 < buf.bytes.length) :
    (rebuildChecksum ipFastCsum beyond buf).value = { buf with bytes := rebuilt ipFastCsum beyond buf.bytes } := by
  have first : (splice buf.bytes 24 [0, 0]).getD ethHlen 0 = buf.bytes.getD ethHlen 0 := by
    simp only [List.getD_eq_getElem?_getD]
    rw [getElem?_splice (by simp; omega), if_neg (by simp [ethHlen])]
  simp only [rebuildChecksum, bind_value, Block.stores_value, Block.load_value, first]
  rw [splice_splice (by rfl) (by simp; omega)]
  rfl

def frameProt (bytes : List UInt8) : UInt8 := pingProt (bytes.getD 34 0) (bytes.getD 35 0)

/-- The test made by `snull_hw_tx`, whatever kind of frame it is. -/
def TakenForPing (f : List UInt8) : Prop := (f.getD 34 0 = 8 ∨ f.getD 34 0 = 0) ∧ f.getD 35 0 = 0

instance (f : List UInt8) : Decidable (TakenForPing f) := inferInstanceAs (Decidable (_ ∧ _))

theorem isPing_frameProt (bytes : List UInt8) : isPing (frameProt bytes) = true ↔ TakenForPing bytes := by
  simp only [TakenForPing, isPing, frameProt, pingProt, icmpEcho, icmpEchoreply]
  grind

/-- The frame as `snull_hw_tx` puts it into a packet. -/
def sent (buf : Block Buffer) (ipFastCsum : List UInt8 → Nat → UInt16) (beyond : List UInt8) : List UInt8 :=
  rebuilt ipFastCsum beyond (if isPing (frameProt buf.bytes) then (exchangeAddresses buf).value.bytes else buf.bytes)

theorem hwTxFrame_value (enough : 0x26 < buf.bytes.length) :
    (snullHwTxFrame ipFastCsum beyond buf).value =
      (frameProt buf.bytes, { buf with bytes := sent buf ipFastCsum beyond }) := by
  have prot : pingProt (buf.load headerLen).value (buf.load (headerLen + 1)).value = frameProt buf.bytes := rfl
  simp only [snullHwTxFrame, bind_value, prot]
  split
  next ping =>
    have exchanged : 0x26 < (exchangeAddresses buf).value.bytes.length := by
      rw [exchangeAddresses_length enough]
      exact enough
    simp only [bind_value, pure_value, rebuildChecksum_value exchanged, sent, ping, if_true]
    rfl
  next plain =>
    simp only [bind_value, pure_value, rebuildChecksum_value enough, sent, plain]
    rfl

theorem sent_length (enough : 0x26 < buf.bytes.length) :
    (sent buf ipFastCsum beyond).length = buf.bytes.length := by
  have rebuilt_length {bytes : List UInt8} (enough : 0x26 < bytes.length) :
      (rebuilt ipFastCsum beyond bytes).length = bytes.length := by
      exact length_splice (by simp [OnesComplement.be16]; omega)
  unfold sent
  split
  · have same := exchangeAddresses_length enough
    rw [rebuilt_length (by omega), same]
  · exact rebuilt_length enough

/-- The frame as `snull_rx` passes it up, given the bytes in the packet. -/
def delivered (bytes : List UInt8) : List UInt8 :=
  if bytes.getD 34 0 = 8 ∧ bytes.getD 35 0 = 0 then
    splice (splice bytes 34 [0]) 38 [(splice bytes 34 [0]).getD 38 0 + 8]
  else bytes

/-- The receive path changes at most the ICMP type and one identifier byte. -/
private theorem delivered_kept {bytes : List UInt8} {i : Nat} (enough : 0x26 < bytes.length) (type : i ≠ 34)
    (identifier : i ≠ 38) : (delivered bytes)[i]? = bytes[i]? := by
  unfold delivered
  split
  · have first : (splice bytes 34 [0]).length = bytes.length := length_splice (by simp; omega)
    rw [getElem?_splice (by simp; omega), getElem?_splice (by simp; omega)]
    simp only [List.length_singleton]
    rw [if_neg (by omega), if_neg (by omega)]
  · rfl

theorem delivered_length {bytes : List UInt8} (enough : 0x26 < bytes.length) :
    (delivered bytes).length = bytes.length := by
  unfold delivered
  split
  · have first : (splice bytes 34 [0]).length = bytes.length := length_splice (by simp; omega)
    rw [length_splice (by simp; omega), first]
  · rfl

theorem convertEcho_value (skb : Block Buffer) :
    (convertEcho skb).value.bytes = delivered skb.bytes := by
  simp only [convertEcho, bind_value, Block.load_value, ethHlen, icmpEcho, icmpEchoreply, delivered]
  by_cases code : skb.bytes.getD 35 0 = 0
  · by_cases request : skb.bytes.getD 34 0 = 8
    · simp only [request, code, true_or, and_self, if_true]
      rfl
    · simp only [request, code, false_or, and_true, if_false]
      split <;> rfl
  · simp only [code, and_false, if_false]
    rfl

/-- A packet hands on exactly the bytes it was filled with, whatever it held before. -/
theorem copyOut_fill (old : Payload) (full : buf.Full) :
    (copyOut (fillPayload old buf).value).value = ⟨.rxSkb, buf.size, buf.bytes⟩ := by
  have whole : slice buf.bytes 0 buf.size = buf.bytes := by
    rw [← full]
    simp [slice]
  have filled : (fillPayload old buf).value = ⟨buf.size, splice old.data 0 buf.bytes⟩ := by
    simp only [fillPayload, bind_value, pure_value, Block.memcpy_value, whole]
  rw [filled, copyOut, Block.memcpy_value]
  simp [splice, slice, ← full.symm]

theorem rxFrame_fill (old : Payload) (full : buf.Full) :
    (fillPayload old buf).value.datalen = buf.size ∧
      (snullRxFrame (fillPayload old buf).value).value.bytes = delivered buf.bytes := by
  refine ⟨rfl, ?_⟩
  simp only [snullRxFrame, bind_value, copyOut_fill old full, convertEcho_value]

section Header
variable {bytes : List UInt8}

private theorem header_pieces (enough : 0x26 < bytes.length) {words : Nat} (least : 5 ≤ words) (field : UInt16) :
    slice (splice bytes 24 (OnesComplement.be16 field)) 14 (4 * words) =
      slice bytes 14 10 ++ OnesComplement.be16 field ++ slice bytes 26 (4 * words - 12) := by
  have inside : 24 + (OnesComplement.be16 field).length ≤ bytes.length := by
    simp only [OnesComplement.be16, List.length_cons, List.length_nil]
    omega
  have before : slice (splice bytes 24 (OnesComplement.be16 field)) 14 10 = slice bytes 14 10 :=
    slice_congr fun index small => by rw [getElem?_splice inside, if_neg (by omega)]
  have after : slice (splice bytes 24 (OnesComplement.be16 field)) 26 (4 * words - 12) =
      slice bytes 26 (4 * words - 12) :=
    slice_congr fun index _ => by
      rw [getElem?_splice inside, if_neg (by simp [OnesComplement.be16])]
  have parts : 4 * words = 10 + 2 + (4 * words - 12) := by omega
  rw [← after, parts, slice_add, slice_add, before, ← parts]
  congr 2
  exact slice_splice inside

/-- `ip_fast_csum` as documented: the Internet checksum of a header of the
given number of 32-bit words, five at least. -/
def Rfc1071 (ipFastCsum : List UInt8 → Nat → UInt16) : Prop :=
  ∀ memory words, 5 ≤ words → 4 * words ≤ memory.length →
    ipFastCsum memory words = OnesComplement.checksum (memory.take (4 * words))

/-- The checksum is right for any header that ends inside the frame. -/
theorem rebuilt_header (rfc : Rfc1071 ipFastCsum) (enough : 0x26 < bytes.length) {words : Nat} (least : 5 ≤ words)
    (inside : ethHlen + 4 * words ≤ bytes.length) (length : ihl (bytes.getD ethHlen 0) = words) :
    OnesComplement.sum16 (slice (rebuilt ipFastCsum beyond bytes) 14 (4 * words)) = 65535 := by
  simp only [ethHlen] at inside
  have zeroed := header_pieces enough least 0
  have zero : OnesComplement.be16 0 = [0, 0] := by decide
  have field : (splice bytes 24 [0, 0]).length = bytes.length := length_splice (by simp; omega)
  have header : ((splice bytes 24 [0, 0] ++ beyond).drop ethHlen).take (4 * words) =
      slice bytes 14 10 ++ OnesComplement.be16 0 ++ slice bytes 26 (4 * words - 12) := by
    rw [← zeroed, zero, slice, ethHlen, List.drop_append_of_le_length (by omega),
      List.take_append_of_le_length (by rw [List.length_drop]; omega)]
  have value : ipChecksum ipFastCsum beyond bytes =
      OnesComplement.checksum
        (slice bytes 14 10 ++ OnesComplement.be16 0 ++ slice bytes 26 (4 * words - 12)) := by
    rw [ipChecksum, length, rfc _ words least ?_, header]
    simp only [List.length_drop, List.length_append, field, ethHlen]
    omega
  rw [rebuilt, header_pieces enough least, value]
  apply OnesComplement.sum16_verifies
  rw [length_slice (by omega)]
  decide

end Header

/-- The ping case of `snull_hw_tx`, byte by byte. -/
theorem exchangeAddresses_bytes (enough : 0x26 < buf.bytes.length) (i : Nat) :
    (exchangeAddresses buf).value.bytes[i]? =
    if 26 ≤ i ∧ i < 30 then buf.bytes[i + 4]?
    else if 30 ≤ i ∧ i < 34 then buf.bytes[i - 4]?
    else if i = 38 then some (buf.bytes.getD 38 0 - 8)
    else buf.bytes[i]? := by
  have same := swapped_length enough
  have at38 : (swapped buf.bytes).getD 38 0 = buf.bytes.getD 38 0 := by
    simp only [List.getD_eq_getElem?_getD]
    rw [swapped_bytes enough, if_neg (by omega), if_neg (by omega)]
  rw [exchangeAddresses_value, at38]
  rw [getElem?_splice (by simp [same]; omega), swapped_bytes enough]
  simp only [List.length_singleton]
  grind

theorem sent_ping (enough : 0x26 < buf.bytes.length) (ping : isPing (frameProt buf.bytes) = true) (i : Nat)
    (outside : ¬ (24 ≤ i ∧ i < 26)) :
    (sent buf ipFastCsum beyond)[i]? = (exchangeAddresses buf).value.bytes[i]? := by
  have same := exchangeAddresses_length enough
  rw [sent, if_pos ping, rebuilt, getElem?_splice (by rw [same]; simp [OnesComplement.be16]; omega),
    if_neg (by simpa [OnesComplement.be16] using outside)]

/-- An echo request comes back as a reply. The identifier byte that was
lowered on the way out is raised again. -/
theorem delivered_echo (enough : 0x26 < buf.bytes.length) (type : buf.bytes.getD 34 0 = 8)
    (code : buf.bytes.getD 35 0 = 0) (i : Nat) (outside : ¬ (24 ≤ i ∧ i < 26)) :
    (delivered (sent buf ipFastCsum beyond))[i]? =
      if 26 ≤ i ∧ i < 30 then buf.bytes[i + 4]?
      else if 30 ≤ i ∧ i < 34 then buf.bytes[i - 4]?
      else if i = 34 then some 0
      else buf.bytes[i]? := by
  have ping : isPing (frameProt buf.bytes) = true := (isPing_frameProt _).mpr ⟨.inl type, code⟩
  have same : (sent buf ipFastCsum beyond).length = buf.bytes.length := sent_length enough
  have going (j : Nat) (outside : ¬ (24 ≤ j ∧ j < 26)) : (sent buf ipFastCsum beyond)[j]? = _ :=
    (sent_ping enough ping j outside).trans (exchangeAddresses_bytes enough j)
  have first : (splice (sent buf ipFastCsum beyond) 34 [0]).length = buf.bytes.length := by
    rw [length_splice (by simp; omega), same]
  have type' : (sent buf ipFastCsum beyond).getD 34 0 = 8 := by
    rw [List.getD_eq_getElem?_getD, going 34 (by omega)]
    simpa using type
  have code' : (sent buf ipFastCsum beyond).getD 35 0 = 0 := by
    rw [List.getD_eq_getElem?_getD, going 35 (by omega)]
    simpa using code
  have lowered : (splice (sent buf ipFastCsum beyond) 34 [0]).getD 38 0 = buf.bytes.getD 38 0 - 8 := by
    rw [List.getD_eq_getElem?_getD, getElem?_splice (by simp; omega), going 38 (by omega)]
    simp
  have restored : buf.bytes[38]? = some (buf.bytes.getD 38 0 - 8 + 8) := by
    rw [UInt8.sub_add_cancel]
    simp [show 38 < buf.bytes.length by omega]
  rw [delivered, if_pos ⟨type', code'⟩, lowered, getElem?_splice (by simp [first]; omega),
    getElem?_splice (by simp; omega), going i outside]
  simp only [List.length_singleton]
  grind

theorem delivered_header (rfc : Rfc1071 ipFastCsum) (enough : 0x26 < buf.bytes.length)
    (type : buf.bytes.getD 34 0 = 8) (code : buf.bytes.getD 35 0 = 0)
    (plain : ihl (buf.bytes.getD ethHlen 0) = 5) :
    OnesComplement.sum16 (slice (delivered (sent buf ipFastCsum beyond)) 14 20) = 65535 := by
  have ping : isPing (frameProt buf.bytes) = true := (isPing_frameProt _).mpr ⟨.inl type, code⟩
  have same := exchangeAddresses_length enough
  have version : (exchangeAddresses buf).value.bytes.getD ethHlen 0 = buf.bytes.getD ethHlen 0 := by
    simp only [List.getD_eq_getElem?_getD]
    rw [exchangeAddresses_bytes enough]
    simp [ethHlen]
  have kept : slice (delivered (sent buf ipFastCsum beyond)) 14 20 =
      slice (sent buf ipFastCsum beyond) 14 20 := by
    apply slice_congr
    intro index small
    exact delivered_kept (by rw [sent_length enough]; exact enough) (by omega) (by omega)
  rw [kept, sent, if_pos ping]
  refine rebuilt_header rfc (by omega) (Nat.le_refl 5) ?_ ?_
  · simp only [ethHlen]
    omega
  · rw [version, plain]

end DeviceDrivers.Snull
