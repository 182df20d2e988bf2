import DeviceDrivers.Proofs.SnullEcho

/-! The identifier of a ping. Transmission lowers its high byte in requests and in
replies, reception raises it in requests only. -/

namespace DeviceDrivers.Snull
open Touches

variable {buf : Block Buffer} {ipFastCsum : List UInt8 → Nat → UInt16} {beyond : List UInt8}

theorem sent_behind (enough : 0x26 < buf.bytes.length) {i : Nat} (behind : 34 ≤ i) :
    (sent buf ipFastCsum beyond)[i]? =
      if i = 38 ∧ isPing (frameProt buf.bytes) = true then some (buf.bytes.getD 38 0 - 8) else buf.bytes[i]? := by
  by_cases ping : isPing (frameProt buf.bytes) = true
  · rw [sent_ping enough ping i (by omega), exchangeAddresses_bytes enough, if_neg (by omega), if_neg (by omega)]
    simp only [ping, and_true]
  · rw [sent, if_neg ping, rebuilt, getElem?_splice (by simp [OnesComplement.be16]; omega),
      if_neg (by simp [OnesComplement.be16]; omega), if_neg (by simp [ping])]

private theorem delivered_identifier {bytes : List UInt8} (enough : 0x26 < bytes.length) : (delivered bytes)[38]? =
    if bytes.getD 34 0 = 8 ∧ bytes.getD 35 0 = 0 then some (bytes.getD 38 0 + 8) else bytes[38]? := by
  unfold delivered
  split
  next request =>
    have first : (splice bytes 34 [0]).length = bytes.length := length_splice (by simp; omega)
    have kept : (splice bytes 34 [0]).getD 38 0 = bytes.getD 38 0 := by
      simp only [List.getD_eq_getElem?_getD]
      rw [getElem?_splice (by simp; omega), if_neg (by simp)]
    rw [kept, getElem?_splice (by simp [first]; omega)]
    simp
  next => rfl

/-- The identifier byte of a frame that transmission has put into a packet, as
reception passes it up: lowered in a ping, raised again in a request. -/
private theorem identifier_carried (enough : 0x26 < buf.bytes.length) :
    (delivered (sent buf ipFastCsum beyond))[38]? =
      if buf.bytes.getD 34 0 = 0 ∧ buf.bytes.getD 35 0 = 0 then some (buf.bytes.getD 38 0 - 8) else buf.bytes[38]? := by
  have same (i : Nat) (behind : 34 ≤ i) (other : i ≠ 38) :
      (sent buf ipFastCsum beyond).getD i 0 = buf.bytes.getD i 0 := by
    rw [List.getD_eq_getElem?_getD, sent_behind enough behind, if_neg (by simp [other]), List.getD_eq_getElem?_getD]
  have lowered : (sent buf ipFastCsum beyond)[38]? =
      if isPing (frameProt buf.bytes) = true then some (buf.bytes.getD 38 0 - 8) else buf.bytes[38]? := by
    simpa using sent_behind enough (show 34 ≤ 38 by decide)
  rw [delivered_identifier (by rw [sent_length enough]; exact enough), same 34 (by omega) (by omega),
    same 35 (by omega) (by omega)]
  by_cases request : buf.bytes.getD 34 0 = 8 ∧ buf.bytes.getD 35 0 = 0
  · rw [if_pos ((isPing_frameProt _).mpr ⟨.inl request.1, request.2⟩)] at lowered
    have other : ¬ (buf.bytes.getD 34 0 = 0 ∧ buf.bytes.getD 35 0 = 0) :=
      fun reply => absurd (request.1.symm.trans reply.1) (by decide)
    rw [if_pos request, if_neg other, List.getD_eq_getElem?_getD, lowered, Option.getD_some, UInt8.sub_add_cancel]
    simp [enough]
  · have reply : isPing (frameProt buf.bytes) = true ↔ buf.bytes.getD 34 0 = 0 ∧ buf.bytes.getD 35 0 = 0 := by
      rw [isPing_frameProt, TakenForPing, or_and_right, or_iff_right request]
    rw [if_neg request, lowered]
    simp only [reply]

private theorem ne_sub_eight (value : UInt8) : value - 8 ≠ value := by
  intro same
  have zero := UInt8.sub_eq_iff_eq_add.mp same
  simp at zero

private theorem identifier_kept_iff (enough : 0x26 < buf.bytes.length) :
    (delivered (sent buf ipFastCsum beyond))[38]? = buf.bytes[38]? ↔
      ¬ (buf.bytes.getD 34 0 = 0 ∧ buf.bytes.getD 35 0 = 0) := by
  rw [identifier_carried enough]
  split
  next reply =>
    have there : buf.bytes[38]? = some (buf.bytes.getD 38 0) := by simp [enough]
    rw [there, Option.some.injEq]
    exact iff_of_false (ne_sub_eight _) (not_not_intro reply)
  next other => exact iff_of_true rfl other

theorem Ready.identifier {cfg : Config} {around : Surroundings} {skb : Skb} {dev : Dev} {s : State}
    (ready : Ready cfg s dev) (regular : cfg.useNapi = false) (memory : around.rxMemory = true) :
    ∃ s' frame, snullTx cfg around skb dev s = some s' ∧ s'.passedUp = s.passedUp ++ [(route skb dev, frame)] ∧
      (frame[0x26]? = (zeroPadded skb.data)[0x26]? ↔
        ¬ ((zeroPadded skb.data).getD 34 0 = icmpEchoreply ∧ (zeroPadded skb.data).getD 35 0 = 0)) := by
  obtain ⟨s', ran, passed⟩ := ready.delivers regular memory skb
  refine ⟨s', _, ran, passed, ?_⟩
  rw [← padded_zeroPadded]
  exact identifier_kept_iff (padded_enough_bytes skb.data)

/-- The identifier byte of a frame that is handed to transmission and passed up by
reception is the one it had exactly if the frame is not taken for a reply. -/
theorem identifier_restored_iff (ipFastCsum : List UInt8 → Nat → UInt16) (beyond : List UInt8) (old : Payload)
    (buf : Block Buffer) (full : buf.Full) (long : 0x26 < buf.size) :
    (snullRxFrame (fillPayload old (snullHwTxFrame ipFastCsum beyond buf).value.2).value).value.bytes[0x26]? =
        buf.bytes[0x26]? ↔
      ¬ (buf.bytes.getD 34 0 = icmpEchoreply ∧ buf.bytes.getD 35 0 = 0) := by
  have enough : 0x26 < buf.bytes.length := full ▸ long
  have whole : Block.Full { buf with bytes := sent buf ipFastCsum beyond } := (sent_length enough).trans full
  rw [hwTxFrame_value enough, (rxFrame_fill old whole).2]
  exact identifier_kept_iff enough

/-- A frame of 60 ones is no ping. -/
theorem identifier_restored_iff_ones :
    let buf : Block Buffer := ⟨.skbData, ethZlen, List.replicate ethZlen 1⟩
    (snullRxFrame (fillPayload ⟨0, []⟩ (snullHwTxFrame (fun _ _ => 0) [] buf).value.2).value).value.bytes[0x26]? =
      buf.bytes[0x26]? :=
  (identifier_restored_iff (fun _ _ => 0) [] ⟨0, []⟩ ⟨.skbData, ethZlen, List.replicate ethZlen 1⟩ rfl
    (by decide)).mpr (by decide)

def zeroFrame : Block Buffer := ⟨.skbData, ethZlen, List.replicate ethZlen 0⟩

theorem reply_identifier_lowered : ¬ ∀ (ipFastCsum : List UInt8 → Nat → UInt16) (beyond : List UInt8) (old : Payload)
    (buf : Block Buffer), buf.Full → 0x26 < buf.size → buf.size ≤ ethDataLen →
    (snullRxFrame (fillPayload old (snullHwTxFrame ipFastCsum beyond buf).value.2).value).value.bytes[0x26]? =
      buf.bytes[0x26]? := by
  intro claim
  have same := claim (fun _ _ => 0) [] ⟨0, []⟩ zeroFrame rfl (by decide) (by decide)
  exact absurd same (by decide)

end DeviceDrivers.Snull
