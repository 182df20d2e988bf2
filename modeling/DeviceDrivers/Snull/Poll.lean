import DeviceDrivers.Snull.Driver

/-! `snull_poll` run from beginning to end. `alloc` has the outcomes of the
`dev_alloc_skb` calls still to come. The kernel's `napi_disable` is a parameter: what it
makes of the driver's data while a poll is outstanding or not, none if it waits for ever. -/

namespace DeviceDrivers.Snull
open Touches

/-- A dequeued packet is received or dropped, and its buffer given back: the new `npackets`. -/
def pollFrame (memory : Bool) (dev : Dev) (pkt : Addr) (npackets : Nat) (s : State) : Nat × State :=
  if memory then
    let packet := (s.heap pkt).payload
    let frame := copyOut packet
    (npackets + 1, snullReleaseBuffer pkt
      (countRx dev packet.datalen (passUp dev frame.value.bytes (s.touching frame.touches))))
  else
    (npackets, snullReleaseBuffer pkt (countRxDropped dev s))

/-- The loop for at most `fuel` tests of its condition, or none if it is not done by then. -/
def snullPollLoop (dev : Dev) (quota : Nat) : Nat → (Nat → Bool) → Nat → State → Option (Nat × State)
  | 0, _, _, _ => none
  | fuel + 1, alloc, npackets, s =>
    if npackets < quota ∧ (s.priv dev).rxQueue ≠ none then
      match snullDequeueBuf dev s with
      | (none, _) => none
      | (some pkt, s) =>
        let (npackets, s) := pollFrame (alloc 0) dev pkt npackets s
        snullPollLoop dev quota fuel (fun call => alloc (call + 1)) npackets s
    else some (npackets, s)

/-- The return value and the new state. The kernel runs a poll that it has scheduled, and
`netif_rx_complete` is commented out: at the call of `napi_disable` this poll is outstanding. -/
def snullPoll (napiDisable : Bool → State → Option State) (fuel : Nat) (alloc : Nat → Bool) (dev : Dev) (budget : Nat)
    (s : State) : Option (Int × State) :=
  (snullPollLoop dev budget fuel alloc 0 s).bind fun (_, s) =>
    if (s.priv dev).rxQueue = none then (napiDisable true s).map fun s => (0, snullRxInts dev true s)
    else some (1, s)

end DeviceDrivers.Snull
