import Mathlib.Algebra.Group.Nat.Defs

/-! The module that waits ten seconds in a loop, and the loop of the README. -/

namespace DeviceDrivers.BusyWait

variable {w : Nat}

def jiffies (start : BitVec w) (ticks : Nat) : BitVec w := start + BitVec.ofNat w ticks

/-- A loop with an empty body looks at the counter again and again. The result is the place of
the sample that ends it, if one of these does. -/
def loop (condition : BitVec w → Bool) : List (BitVec w) → Option Nat
  | [] => none
  | sample :: samples => if condition sample then (loop condition samples).map (· + 1) else some 0

/-- `j` is computed at tick 0, and the loop runs at the given ticks. -/
def myinit (hz : Nat) (start : BitVec w) (ticks : List Nat) : Option Nat :=
  let j := jiffies start 0 + BitVec.ofNat w (10 * hz)
  loop (fun sample => sample < j) (ticks.map (jiffies start))

/-- The difference is taken as a `long`. -/
def timeBefore (a b : BitVec w) : Bool := (a - b).toInt < 0

/-- A wait of `n` seconds as the README has it. -/
def longDelay (n hz : Nat) (start : BitVec w) (ticks : List Nat) : Option Nat :=
  let timeout := jiffies start 0 + BitVec.ofNat w (n * hz)
  loop (fun sample => timeBefore sample timeout) (ticks.map (jiffies start))

end DeviceDrivers.BusyWait
