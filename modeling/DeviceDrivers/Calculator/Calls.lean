import DeviceDrivers.Calculator.Driver
import DeviceDrivers.Kernel.Methods
import Mathlib.Logic.Function.Basic

/-! The methods of the calculator from their entry to their return. -/

namespace DeviceDrivers.Calculator
open Touches Kernel

/-- `add_result`, `sub_result`, `mul_result` and `div_result`. -/
abbrev Globals := Operation → BitVec 32

/-- The buffer is printed, and the operation applied to the two integers in it. -/
def handle (op : Operation) (results : Globals) (kbuff : Block Buffer) : Traced Buffer (Option Globals) := do
  let _ ← readString kbuff
  let (a, b) ← operands kbuff
  pure ((op.apply a b).map (Function.update results op))

/-- `NAME_write_add`, `NAME_write_sub`, `NAME_write_mul` and `NAME_write_div`. -/
def nameWrite (op : Operation) (results : Globals) (stack : List UInt8) : UserBuffer → Nat → Written Buffer Globals :=
  writeMethod ⟨.kbuff, 80, stack⟩ 32 results (handle op results)

/-- `NAME_read_add`, `NAME_read_sub`, `NAME_read_mul` and `NAME_read_div`: `retval` is 0
whatever `copy_to_user` returns. -/
def nameRead (op : Operation) (results : Globals) (user : UserBuffer) (offp : Int) : ReadOut :=
  let (_, stored) := copyToUser user (intBytes (results op))
  ⟨0, offp, stored⟩

end DeviceDrivers.Calculator
