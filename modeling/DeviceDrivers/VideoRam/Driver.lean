import DeviceDrivers.Kernel.UserMemory
import Mathlib.Algebra.Group.Int.Defs
import Mathlib.Algebra.Group.Nat.Defs
import Mathlib.Logic.Function.Basic

/-! The video memory driver. `my_read` and `my_write` cut a transfer off at the end
of the mapped window and move it byte by byte. -/

namespace DeviceDrivers.VideoRam
open Kernel

def vramSize : Nat := 0xfffffff

/-- What is behind the mapped address, by offset from it. -/
abbrev Memory := Int → UInt8

/-- How a loop ended: whether it was never stopped by a fault, the bytes the user was
given, the memory left behind and the offsets touched. -/
structure Copy where
  complete : Bool
  given : List UInt8
  memory : Memory
  touched : List Int

/-- What a call returns, the position it leaves in the file, and what it did. -/
structure Outcome where
  result : Int
  position : Int
  given : List UInt8
  memory : Memory
  touched : List Int

/-- `if (*off + len > VRAM_SIZE)`, where `*off` is signed, `len` is not and the sum
is not either. -/
def clamp (off : Int) (len : Nat) : Nat :=
  if (vramSize : Int) < (off + len) % 2 ^ 64 then ((vramSize - off) % 2 ^ 64).toNat else len

/-- The loop of `my_read` with `left` bytes to go. The counter is an `int`, and its
overflow has no meaning. -/
def readLoop (memory : Memory) (user : UserBuffer) (off : Int) (i : Nat) : Nat → Option Copy
  | 0 => some ⟨true, [], memory, []⟩
  | left + 1 =>
    let byte := memory (off + i)
    if user.faults i then some ⟨false, [], memory, [off + i]⟩
    else if i + 1 = 2 ^ 31 then none
    else (readLoop memory user off (i + 1) left).map fun rest =>
      { rest with given := byte :: rest.given, touched := (off + i) :: rest.touched }

def writeLoop (memory : Memory) (user : UserBuffer) (off : Int) (i : Nat) : Nat → Option Copy
  | 0 => some ⟨true, [], memory, []⟩
  | left + 1 =>
    if user.faults i then some ⟨false, [], memory, []⟩
    else if i + 1 = 2 ^ 31 then none
    else (writeLoop (Function.update memory (off + i) (user.byte i)) user off (i + 1) left).map fun rest =>
      { rest with touched := (off + i) :: rest.touched }

/-- `-14` is `-EFAULT`, with the position as it was. -/
def finish (off : Int) (len : Nat) (copy : Copy) : Outcome :=
  if copy.complete then ⟨len, off + len, copy.given, copy.memory, copy.touched⟩
  else ⟨-14, off, copy.given, copy.memory, copy.touched⟩

def myRead (memory : Memory) (user : UserBuffer) (len : Nat) (off : Int) : Option Outcome :=
  if vramSize ≤ off then some ⟨0, off, [], memory, []⟩
  else (readLoop memory user off 0 (clamp off len)).map (finish off (clamp off len))

def myWrite (memory : Memory) (user : UserBuffer) (len : Nat) (off : Int) : Option Outcome :=
  if vramSize ≤ off then some ⟨0, off, [], memory, []⟩
  else (writeLoop memory user off 0 (clamp off len)).map (finish off (clamp off len))

inductive Call where
  | read (user : UserBuffer) (len : Nat) (off : Int)
  | write (user : UserBuffer) (len : Nat) (off : Int)

namespace Call

def reads : Call → Bool
  | .read _ _ _ => true
  | .write _ _ _ => false

def user : Call → UserBuffer
  | .read user _ _ | .write user _ _ => user

def len : Call → Nat
  | .read _ len _ | .write _ len _ => len

def off : Call → Int
  | .read _ _ off | .write _ _ off => off

def run (memory : Memory) : Call → Option Outcome
  | .read user len off => myRead memory user len off
  | .write user len off => myWrite memory user len off

end Call

def session (memory : Memory) : List Call → Option (Memory × List Outcome)
  | [] => some (memory, [])
  | call :: rest =>
    (call.run memory).bind fun outcome =>
      (session outcome.memory rest).map fun (last, outcomes) => (last, outcome :: outcomes)

/-- One transfer made in pieces: each call goes on where the position is, with the
next piece of the user's buffer. The result is the sum of the counts. -/
def pieces (transfer : Memory → UserBuffer → Nat → Int → Option Outcome) (memory : Memory) (user : UserBuffer)
    (off : Int) : List Nat → Option Outcome
  | [] => some ⟨0, off, [], memory, []⟩
  | len :: rest =>
    (transfer memory user len off).bind fun first =>
      (pieces transfer first.memory (user.skip len) first.position rest).map fun last =>
        ⟨first.result + last.result, last.position, first.given ++ last.given, last.memory,
          first.touched ++ last.touched⟩

end DeviceDrivers.VideoRam
