import DeviceDrivers.Kernel.UserMemory
import DeviceDrivers.Library.Interleavings
import Mathlib.Algebra.Group.Nat.Defs

/-! The calculator: four device files, one for each operation, that share one
table of file operations. `NAME_open` patches the table for the file it opens
and keeps the others out with a semaphore until the file is released. -/

namespace DeviceDrivers.Calculator
open Touches Interleavings Kernel

inductive Operation where
  | add
  | sub
  | mul
  | div
  deriving DecidableEq, Repr

/-- The `switch (Minor)` of `NAME_open`; without a case the table stays as it is. -/
def Operation.ofMinor : Nat → Option Operation
  | 0 => some .add
  | 1 => some .sub
  | 2 => some .mul
  | 3 => some .div
  | _ => none

/-- What the write handler of the operation computes. A division that the
processor cannot do traps. -/
def Operation.apply (a b : BitVec 32) : Operation → Option (BitVec 32)
  | .add => some (a + b)
  | .sub => some (a - b)
  | .mul => some (a * b)
  | .div => if b = 0#32 ∨ (a = BitVec.intMin 32 ∧ b = -1#32) then none else some (a.sdiv b)

inductive Buffer where
  | kbuff
  deriving DecidableEq, Repr

/-- `char Kbuff[80]`, not initialised, after `copy_from_user(Kbuff, Ubuff, count)`. -/
def copyIn (stack : List UInt8) (user : UserBuffer) (count : Nat) : Traced Buffer (Nat × Block Buffer) :=
  copyFromUser ⟨.kbuff, 80, stack⟩ user count

/-- `*(int *)Kbuff` and `*(int *)&Kbuff[4]`. -/
def operands (kbuff : Block Buffer) : Traced Buffer (BitVec 32 × BitVec 32) := do
  let a ← kbuff.loads 0 4
  let b ← kbuff.loads 4 4
  pure (int a, int b)

/-- A `struct file`. The number tells files apart, `minor` is that of its inode. -/
structure Filp where
  id : Nat
  minor : Nat
  deriving DecidableEq, Repr

/-- The handlers the shared table `fops` names, NULL at first. -/
structure Fops where
  read : Option Operation := none
  write : Option Operation := none
  deriving DecidableEq, Repr

/-- What a call of the read method handed to the user: through which device,
which pair was written last through the same file, and the value. -/
structure Reading where
  minor : Nat
  pair : Option (BitVec 32 × BitVec 32)
  value : BitVec 32
  deriving DecidableEq, Repr

/-- The driver's globals, the files that are open, each with the pair written
last through it, and what has happened so far: the table each open left behind,
the handler each read or write ran, the values read. -/
structure State where
  mySem : Nat := 1
  myTestdev : Nat := 0
  fops : Fops := {}
  results : Operation → BitVec 32 := fun _ => 0#32
  fresh : Nat := 0
  files : List (Filp × Option (BitVec 32 × BitVec 32)) := []
  openings : List (Nat × Fops) := []
  handled : List (Nat × Operation) := []
  readings : List Reading := []

def userPair (user : UserBuffer) : BitVec 32 × BitVec 32 := (int (user.bytes 0 4), int (user.bytes 4 4))

/-- A write of fewer than eight bytes supplies no pair, and neither does one that faults among them. -/
def suppliedPair (user : UserBuffer) (count : Nat) : Option (BitVec 32 × BitVec 32) :=
  if 8 ≤ (user.readable 0 count).length then some (userPair user) else none

def State.written (s : State) (filp : Filp) (pair : Option (BitVec 32 × BitVec 32)) : State :=
  { s with files := s.files.map fun file => if file.1 = filp then (filp, pair) else file }

def State.lastPair (s : State) (filp : Filp) : Option (BitVec 32 × BitVec 32) :=
  (s.files.find? fun file => file.1 = filp).bind (·.2)

/-- The statements of the methods, with the locals still needed. -/
inductive Point where
  | setTestdev (minor : Nat)
  | readMinor (minor : Nat)
  | down (minor dispatch : Nat)
  | patchRead (minor dispatch : Nat)
  | patchWrite (minor dispatch : Nat)
  | returnOpen (minor dispatch : Nat)
  | callWrite (filp : Filp) (user : UserBuffer) (count : Nat) (stack : List UInt8)
  | copyIn (filp : Filp) (op : Operation) (user : UserBuffer) (count : Nat) (stack : List UInt8)
  | compute (filp : Filp) (op : Operation) (user : UserBuffer) (count : Nat) (kbuff : Block Buffer)
  | callRead (filp : Filp)
  | copyOut (filp : Filp) (op : Operation)
  | up (filp : Filp)

def Point.filp : Point → Option Filp
  | .callWrite filp _ _ _ | .copyIn filp _ _ _ _ | .compute filp _ _ _ _ | .callRead filp | .copyOut filp _
  | .up filp => some filp
  | _ => none

def Point.releases (filp : Filp) : Point → Bool
  | .up other => other = filp
  | _ => false

/-- `-14` is `-EFAULT`, `-22` is the `-EINVAL` of a file without the method. The methods keep what
`copy_from_user` returns in an `int`. `down` waits while the count is 0. -/
def Point.step (s : State) : Point → Option (Progress Point × State)
  | .setTestdev minor => some (.next (.readMinor minor), { s with myTestdev := minor })
  | .readMinor minor => some (.next (.down minor s.myTestdev), s)
  | .down minor dispatch =>
    if s.mySem = 0 then none
    else some (.next (.patchRead minor dispatch), { s with mySem := s.mySem - 1 })
  | .patchRead minor dispatch =>
    match Operation.ofMinor dispatch with
    | none => some (.next (.returnOpen minor dispatch), s)
    | some op => some (.next (.patchWrite minor dispatch), { s with fops := { s.fops with read := some op } })
  | .patchWrite minor dispatch =>
    some (.next (.returnOpen minor dispatch),
      { s with fops := { s.fops with write := Operation.ofMinor dispatch } })
  | .returnOpen minor _ =>
    some (.returned 0,
      { s with
        fresh := s.fresh + 1
        files := s.files ++ [(⟨s.fresh, minor⟩, none)]
        openings := s.openings ++ [(minor, s.fops)] })
  | .callWrite filp user count stack =>
    match s.fops.write with
    | none => some (.returned (-22), s)
    | some op =>
      some (.next (.copyIn filp op user count stack), { s with handled := s.handled ++ [(filp.minor, op)] })
  | .copyIn filp op user count stack =>
    let (missing, kbuff) := (Calculator.copyIn stack user count).value
    if missing % 2 ^ 32 = 0 then some (.next (.compute filp op user count kbuff), s)
    else some (.returned (-14), s)
  | .compute filp op user count kbuff =>
    let (a, b) := (operands kbuff).value
    (op.apply a b).map fun result =>
      (.returned count,
        ({ s with results := fun other => if other = op then result else s.results other } : State).written filp
          (suppliedPair user count))
  | .callRead filp =>
    match s.fops.read with
    | none => some (.returned (-22), s)
    | some op => some (.next (.copyOut filp op), { s with handled := s.handled ++ [(filp.minor, op)] })
  | .copyOut filp op =>
    some (.returned 0,
      { s with readings := s.readings ++ [⟨filp.minor, s.lastPair filp, s.results op⟩] })
  | .up filp =>
    some (.returned 0,
      { s with mySem := s.mySem + 1, files := s.files.filter fun file => file.1 ≠ filp })

abbrev Machine := System State Point

inductive Action where
  | open (minor : Nat)
  | write (filp : Filp) (user : UserBuffer) (count : Nat) (stack : List UInt8)
  | read (filp : Filp)
  | release (filp : Filp)
  | run (index : Nat)

/-- The file is open and nobody has begun to release it. -/
def Usable (m : Machine) (filp : Filp) : Prop :=
  (∃ file ∈ m.shared.files, file.1 = filp) ∧ ∀ call ∈ m.calls, call.releases filp = false

instance (m : Machine) (filp : Filp) : Decidable (Usable m filp) := inferInstanceAs (Decidable (_ ∧ _))

/-- `cdev_add` claims four device numbers, so others never get here. A file is
released when the last call on it is over. -/
def Machine.step (m : Machine) : Action → Option Machine
  | .open minor => if minor < 4 then some (m.start (.setTestdev minor)) else none
  | .write filp user count stack => if Usable m filp then some (m.start (.callWrite filp user count stack)) else none
  | .read filp => if Usable m filp then some (m.start (.callRead filp)) else none
  | .release filp =>
    if Usable m filp ∧ ∀ call ∈ m.calls, call.filp ≠ some filp then some (m.start (.up filp)) else none
  | .run index => m.run (fun s point => point.step s) index

/-- After `sema_init(&my_sem, 1)`. -/
def loaded : Machine := ⟨{}, []⟩

end DeviceDrivers.Calculator
