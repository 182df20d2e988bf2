import DeviceDrivers.Calculator.Calls
import DeviceDrivers.Proofs.CalculatorDispatch
import Mathlib.Algebra.Group.Int.Defs
import Mathlib.Algebra.Group.Nat.Defs

/-! What a pair that is written to the calculator comes back as. The two divisions
that the processor cannot do are not looked for. -/

namespace DeviceDrivers.Calculator
open Touches Kernel Interleavings

variable {op : Operation} {results left : Globals} {stack : List UInt8} {user : UserBuffer} {count : Nat} {value : Int}
  {a b : BitVec 32} {kbuff : Block Buffer}

/-- The result that the operation has on the integers, in 32 bits. -/
def Operation.Computes (a b result : BitVec 32) : Operation → Prop
  | .add => result.toInt = (a.toInt + b.toInt).bmod (2 ^ 32)
  | .sub => result.toInt = (a.toInt - b.toInt).bmod (2 ^ 32)
  | .mul => result.toInt = (a.toInt * b.toInt).bmod (2 ^ 32)
  | .div => result.toInt = a.toInt.tdiv b.toInt

def Operation.Undefined (a b : BitVec 32) (op : Operation) : Prop :=
  op = .div ∧ (b = 0#32 ∨ a = BitVec.intMin 32 ∧ b = -1#32)

private theorem Operation.apply_undefined (undefined : op.Undefined a b) : op.apply a b = none := by
  obtain ⟨rfl, exceptional⟩ := undefined
  exact if_pos exceptional

private theorem Operation.apply_computes (defined : ¬ op.Undefined a b) :
    ∃ result, op.apply a b = some result ∧ op.Computes a b result := by
  cases op with
  | add => exact ⟨_, rfl, BitVec.toInt_add a b⟩
  | sub => exact ⟨_, rfl, BitVec.toInt_sub⟩
  | mul => exact ⟨_, rfl, BitVec.toInt_mul a b⟩
  | div =>
    have ordinary : ¬ (b = 0#32 ∨ a = BitVec.intMin 32 ∧ b = -1#32) := fun exceptional => defined ⟨rfl, exceptional⟩
    refine ⟨_, if_neg ordinary, BitVec.toInt_sdiv_of_ne_or_ne a b ?_⟩
    by_contra both
    exact ordinary (.inr (by simpa [not_or] using both))

private theorem handle_value : (handle op results kbuff).value =
    (op.apply (operands kbuff).value.1 (operands kbuff).value.2).map (Function.update results op) := rfl

private theorem nameWrite_failed (wrote : (nameWrite op results stack user count).outcome = some (value, left))
    (negative : value < 0) : left = results := by
  rw [nameWrite, writeMethod_outcome] at wrote
  split at wrote
  next =>
    obtain ⟨_, _, same⟩ := Option.map_eq_some_iff.mp wrote
    cases same
    exact absurd negative (Int.not_lt.mpr (Int.natCast_nonneg count))
  next =>
    cases wrote
    rfl

private theorem nameWrite_pair (clear : ∀ k < 8, user.faults k = false) : (nameWrite op results stack user 8).outcome =
    (op.apply (userPair user).1 (userPair user).2).map fun result => (8, Function.update results op result) := by
  have complete : (copyIn stack user 8).value.1 = 0 := by
    by_contra missing
    obtain ⟨k, inside, fault⟩ := copyFromUser_missing.mp missing
    rw [clear k inside] at fault
    cases fault
  have pair : (operands (copyIn stack user 8).value.2).value = userPair user :=
    operands_copied (Nat.le_of_sub_eq_zero complete)
  rw [nameWrite, writeMethod_outcome, ← copyIn, complete, Nat.zero_mod, if_pos rfl, handle_value, pair, Option.map_map]
  rfl

private theorem nameRead_stored (clear : ∀ k < 4, user.faults k = false) (offp : Int) :
    int (nameRead op results user offp).stored = results op := by
  have whole : 4 ≤ (user.readable 0 4).length := by
    by_contra short
    rcases UserBuffer.readable_stops.mp (Nat.le_of_lt_succ (Nat.lt_of_not_le short)) with few | ⟨k, _, inside, fault⟩
    · omega
    · rw [Nat.zero_add, clear k inside] at fault
      cases fault
  have stored : (nameRead op results user offp).stored =
      (intBytes (results op)).take (user.readable 0 4).length := rfl
  rw [stored, List.take_of_length_le whole, int_intBytes]

theorem userPair_bytes (supplied : user.bytes 0 8 = intBytes a ++ intBytes b) : userPair user = (a, b) := by
  have first : user.bytes 0 4 = intBytes a := by
    have part := @UserBuffer.slice_bytes user 0 8 0 4 (by decide)
    rw [supplied] at part
    exact part.symm
  have last : user.bytes 4 4 = intBytes b := by
    have part := @UserBuffer.slice_bytes user 0 8 4 4 (by decide)
    rw [supplied] at part
    exact part.symm
  rw [userPair, first, last, int_intBytes, int_intBytes]

/-- The write of a pair does not trap. It returns an error where there is no result, and
elsewhere a read gets the result. -/
def RoundTrip (op : Operation) (a b : BitVec 32) (written : Written Buffer Globals) (reader : UserBuffer) (offp : Int) :
    Prop :=
  ∃ value left, written.outcome = some (value, left) ∧ (op.Undefined a b → value < 0) ∧
    (¬ op.Undefined a b → value = 8 ∧ op.Computes a b (int (nameRead op left reader offp).stored))

private theorem div_iff {minor : Nat} (known : Operation.ofMinor minor = some op) : minor = 3 ↔ op = .div := by
  match minor, known with
  | 0, known | 1, known | 2, known | 3, known => cases known; simp

/-- Eight bytes written through a device file and four read back are the result of the
pair for its minor number exactly if the pair has one. No write that returns an error
changes any of the four results. -/
theorem round_trip_iff (minor : Nat) (op : Operation) (known : Operation.ofMinor minor = some op) (a b : BitVec 32)
    (results : Globals) (stack : List UInt8) (writer reader : UserBuffer) (offp : Int)
    (supplied : writer.bytes 0 8 = intBytes a ++ intBytes b) (clear : ∀ k < 8, writer.faults k = false)
    (room : ∀ k < 4, reader.faults k = false) :
    (RoundTrip op a b (nameWrite op results stack writer 8) reader offp ↔
      ¬ (minor = 3 ∧ (b = 0#32 ∨ a = BitVec.intMin 32 ∧ b = -1#32))) ∧
    ∀ user count value left, (nameWrite op results stack user count).outcome = some (value, left) → value < 0 →
      left = results := by
  refine ⟨?_, fun _ _ _ _ => nameWrite_failed⟩
  rw [div_iff known]
  have written : (nameWrite op results stack writer 8).outcome =
      (op.apply a b).map fun result => (8, Function.update results op result) := by
    rw [nameWrite_pair clear, userPair_bytes supplied]
  constructor
  · rintro ⟨value, left, wrote, _, _⟩ undefined
    rw [written, Operation.apply_undefined undefined] at wrote
    cases wrote
  · intro defined
    obtain ⟨result, applied, computes⟩ := Operation.apply_computes defined
    refine ⟨8, Function.update results op result, by rw [written, applied]; rfl, fun undefined => ?_, fun _ => ⟨rfl, ?_⟩⟩
    · exact absurd undefined defined
    · rw [nameRead_stored room, Function.update_self]
      exact computes

def pairUser (a b : BitVec 32) : UserBuffer := { byte := fun i => (intBytes a ++ intBytes b).getD i 0 }

/-- Seven divided by minus two. -/
theorem round_trip_iff_quotient :
    RoundTrip .div 7#32 (-2#32) (nameWrite .div (fun _ => 0#32) [] (pairUser 7#32 (-2#32)) 8) (pairUser 0 0) 0 :=
  (round_trip_iff 3 .div rfl 7#32 (-2#32) (fun _ => 0#32) [] (pairUser 7#32 (-2#32)) (pairUser 0 0) 0 rfl
    (fun _ _ => rfl) fun _ _ => rfl).1.mpr (by decide)

/-- A division by zero traps. -/
theorem zero_divisor_traps :
    ¬ ∀ (minor : Nat) (op : Operation) (_ : Operation.ofMinor minor = some op) (a b : BitVec 32)
    (results : Globals) (stack : List UInt8) (writer reader : UserBuffer) (offp : Int)
    (_ : writer.bytes 0 8 = intBytes a ++ intBytes b) (_ : ∀ k < 8, writer.faults k = false)
    (_ : ∀ k < 4, reader.faults k = false),
    RoundTrip op a b (nameWrite op results stack writer 8) reader offp := by
  intro claim
  obtain ⟨value, left, wrote, _⟩ := claim 3 .div rfl 1#32 0#32 (fun _ => 0#32) [] (pairUser 1#32 0#32) (pairUser 0 0) 0 rfl
    (fun _ _ => rfl) fun _ _ => rfl
  cases wrote

section Interleaved
variable {s : State} {filp : Filp}

/-- A write is what its statements do when they run alone. -/
theorem nameWrite_alone (there : s.fops.write = some op)
    (wrote : (nameWrite op s.results stack user count).outcome = some (value, left)) :
    ∃ s', Alone (fun s (point : Point) => point.step s) s (.next (.callWrite filp user count stack)) value s' ∧
      s'.results = left := by
  have called : (Point.callWrite filp user count stack).step s = some (.next (.copyIn filp op user count stack),
      { s with handled := s.handled ++ [(filp.minor, op)] }) := by
    rw [Point.step, there]
  rw [nameWrite, writeMethod_outcome, ← copyIn] at wrote
  split at wrote
  next complete =>
    obtain ⟨left, handled, same⟩ := Option.map_eq_some_iff.mp wrote
    cases same
    rw [handle_value] at handled
    obtain ⟨result, applied, rfl⟩ := Option.map_eq_some_iff.mp handled
    have computed : (Point.compute filp op user count (copyIn stack user count).value.2).step
        { s with handled := s.handled ++ [(filp.minor, op)] } = some (.returned count,
          ({ s with
            handled := s.handled ++ [(filp.minor, op)]
            results := fun other => if other = op then result else s.results other } : State).written filp
            (suppliedPair user count)) :=
      Option.map_eq_some_iff.mpr ⟨result, applied, rfl⟩
    refine ⟨_, .step called (.step (if_pos complete) (.step computed .returned)), ?_⟩
    funext other
    exact (Function.update_apply _ _ _ _).symm
  next missing =>
    cases wrote
    exact ⟨_, .step called (.step (if_neg missing) .returned), rfl⟩

/-- The read hands out what its statements record as read. -/
theorem nameRead_alone (there : s.fops.read = some op) (clear : ∀ k < 4, user.faults k = false) (offp : Int) :
    ∃ s', Alone (fun s (point : Point) => point.step s) s (.next (.callRead filp))
      (nameRead op s.results user offp).result s' ∧
      s'.readings = s.readings ++ [⟨filp.minor, s.lastPair filp, int (nameRead op s.results user offp).stored⟩] := by
  have called : (Point.callRead filp).step s = some (.next (.copyOut filp op),
      { s with handled := s.handled ++ [(filp.minor, op)] }) := by
    rw [Point.step, there]
  rw [nameRead_stored clear]
  exact ⟨_, .step called (.step rfl .returned), rfl⟩

end Interleaved

end DeviceDrivers.Calculator
