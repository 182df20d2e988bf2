import DeviceDrivers.SlpyProc.Control
import DeviceDrivers.Proofs.SlpyProcEvents

/-! The proc entry takes the strings that the comment names and no others. What it
shows is always cut to 27 bytes, which is the length of the text only where `wake_one`
takes two characters. -/

namespace DeviceDrivers.SlpyProc
open Runs Touches Kernel Decimal Interleavings

variable {s : State} {m m' : Machine} {stack : List UInt8} {user : UserBuffer} {count : Nat}

/-- A write does what the comment says, or returns an error and changes nothing. -/
structure Obeys (s : State) (user : UserBuffer) (count : Nat) (out : Int × State) : Prop where
  accepted : 0 ≤ out.1 ↔ user.Readable count ∧ (command s (user.bytes 0 count)).isSome
  changed : 0 ≤ out.1 → command s (user.bytes 0 count) = some out.2
  refused : out.1 < 0 → out.2 = s

private theorem letters_zero : letters "0" = [0x30] := by decide

private theorem letters_one : letters "1" = [0x31] := by decide

private theorem letters_two : letters "2" = [0x32] := by decide

private theorem command_long {string : List UInt8} (long : string.length ≠ 1) : command s string = none := by
  have apart (letter : UInt8) : string ≠ [letter] := by
    rintro rfl
    exact long rfl
  rw [command, letters_zero, letters_one, letters_two, if_neg (apart _), if_neg (apart _), if_neg (apart _)]

private theorem command_letter (letter : UInt8) : command s [letter] =
    if letter = 0x30 then some { s with wakeOne := 0 }
    else if letter = 0x31 then some { s with wakeOne := 1 }
    else if letter = 0x32 then some { s with dataPresent := 0 }
    else none := by
  simp only [command, letters_zero, letters_one, letters_two, List.cons.injEq, and_true]

private theorem Obeys.accept {s' : State} (readable : user.Readable count)
    (spelled : command s (user.bytes 0 count) = some s') :
    Obeys s user count (count, s') := by
  have taken : (0 : Int) ≤ count := Int.natCast_nonneg count
  refine ⟨iff_of_true taken ⟨readable, by rw [spelled]; rfl⟩, fun _ => spelled, fun error => ?_⟩
  exact absurd taken (Int.not_le.mpr error)

private theorem Obeys.refuse {error : Int} (negative : error < 0)
    (unnamed : user.Readable count → command s (user.bytes 0 count) = none) : Obeys s user count (error, s) := by
  refine ⟨iff_of_false (Int.not_le.mpr negative) ?_, fun taken => absurd taken (Int.not_le.mpr negative), fun _ => rfl⟩
  rintro ⟨readable, named⟩
  rw [unnamed readable] at named
  cases named

private theorem writeWakeOne_one (clear : user.faults 0 = false) : (writeWakeOne stack s user 1).value =
    if user.byte 0 = 0x30 then (1, { s with wakeOne := 0 })
    else if user.byte 0 = 0x31 then (1, { s with wakeOne := 1 })
    else if user.byte 0 = 0x32 then (1, { s with dataPresent := 0 })
    else (-22, s) := by
  simp [writeWakeOne, maxlen, copyFromUser_one clear, splice]

private theorem writeWakeOne_obeys (stack : List UInt8) (s : State) (user : UserBuffer) (count : Nat) :
    Obeys s user count (writeWakeOne stack s user count).value := by
  match count with
  | 0 =>
    have refused : (writeWakeOne stack s user 0).value = (-22, s) := by
      simp [writeWakeOne, maxlen, copyFromUser, UserBuffer.readable, splice]
    rw [refused]
    exact .refuse (by simp) fun _ => command_long (by simp [UserBuffer.bytes])
  | 1 =>
    cases fault : user.faults 0 with
    | true =>
      have refused : (writeWakeOne stack s user 1).value = (-14, s) := by
        simp [writeWakeOne, maxlen, copyFromUser, UserBuffer.readable, fault]
      rw [refused]
      refine .refuse (by simp) fun readable => ?_
      rw [readable 0 (by decide)] at fault
      cases fault
    | false =>
      have readable : user.Readable 1 := by
        intro offset inside
        rwa [Nat.lt_one_iff.mp inside]
      have spelled : command s (user.bytes 0 1) = _ := command_letter (user.byte 0)
      rw [writeWakeOne_one fault]
      split_ifs at spelled ⊢
      · exact .accept readable spelled
      · exact .accept readable spelled
      · exact .accept readable spelled
      · exact .refuse (by simp) fun _ => spelled
  | count + 2 =>
    have refused : (writeWakeOne stack s user (count + 2)).value = (-22, s) := by
      simp [writeWakeOne, maxlen]
    rw [refused]
    exact .refuse (by simp) fun _ => command_long (by simp [UserBuffer.bytes])

/-- The text fits its buffer, and reading gives it and nothing else, from which the
variables can be read back. -/
structure Shows (stack : List UInt8) (s : State) (reader : Reader) : Prop where
  fits : AllInside (readStat stack s reader.user 0).touches
  exact : reader.ToEnd (procRead stack s) 0 (status s)
  parsed : parseStatus (status s) = some (s.dataPresent, s.wakeOne)

private theorem parse_status (s : State) : parseStatus (status s) = some (s.dataPresent, s.wakeOne) := by
  have first : (letters " wake_one=" ++ (decimal s.wakeOne ++ letters "\n")).takeWhile isDigit = [] := by
    rw [show letters " wake_one=" = 32 :: letters "wake_one=" by decide, List.cons_append]
    exact List.takeWhile_cons_of_neg (by decide)
  have last : (letters "\n").takeWhile isDigit = [] := by decide
  simp only [parseStatus, status, List.drop_left, scan_decimal _ first, scan_decimal _ last, ↓reduceIte]

section Reading
variable {reader : Reader}

private theorem length_status (s : State) :
    (status s).length = 24 + (decimal s.dataPresent).length + (decimal s.wakeOne).length := by
  simp only [status, List.length_append, show (letters "data_present=").length = 13 by decide,
    show (letters " wake_one=").length = 10 by decide, show (letters "\n").length = 1 by decide]
  omega

private theorem status_long (s : State) : 26 ≤ (status s).length := by
  have first := length_decimal_pos s.dataPresent
  have last := length_decimal_pos s.wakeOne
  rw [length_status]
  omega

private theorem copied_part (stack : List UInt8) (s : State) :
    slice (splice stack 0 (status s ++ [0])) 0 27 = (status s ++ [0]).take 27 := by
  have long := status_long s
  rw [slice, splice, List.take_zero, List.nil_append, List.drop_zero,
    List.take_append_of_le_length (by rw [List.length_append, List.length_singleton]; omega)]

private theorem procRead_value (stack : List UInt8) (s : State) (offp : Int) : reader.read (procRead stack s) offp =
    if offp = 0 then ⟨27, 27, (copyToUser reader.user ((status s ++ [0]).take 27)).2⟩
    else ⟨0, offp, (copyToUser reader.user ((status s ++ [0]).take 27)).2⟩ := by
  rw [← copied_part stack s]
  rfl

theorem reading (stack : List UInt8) (s : State) (room : 27 ≤ reader.size) :
    reader.ToEnd (procRead stack s) 0 ((status s ++ [0]).take 27) := by
  have long := status_long s
  have part : ((status s ++ [0]).take 27).length = 27 := by
    rw [List.length_take, List.length_append, List.length_singleton]
    omega
  have stored : (copyToUser reader.user ((status s ++ [0]).take 27)).2 = (status s ++ [0]).take 27 := by
    apply copyToUser_all
    intro offset inside
    exact reader.own offset (by omega)
  have first : reader.read (procRead stack s) 0 =
      ⟨((status s ++ [0]).take 27).length, 27, (status s ++ [0]).take 27⟩ := by
    rw [procRead_value, if_pos rfl, stored, part]
    rfl
  apply Reader.ToEnd.once first
  · omega
  · omega
  · rw [procRead_value, if_neg (by decide)]

private theorem reading_room {data : List UInt8} (read : reader.ToEnd (procRead stack s) 0 data) :
    27 ≤ reader.size := by
  cases read with
  | done ended =>
    rw [procRead_value, if_pos rfl] at ended
    cases ended
  | more _ room =>
    rw [procRead_value, if_pos rfl] at room
    exact Int.ofNat_le.mp room

private theorem shows_iff (stack : List UInt8) (s : State) (reader : Reader) :
    Shows stack s reader ↔ (status s).length = 27 ∧ 27 ≤ reader.size := by
  have long := status_long s
  constructor
  · intro shows
    have room := reading_room shows.exact
    have whole := congrArg List.length ((reading stack s room).unique shows.exact)
    rw [List.length_take, List.length_append, List.length_singleton] at whole
    omega
  · rintro ⟨whole, room⟩
    refine ⟨?_, ?_, parse_status s⟩
    · simp [readStat, Touch.Inside, whole]
    · have exact := reading stack s room
      rwa [List.take_left' whole] at exact

end Reading

section Runs
variable {operation : Operation} {operations : List Operation}

def Operation.Chooses : Operation → Prop
  | .device _ => False
  | .procWrite _ user count =>
    user.Readable count ∧ (user.bytes 0 count = letters "0" ∨ user.bytes 0 count = letters "1")

def Flag (s : State) : Prop := s.dataPresent = 0 ∨ s.dataPresent = 1

theorem Advance.flag {point : Point} {progress : Progress Point} {s' : State} (advance : Advance s point progress s')
    (flag : Flag s) : Flag s' := by
  cases advance with
  | reset => exact .inl rfl
  | raised => exact .inr rfl
  | _ => exact flag

inductive Commanded (s : State) (string : List UInt8) : State → Prop where
  | zero (spelled : string = letters "0") : Commanded s string { s with wakeOne := 0 }
  | one (spelled : string = letters "1") : Commanded s string { s with wakeOne := 1 }
  | two (spelled : string = letters "2") : Commanded s string { s with dataPresent := 0 }

private theorem command_cases {string : List UInt8} {s' : State} (named : command s string = some s') :
    Commanded s string s' := by
  rw [command] at named
  split at named
  next spelled => cases named; exact .zero spelled
  next =>
    split at named
    next spelled => cases named; exact .one spelled
    next =>
      obtain ⟨spelled, same⟩ := Option.ite_none_right_eq_some.mp named
      cases same
      exact .two spelled

theorem Commanded.flag {string : List UInt8} {s' : State} (commanded : Commanded s string s') (flag : Flag s) :
    Flag s' := by
  cases commanded with
  | zero | one => exact flag
  | two => exact .inl rfl

def Chosen (s : State) : Prop := s.wakeOne = 0 ∨ s.wakeOne = 1

theorem Commanded.wakeOne {string : List UInt8} {s' : State} (commanded : Commanded s string s') :
    if string = letters "0" ∨ string = letters "1" then Chosen s' else s'.wakeOne = s.wakeOne := by
  cases commanded with
  | zero spelled => rw [if_pos (.inl spelled)]; exact .inl rfl
  | one spelled => rw [if_pos (.inr spelled)]; exact .inr rfl
  | two spelled => rw [spelled, if_neg (by decide)]

/-- A write is one of the three commands, or changes nothing. -/
theorem procWrite_cases (stack : List UInt8) (s : State) (user : UserBuffer) (count : Nat) :
    user.Readable count ∧ Commanded s (user.bytes 0 count) (writeWakeOne stack s user count).value.2 ∨
      (writeWakeOne stack s user count).value.2 = s ∧ ¬ (Operation.procWrite stack user count).Chooses := by
  have obeys := writeWakeOne_obeys stack s user count
  by_cases taken : 0 ≤ (writeWakeOne stack s user count).value.1
  · exact .inl ⟨(obeys.accepted.mp taken).1, command_cases (obeys.changed taken)⟩
  · refine .inr ⟨obeys.refused (Int.not_le.mp taken), ?_⟩
    rintro ⟨readable, spelled⟩
    refine taken (obeys.accepted.mpr ⟨readable, ?_⟩)
    rcases spelled with zero | one
    · rw [zero, command, if_pos rfl]
      rfl
    · rw [one, command, if_neg (by decide), if_pos rfl]
      rfl

theorem Flag.operate (flag : Flag m.shared) (stepped : m.operate operation = some m') : Flag m'.shared := by
  cases operation with
  | device action =>
    cases Machine.step_cases stepped with
    | read | wrote => exact flag
    | ran _ _ advance => exact advance.flag flag
  | procWrite stack user count =>
    cases stepped
    change Flag (writeWakeOne stack m.shared user count).value.2
    rcases procWrite_cases stack m.shared user count with ⟨-, commanded⟩ | ⟨same, -⟩
    · exact commanded.flag flag
    · rwa [same]

private theorem wakeOne_operate (stepped : m.operate operation = some m') :
    (operation.Chooses → Chosen m'.shared) ∧ (¬ operation.Chooses → m'.shared.wakeOne = m.shared.wakeOne) := by
  cases operation with
  | device action =>
    refine ⟨False.elim, fun _ => ?_⟩
    cases Machine.step_cases stepped with
    | read | wrote => rfl
    | ran _ _ advance => exact advance.wakeOne
  | procWrite stack user count =>
    cases stepped
    rcases procWrite_cases stack m.shared user count with ⟨readable, commanded⟩ | ⟨same, unchosen⟩
    · have outcome := commanded.wakeOne
      refine ⟨fun chooses => ?_, fun unchosen => ?_⟩
      · rwa [if_pos chooses.2] at outcome
      · rwa [if_neg fun spelled => unchosen ⟨readable, spelled⟩] at outcome
    · exact ⟨fun chooses => absurd chooses unchosen, fun _ => congrArg State.wakeOne same⟩

/-- `wake_one` has the value it was loaded with until another is written to the entry. -/
private theorem wakeOne_run {wakeOne : Int}
    (run : Run Machine.operate (fun _ _ => True) (loaded wakeOne) operations m) :
    ((∃ operation ∈ operations, operation.Chooses) → Chosen m.shared) ∧
      ((∀ operation ∈ operations, ¬ operation.Chooses) → m.shared.wakeOne = wakeOne) := by
  induction run with
  | nil => exact ⟨by simp, fun _ => rfl⟩
  | @snoc operations before operation next _ _ stepped ih =>
    have effect := wakeOne_operate stepped
    simp only [List.mem_append, List.mem_singleton, or_imp, forall_and, forall_eq]
    refine ⟨?_, fun never => (effect.2 never.2).trans (ih.2 never.1)⟩
    rintro ⟨other, member, chooses⟩
    by_cases now : operation.Chooses
    · exact effect.1 now
    · rcases member with earlier | rfl
      · rw [Chosen, effect.2 now]
        exact ih.1 ⟨other, earlier, chooses⟩
      · exact absurd chooses now

/-- Writes always do what the comment says. Reading shows the variables just where
`wake_one` still has the value it was loaded with, this takes two characters, and the
reader has room for 27 bytes. -/
theorem control_iff (wakeOne : Int) (operations : List Operation) (m : Machine)
    (run : Run Machine.operate (fun _ _ => True) (loaded wakeOne) operations m) (reader : Reader) :
    (∀ stack user count, Obeys m.shared user count (writeWakeOne stack m.shared user count).value) ∧
        (∀ stack, Shows stack m.shared reader) ↔
      (∀ operation ∈ operations, ¬ operation.Chooses) ∧
        (10 ≤ wakeOne ∧ wakeOne ≤ 99 ∨ -9 ≤ wakeOne ∧ wakeOne ≤ -1) ∧ 27 ≤ reader.size := by
  have flag : Flag m.shared := run.invariant (fun m => Flag m.shared) (.inl rfl)
    fun _ _ _ flag _ stepped => flag.operate stepped
  have one : (decimal m.shared.dataPresent).length = 1 := by
    rcases flag with zero | one
    · rw [zero]; decide
    · rw [one]; decide
  have length := length_status m.shared
  have two := length_decimal_two m.shared.wakeOne
  obtain ⟨chosen, kept⟩ := wakeOne_run run
  rw [and_iff_right fun stack user count => writeWakeOne_obeys stack m.shared user count]
  constructor
  · intro shows
    obtain ⟨whole, room⟩ := (shows_iff [] m.shared reader).mp (shows [])
    have small := two.mp (by omega)
    have never : ∀ operation ∈ operations, ¬ operation.Chooses := by
      intro operation member chooses
      rcases chosen ⟨operation, member, chooses⟩ with zero | one <;> omega
    exact ⟨never, kept never ▸ small, room⟩
  · rintro ⟨never, small, room⟩ stack
    rw [← kept never, ← two] at small
    exact (shows_iff stack m.shared reader).mpr ⟨by omega, room⟩

end Runs

/-- A value of two digits, and a write to the device. -/
theorem control_iff_two_digits : ∃ operations m,
    Run Machine.operate (fun _ _ => True) (loaded 10) operations m ∧ m.shared.dataPresent = 1 ∧
      (∀ stack user count, Obeys m.shared user count (writeWakeOne stack m.shared user count).value) ∧
      ∀ stack, Shows stack m.shared (.of 4096) := by
  have reached : ∃ m : Machine, Run Machine.operate (fun _ _ => True) (loaded 10)
      [.device (.write 1), .device (.run 0)] m ∧ m.shared.dataPresent = 1 :=
    reaches_of_execute (by decide +kernel)
  obtain ⟨m, run, present⟩ := reached
  refine ⟨_, m, run, present, (control_iff 10 _ m run (.of 4096)).mpr ?_⟩
  refine ⟨?_, by decide, by decide⟩
  simp [Operation.Chooses]

/-- The module just loaded, with the default of 0, whose text ends before the 27th byte. -/
theorem zero_shown : ¬ ∀ (wakeOne : Int) (operations : List Operation) (m : Machine),
    Run Machine.operate (fun _ _ => True) (loaded wakeOne) operations m → ∀ reader : Reader, 27 ≤ reader.size →
    (∀ stack user count, Obeys m.shared user count (writeWakeOne stack m.shared user count).value) ∧
      ∀ stack, Shows stack m.shared reader := by
  intro claim
  have shown := (claim 0 [] _ .nil (.of 4096) (by decide)).2 []
  have whole := ((shows_iff [] _ _).mp shown).1
  exact absurd whole (by decide)

end DeviceDrivers.SlpyProc
