/-! Byte buffers whose accesses are recorded. A computation returns its value
together with every range of bytes it touched, so bounds can be checked
without changing what it computes. -/

namespace DeviceDrivers.Touches

universe u v

/-- `count` bytes of a buffer of `size` bytes, from offset `first`. -/
structure Touch (ρ : Type) where
  region : ρ
  size : Nat
  first : Nat
  count : Nat
  deriving DecidableEq, Repr

def Touch.Inside {ρ : Type} (touch : Touch ρ) : Prop := touch.first + touch.count ≤ touch.size

instance {ρ : Type} (touch : Touch ρ) : Decidable touch.Inside :=
  inferInstanceAs (Decidable (_ ≤ _))

def AllInside {ρ : Type} (touches : List (Touch ρ)) : Prop := ∀ touch ∈ touches, touch.Inside

instance {ρ : Type} (touches : List (Touch ρ)) : Decidable (AllInside touches) :=
  inferInstanceAs (Decidable (∀ touch ∈ touches, touch.Inside))

/-- A value and the ranges touched while computing it, in order. -/
structure Traced (ρ : Type) (β : Type u) where
  value : β
  touches : List (Touch ρ)

instance {ρ : Type} : Monad (Traced ρ) where
  pure value := ⟨value, []⟩
  bind first next := ⟨(next first.value).value, first.touches ++ (next first.value).touches⟩

variable {ρ : Type} {β : Type u} {γ : Type u}

@[simp] theorem pure_value (value : β) : (pure value : Traced ρ β).value = value := rfl
@[simp] theorem pure_touches (value : β) : (pure value : Traced ρ β).touches = [] := rfl

@[simp] theorem bind_value (first : Traced ρ β) (next : β → Traced ρ γ) :
    (first >>= next).value = (next first.value).value := rfl

@[simp] theorem bind_touches (first : Traced ρ β) (next : β → Traced ρ γ) :
    (first >>= next).touches = first.touches ++ (next first.value).touches := rfl

@[simp] theorem ite_value (condition : Prop) [Decidable condition] (first last : Traced ρ β) :
    (if condition then first else last).value = if condition then first.value else last.value := by
  split <;> rfl

@[simp] theorem ite_touches (condition : Prop) [Decidable condition] (first last : Traced ρ β) :
    (if condition then first else last).touches = if condition then first.touches else last.touches := by
  split <;> rfl

@[simp] theorem allInside_nil : AllInside ([] : List (Touch ρ)) := by simp [AllInside]

@[simp] theorem allInside_cons (touch : Touch ρ) (rest : List (Touch ρ)) :
    AllInside (touch :: rest) ↔ touch.Inside ∧ AllInside rest := by simp [AllInside]

@[simp] theorem allInside_append (first last : List (Touch ρ)) :
    AllInside (first ++ last) ↔ AllInside first ∧ AllInside last := by
  simp only [AllInside, List.mem_append, or_imp, forall_and]

section Bytes
variable (bytes : List UInt8) (first : Nat)

/-- The bytes of an array from `first` on are overwritten. -/
def splice (written : List UInt8) : List UInt8 :=
  bytes.take first ++ written ++ bytes.drop (first + written.length)

def slice (count : Nat) : List UInt8 := (bytes.drop first).take count

variable {bytes first} {written : List UInt8} {index count : Nat}

@[simp] theorem length_splice (inside : first + written.length ≤ bytes.length) :
    (splice bytes first written).length = bytes.length := by
  simp only [splice, List.length_append, List.length_take, List.length_drop]
  omega

theorem getElem?_splice (inside : first + written.length ≤ bytes.length) :
    (splice bytes first written)[index]? =
      if first ≤ index ∧ index < first + written.length then written[index - first]? else bytes[index]? := by
  simp only [splice, List.append_assoc, List.getElem?_append, List.length_take, List.getElem?_take,
    List.getElem?_drop]
  grind

theorem splice_splice {again : List UInt8} (same : written.length = again.length)
    (inside : first + written.length ≤ bytes.length) :
    splice (splice bytes first written) first again = splice bytes first again := by
  apply List.ext_getElem?
  intro index
  rw [getElem?_splice (by rw [length_splice inside]; omega), getElem?_splice inside,
    getElem?_splice (by omega)]
  grind

theorem getElem?_slice : (slice bytes first count)[index]? =
    if index < count then bytes[first + index]? else none := by
  simp [slice, List.getElem?_take, List.getElem?_drop]

@[simp] theorem length_slice (inside : first + count ≤ bytes.length) : (slice bytes first count).length = count := by
  simp only [slice, List.length_take, List.length_drop]
  omega

theorem slice_congr {other : List UInt8} (agree : ∀ index < count, other[first + index]? = bytes[first + index]?) :
    slice other first count = slice bytes first count := by
  apply List.ext_getElem?
  intro index
  rw [getElem?_slice, getElem?_slice]
  split
  next inside => exact agree index inside
  next => rfl

theorem slice_add {more : Nat} : slice bytes first (count + more) =
    slice bytes first count ++ slice bytes (first + count) more := by
  simp only [slice, List.take_add, List.drop_drop]

theorem slice_splice (inside : first + written.length ≤ bytes.length) :
    slice (splice bytes first written) first written.length = written := by
  apply List.ext_getElem?
  intro index
  rw [getElem?_slice, getElem?_splice inside]
  grind

end Bytes

/-- A named array of `size` bytes. `bytes` are its contents as far as they are
defined; what an access beyond `size` reaches is not part of it. -/
structure Block (ρ : Type) where
  region : ρ
  size : Nat
  bytes : List UInt8
  deriving DecidableEq, Repr

namespace Block
variable (block : Block ρ)

def touch (first count : Nat) : Traced ρ Unit :=
  ⟨(), [⟨block.region, block.size, first, count⟩]⟩

def load (index : Nat) : Traced ρ UInt8 := do
  block.touch index 1
  pure (block.bytes.getD index 0)

def loads (first count : Nat) : Traced ρ (List UInt8) := do
  block.touch first count
  pure (slice block.bytes first count)

def stores (first : Nat) (written : List UInt8) : Traced ρ (Block ρ) := do
  block.touch first written.length
  pure { block with bytes := splice block.bytes first written }

def store (index : Nat) (value : UInt8) : Traced ρ (Block ρ) := block.stores index [value]

def memset (count : Nat) (value : UInt8) : Traced ρ (Block ρ) :=
  block.stores 0 (List.replicate count value)

/-- Copy `count` bytes from the start of `source`. The destination is touched
over the whole count even where the source has fewer bytes. -/
def memcpy (source : Block ρ) (count : Nat) : Traced ρ (Block ρ) := do
  let copied ← source.loads 0 count
  block.touch 0 count
  pure { block with bytes := splice block.bytes 0 copied }

def Full : Prop := block.bytes.length = block.size

section Values
variable (index first count : Nat) (value : UInt8) (written : List UInt8) (source : Block ρ)

@[simp] theorem load_value : (block.load index).value = block.bytes.getD index 0 := rfl
@[simp] theorem loads_value : (block.loads first count).value = slice block.bytes first count := rfl

@[simp] theorem stores_value :
    (block.stores first written).value = { block with bytes := splice block.bytes first written } := rfl

@[simp] theorem store_value :
    (block.store index value).value = { block with bytes := splice block.bytes index [value] } := rfl

@[simp] theorem memset_value : (block.memset count value).value =
    { block with bytes := splice block.bytes 0 (List.replicate count value) } := rfl

@[simp] theorem memcpy_value : (block.memcpy source count).value =
    { block with bytes := splice block.bytes 0 (slice source.bytes 0 count) } := rfl

@[simp] theorem touch_touches :
    (block.touch first count).touches = [⟨block.region, block.size, first, count⟩] := rfl

@[simp] theorem load_touches : (block.load index).touches = [⟨block.region, block.size, index, 1⟩] := rfl

@[simp] theorem loads_touches :
    (block.loads first count).touches = [⟨block.region, block.size, first, count⟩] := rfl

@[simp] theorem stores_touches :
    (block.stores first written).touches = [⟨block.region, block.size, first, written.length⟩] := rfl

@[simp] theorem store_touches :
    (block.store index value).touches = [⟨block.region, block.size, index, 1⟩] := rfl

@[simp] theorem memset_touches :
    (block.memset count value).touches = [⟨block.region, block.size, 0, count⟩] := by
  simp [memset]

@[simp] theorem memcpy_touches : (block.memcpy source count).touches =
    [⟨source.region, source.size, 0, count⟩, ⟨block.region, block.size, 0, count⟩] := rfl

end Values

end Block

end DeviceDrivers.Touches
