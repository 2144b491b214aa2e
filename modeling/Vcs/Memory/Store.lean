/-!
# Memory Chips

A store holds the memory chips of a system by number.  Whoever knows a chip's number shares its bytes
with everyone else who does: there is one copy, so a byte written through one path is the byte read
through any other.
-/

namespace Vcs

/-- Memory chips, numbered from zero. -/
structure Store where
  chips : Array ByteArray

namespace Store

/-- No chips. -/
def empty : Store := ⟨#[]⟩

/-- Adds a chip holding `contents` and returns its number. -/
def add (store : Store) (contents : ByteArray) : Nat × Store :=
  (store.chips.size, ⟨store.chips.push contents⟩)

/-- Everything a chip holds; an absent chip is empty. -/
def contents (store : Store) (chip : Nat) : ByteArray :=
  store.chips.getD chip ByteArray.empty

/-- Bytes on a chip. -/
def size (store : Store) (chip : Nat) : Nat :=
  (store.contents chip).size

/-- The byte at an offset; beyond the end of the chip nothing drives the bus and zero is seen. -/
@[inline]
def read (store : Store) (chip offset : Nat) : UInt8 :=
  if h : chip < store.chips.size then
    let bytes := store.chips[chip]
    if h : offset < bytes.size then bytes[offset] else 0
  else 0

theorem read_eq_contents (store : Store) (chip offset : Nat) :
    store.read chip offset = (store.contents chip)[offset]?.getD 0 := by
  by_cases hchip : chip < store.chips.size
  · rw [read, dif_pos hchip, contents, Array.getD_eq_getD_getElem?, Array.getElem?_eq_getElem hchip,
      Option.getD_some]
    by_cases hoffset : offset < store.chips[chip].size
    · rw [dif_pos hoffset, getElem?_pos _ offset hoffset, Option.getD_some]
    · rw [dif_neg hoffset, getElem?_neg _ offset hoffset, Option.getD_none]
  · rw [read, dif_neg hchip, contents, Array.getD_eq_getD_getElem?,
      Array.getElem?_eq_none (Nat.le_of_not_lt hchip), Option.getD_none,
      getElem?_neg ByteArray.empty offset (Nat.not_lt_zero offset), Option.getD_none]

/-- Replaces one byte of some contents; beyond their end nothing changes. -/
@[inline]
def put (offset : Nat) (value : UInt8) (bytes : ByteArray) : ByteArray :=
  if h : offset < bytes.size then bytes.set offset value h else bytes

theorem data_put (offset : Nat) (value : UInt8) (bytes : ByteArray) :
    (put offset value bytes).data = bytes.data.setIfInBounds offset value := by
  by_cases h : offset < bytes.size
  · rw [put, dif_pos h, ByteArray.data_set, Array.setIfInBounds_def]
    exact (dif_pos h).symm
  · rw [put, dif_neg h]
    exact (Array.setIfInBounds_eq_of_size_le (Nat.le_of_not_lt h)).symm

@[simp]
theorem size_put (offset : Nat) (value : UInt8) (bytes : ByteArray) :
    (put offset value bytes).size = bytes.size := by
  simp [← ByteArray.size_data, data_put]

/-- Only the last byte put at an offset counts. -/
@[simp]
theorem put_put (offset : Nat) (value before : UInt8) (bytes : ByteArray) :
    put offset value (put offset before bytes) = put offset value bytes := by
  apply ByteArray.ext
  simp [data_put, Array.setIfInBounds_setIfInBounds]

theorem put_comm {first second : Nat} (h : first ≠ second) (value other : UInt8)
    (bytes : ByteArray) :
    put first value (put second other bytes) = put second other (put first value bytes) := by
  apply ByteArray.ext
  simp only [data_put]
  exact Array.setIfInBounds_comm _ _ h.symm

theorem getElem?_put_self (offset : Nat) (value : UInt8) (bytes : ByteArray) :
    (put offset value bytes)[offset]? = bytes[offset]?.map fun _ ↦ value := by
  change (put offset value bytes).data[offset]? = bytes.data[offset]?.map fun _ ↦ value
  rw [data_put, Array.getElem?_setIfInBounds_self]
  split
  · next h => rw [Array.getElem?_eq_getElem h, Option.map_some]
  · next h => rw [Array.getElem?_eq_none (Nat.le_of_not_lt h), Option.map_none]

theorem getElem?_put_of_ne {offset i : Nat} (h : offset ≠ i) (value : UInt8)
    (bytes : ByteArray) : (put offset value bytes)[i]? = bytes[i]? := by
  change (put offset value bytes).data[i]? = bytes.data[i]?
  rw [data_put, Array.getElem?_setIfInBounds_ne h]

/-- Stores a byte at an offset; beyond the end of the chip the write is lost. -/
@[inline]
def write (store : Store) (chip offset : Nat) (value : UInt8) : Store :=
  ⟨store.chips.modify chip (put offset value)⟩

/-- Replaces everything a chip holds. -/
def replace (store : Store) (chip : Nat) (contents : ByteArray) : Store :=
  ⟨store.chips.modify chip fun _ ↦ contents⟩

/-- Overwrites a chip with `start`, `start + step`, … modulo 256. -/
def fill (store : Store) (chip : Nat) (start step : UInt8) : Store :=
  store.replace chip <|
    ⟨Array.ofFn (n := store.size chip) fun i ↦ start + step * UInt8.ofNat i⟩

end Store

end Vcs
