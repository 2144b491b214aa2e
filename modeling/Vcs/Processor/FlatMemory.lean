import Vcs.Memory.Store
import Vcs.Processor.Bus

/-!
# Flat Memory

The simplest system a processor can drive: 64 KiB of memory without devices, which counts the cycles it is
told about, can keep a record of every access and can ask for a stop at a given cycle.
-/

namespace Vcs

/-- Direction of an access. -/
inductive Direction where
  | read
  | write
  deriving DecidableEq, Repr

/-- One access: the cycles elapsed by then, the address and the byte transferred. -/
structure Transfer where
  cycle : Nat
  direction : Direction
  address : UInt16
  value : UInt8
  deriving DecidableEq, Repr

/-- Sixty-four KiB of memory and nothing else. -/
structure FlatMemory where
  bytes : ByteArray
  latched : UInt8 := 0
  cycles : Nat := 0
  /-- A stop is requested once this many cycles have elapsed. -/
  stopAt : Option Nat := none
  /-- Whether accesses are recorded. -/
  tracing : Bool := false
  transfers : Array Transfer := #[]

namespace FlatMemory

/-- Memory full of zeros. -/
def blank : FlatMemory where
  bytes := ⟨.replicate 0x10000 0⟩

theorem size_blank : blank.bytes.size = 0x10000 := by
  simp [blank, ByteArray.size]

/-- The byte at an address. -/
@[inline]
def get (memory : FlatMemory) (address : UInt16) : UInt8 :=
  memory.bytes.get! address.toNat

/-- Replaces the byte at an address. -/
@[inline]
def put (memory : FlatMemory) (address : UInt16) (value : UInt8) : FlatMemory :=
  { memory with bytes := Store.put address.toNat value memory.bytes }

theorem get_eq (memory : FlatMemory) (address : UInt16) :
    memory.get address = memory.bytes[address.toNat]?.getD 0 := by
  change memory.bytes.data[address.toNat]! = memory.bytes.data[address.toNat]?.getD 0
  exact getElem!_def ..

theorem get_put_self {memory : FlatMemory} {address : UInt16}
    (h : address.toNat < memory.bytes.size) (value : UInt8) :
    (memory.put address value).get address = value := by
  rw [get_eq, put, Store.getElem?_put_self, getElem?_pos memory.bytes _ h]
  rfl

theorem get_put_of_ne {address other : UInt16} (h : address ≠ other) (memory : FlatMemory)
    (value : UInt8) : (memory.put address value).get other = memory.get other := by
  rw [get_eq, get_eq, put, Store.getElem?_put_of_ne (mt UInt16.toNat_inj.mp h)]

/-- Writes bytes from an address on, wrapping at the end of memory. -/
def load (memory : FlatMemory) (address : UInt16) (data : ByteArray) : FlatMemory :=
  (data.foldl (fun (at_, memory) value ↦ (at_ + 1, put memory at_ value)) (address, memory)).2

/-- The `count` bytes from an address on, wrapping at the end of memory. -/
def dump (memory : FlatMemory) (address : UInt16) (count : Nat) : ByteArray :=
  ⟨.ofFn (n := count) fun i ↦ memory.get (address + UInt16.ofNat i)⟩

/-- Adds an access to the record. -/
@[inline]
def note (memory : FlatMemory) (direction : Direction) (address : UInt16) (value : UInt8) :
    FlatMemory :=
  if memory.tracing then
    { memory with
      transfers := memory.transfers.push ⟨memory.cycles, direction, address, value⟩ }
  else memory

@[simp]
theorem bytes_note (memory : FlatMemory) (direction : Direction) (address : UInt16)
    (value : UInt8) : (memory.note direction address value).bytes = memory.bytes := by
  unfold note
  split <;> rfl

instance : Bus FlatMemory where
  read address memory :=
    let value := memory.get address
    { memory.note .read address value with latched := value }
  write address value memory :=
    { (memory.note .write address value).put address value with latched := value }
  latch memory := memory.latched
  elapse cycles memory := { memory with cycles := memory.cycles + cycles }
  stopRequested memory :=
    match memory.stopAt with
    | none => false
    | some limit => limit ≤ memory.cycles

end FlatMemory

end Vcs
