import Vcs.Memory.Store

/-!
# Page Table

Thirteen address lines leave the processor.  The 8 KiB they span are split into 128 pages of 64 bytes,
and every page has one way to serve reads and one to serve writes: nothing, a stretch of a memory chip,
or a device that must be asked.  A routed access depends only on the low thirteen bits of its address
and on the binding of the page they name.
-/

namespace Vcs

/-- A device on the bus. -/
structure DeviceId where
  number : UInt8
  deriving DecidableEq, Repr, Inhabited

/-- How one direction of a page is served. -/
inductive Access where
  /-- Nothing answers: reads see zero and writes vanish. -/
  | unmapped
  /-- Sixty-four bytes of a memory chip, starting at `base`. -/
  | direct (chip base : Nat)
  /-- The device's own handler. -/
  | device (id : DeviceId)
  deriving DecidableEq, Repr, Inhabited

/-- What a page is bound to. -/
structure Binding where
  /-- The device that claimed the page; releasing a device goes by it. -/
  owner : Option DeviceId := none
  read : Access := .unmapped
  write : Access := .unmapped
  deriving DecidableEq, Repr, Inhabited

namespace Binding

/-- Both directions handled by the device. -/
def device (owner : DeviceId) : Binding where
  owner := some owner
  read := .device owner
  write := .device owner

/-- Both directions served by memory. -/
def direct (owner : DeviceId) (chip base : Nat) : Binding where
  owner := some owner
  read := .direct chip base
  write := .direct chip base

/-- Reads served by memory, writes handled by the device. -/
def directRead (owner : DeviceId) (chip base : Nat) : Binding where
  owner := some owner
  read := .direct chip base
  write := .device owner

end Binding

/-- The outcome of decoding a read. -/
inductive Routed where
  /-- The byte is known without asking a device. -/
  | data (value : UInt8)
  /-- This device has to answer. -/
  | device (id : DeviceId)
  deriving DecidableEq, Repr

/-- Bindings of all 128 pages. -/
structure PageTable where
  pages : Vector Binding 128

namespace PageTable

/-- Number of pages. -/
abbrev pageCount : Nat := 128

/-- Address of the first byte of a page. -/
def addressOf (page : Fin pageCount) : UInt16 :=
  UInt16.ofNat page <<< 6

/-- The page an address falls in. -/
@[inline]
def pageOf (address : UInt16) : Fin pageCount :=
  ⟨(address &&& 0x1FFF).toNat / 64, by
    have h : (address &&& 0x1FFF).toNat ≤ 0x1FFF := by
      simpa using @Nat.and_le_right address.toNat 0x1FFF
    unfold pageCount
    omega⟩

/-- Position of an address within its page. -/
@[inline]
def offsetOf (address : UInt16) : Nat :=
  (address &&& 0x3F).toNat

/-- Every page unmapped. -/
def empty : PageTable := ⟨.replicate pageCount {}⟩

/-- The binding of a page. -/
@[inline]
def binding (table : PageTable) (page : Fin pageCount) : Binding :=
  table.pages[page]

/-- Binds one page anew. -/
def bind (table : PageTable) (page : Fin pageCount) (binding : Binding) : PageTable :=
  ⟨table.pages.set page binding⟩

/-- Binds every page whose first address is accepted. -/
def bindWhere (table : PageTable) (binding : UInt16 → Option Binding) : PageTable :=
  ⟨.ofFn fun page ↦ (binding (addressOf page)).getD table.pages[page]⟩

/-- Returns every page of a device to the unmapped state. -/
def unbind (table : PageTable) (owner : DeviceId) : PageTable :=
  ⟨table.pages.map fun binding ↦ if binding.owner = some owner then {} else binding⟩

/-- Decodes a read. -/
@[inline]
def routeRead (table : PageTable) (store : Store) (address : UInt16) : Routed :=
  match (table.binding (pageOf address)).read with
  | .unmapped => .data 0
  | .direct chip base => .data (store.read chip (base + offsetOf address))
  | .device id => .device id

/-- Decodes a write and carries it out if memory serves it.  Otherwise the device that still has to
handle it is returned. -/
@[inline]
def routeWrite (table : PageTable) (store : Store) (address : UInt16) (value : UInt8) :
    Option DeviceId × Store :=
  match (table.binding (pageOf address)).write with
  | .unmapped => (none, store)
  | .direct chip base => (none, store.write chip (base + offsetOf address) value)
  | .device id => (some id, store)

@[simp]
theorem binding_bind_self (table : PageTable) (page : Fin pageCount) (b : Binding) :
    (table.bind page b).binding page = b := by
  simp [binding, bind]

theorem binding_bind_of_ne (table : PageTable) {page other : Fin pageCount} (b : Binding)
    (h : other ≠ page) : (table.bind page b).binding other = table.binding other := by
  have hne : (page : Nat) ≠ other := fun e ↦ h (Fin.ext e.symm)
  simp [binding, bind, hne]

@[simp]
theorem binding_unbind (table : PageTable) (owner : DeviceId) (page : Fin pageCount) :
    (table.unbind owner).binding page =
      if (table.binding page).owner = some owner then {} else table.binding page := by
  simp only [binding, unbind, Fin.getElem_fin, Vector.getElem_map]
  split <;> simp_all

theorem ext_binding {first second : PageTable}
    (h : ∀ page, first.binding page = second.binding page) : first = second := by
  have hpages : first.pages = second.pages := by
    apply Vector.ext
    intro i hi
    exact h ⟨i, hi⟩
  exact congrArg PageTable.mk hpages

@[simp]
theorem binding_empty (page : Fin pageCount) : empty.binding page = {} := by
  simp [binding, empty]

@[simp]
theorem binding_bindWhere (table : PageTable) (claim : UInt16 → Option Binding)
    (page : Fin pageCount) :
    (table.bindWhere claim).binding page =
      (claim (addressOf page)).getD (table.binding page) := by
  simp [binding, bindWhere]

theorem toNat_addressOf (page : Fin pageCount) : (addressOf page).toNat = 64 * page := by
  revert page
  decide

theorem val_pageOf (address : UInt16) : (pageOf address : Nat) = address.toNat % 8192 / 64 := by
  have hlines : (address &&& 0x1FFF).toNat = address.toNat % 8192 := by
    rw [UInt16.toNat_and]
    exact Nat.and_two_pow_sub_one_eq_mod address.toNat 13
  simp only [pageOf, hlines]

theorem offsetOf_eq (address : UInt16) : offsetOf address = address.toNat % 64 := by
  rw [offsetOf, UInt16.toNat_and]
  exact Nat.and_two_pow_sub_one_eq_mod address.toNat 6

/-- An address is the first one of its page and its offset there, on the thirteen lines that count. -/
theorem addressOf_pageOf_add (address : UInt16) :
    (addressOf (pageOf address)).toNat + offsetOf address = address.toNat % 8192 := by
  rw [toNat_addressOf, val_pageOf, offsetOf_eq]
  omega

end PageTable

end Vcs
