import Mathlib.Logic.Function.Basic
import Mathlib.Tactic.SplitIfs
import Vcs.Memory.PageTable

/-!
# Page Tables over Shared Memory

A page table is copied by value, but the chips that its pages map are not: what is stored through one table, or
through a handle on the chip, is seen through all of them, also through a copy that has been set aside and is
restored later.  Here a past is told step by step, and what the tables and the memory are afterwards is told from
the past alone: which binding of a page still stands, and which byte was stored last.  Main statement: tables and
memory are what the past tells, so that a routed access depends on nothing else.

Bindings are those that the three constructors make, with the 64 bytes they map inside the chip.  A page that its
owner gives up is bound to nothing, also if another device had it before.  A byte stored beyond the end of a chip is
not part of any past.
-/

namespace Vcs

namespace Store

variable {store : Store} {chip offset other place : Nat}

theorem contents_modify {change : ByteArray → ByteArray} (hempty : change .empty = .empty) :
    (Store.mk (store.chips.modify chip change)).contents other =
      if chip = other then change (store.contents other) else store.contents other := by
  simp only [contents, Array.getD_eq_getD_getElem?, Array.getElem?_modify]
  split_ifs
  · cases store.chips[other]? with
    | none => exact hempty.symm
    | some bytes => rfl
  · rfl

theorem contents_write (value : UInt8) :
    (store.write chip offset value).contents other =
      if chip = other then put offset value (store.contents other) else store.contents other :=
  contents_modify rfl

theorem size_write (value : UInt8) : (store.write chip offset value).size other = store.size other := by
  rw [size, contents_write]
  split_ifs
  · exact size_put offset value _
  · rfl

theorem read_write_self (h : offset < store.size chip) (value : UInt8) :
    (store.write chip offset value).read chip offset = value := by
  rw [read_eq_contents, contents_write, if_pos rfl, getElem?_put_self, getElem?_pos _ offset h]
  rfl

theorem read_write_of_ne (h : ¬ (chip = other ∧ offset = place)) (value : UInt8) :
    (store.write chip offset value).read other place = store.read other place := by
  simp only [read_eq_contents, contents_write]
  split_ifs with hchip
  · rw [getElem?_put_of_ne fun hoffset ↦ h ⟨hchip, hoffset⟩]
  · rfl

/-- As many bytes as there were, from a source. -/
def refill (source : Nat → UInt8) (bytes : ByteArray) : ByteArray :=
  ⟨Array.ofFn (n := bytes.size) fun i ↦ source i⟩

@[simp]
theorem size_refill (source : Nat → UInt8) (bytes : ByteArray) :
    (refill source bytes).size = bytes.size :=
  Array.size_ofFn

theorem getElem?_refill (source : Nat → UInt8) (bytes : ByteArray) :
    (refill source bytes)[offset]? = bytes[offset]?.map fun _ ↦ source offset := by
  by_cases h : offset < bytes.size
  · rw [getElem?_pos bytes offset h, getElem?_pos _ offset (by rwa [size_refill])]
    exact congrArg some (Array.getElem_ofFn _)
  · rw [getElem?_neg bytes offset h, getElem?_neg _ offset (by rwa [size_refill])]
    rfl

/-- Overwrites every byte of a chip, in order, with what a source gives. -/
def fillWith (store : Store) (chip : Nat) (source : Nat → UInt8) : Store :=
  ⟨store.chips.modify chip (refill source)⟩

theorem contents_fillWith (source : Nat → UInt8) :
    (store.fillWith chip source).contents other =
      if chip = other then refill source (store.contents other) else store.contents other :=
  contents_modify rfl

/-- The source that goes up by one step from byte to byte. -/
theorem fill_eq_fillWith (start step : UInt8) :
    store.fill chip start step = store.fillWith chip fun i ↦ start + step * UInt8.ofNat i := by
  refine congrArg Store.mk (Array.ext_getElem? fun i ↦ ?_)
  simp only [Array.getElem?_modify]
  split_ifs with hchip
  · subst hchip
    rcases hbytes : store.chips[chip]? with _ | bytes
    · rfl
    · have hsize : store.size chip = bytes.size := by
        rw [size, contents, Array.getD_eq_getD_getElem?, hbytes, Option.getD_some]
      rw [Option.map_some, Option.map_some, hsize]
      rfl
  · rfl

theorem size_fillWith (source : Nat → UInt8) :
    (store.fillWith chip source).size other = store.size other := by
  rw [size, contents_fillWith]
  split_ifs
  · exact size_refill source _
  · rfl

theorem read_fillWith_self (h : offset < store.size chip) (source : Nat → UInt8) :
    (store.fillWith chip source).read chip offset = source offset := by
  rw [read_eq_contents, contents_fillWith, if_pos rfl, getElem?_refill, getElem?_pos _ offset h]
  rfl

theorem read_fillWith_of_not (h : ¬ (chip = other ∧ offset < store.size other))
    (source : Nat → UInt8) :
    (store.fillWith chip source).read other offset = store.read other offset := by
  simp only [read_eq_contents, contents_fillWith]
  split_ifs with hchip
  · have hend : ¬ offset < (store.contents other).size := fun hlt ↦ h ⟨hchip, hlt⟩
    rw [getElem?_refill, getElem?_neg (store.contents other) offset hend]
    rfl
  · rfl

end Store

/-- The bindings that the constructors make, with the bytes they map inside the chip. -/
inductive Binding.MadeFor (store : Store) : Binding → Prop
  | device (owner : DeviceId) : MadeFor store (.device owner)
  | direct (owner : DeviceId) {chip base : Nat} (fits : base + 64 ≤ store.size chip) :
    MadeFor store (.direct owner chip base)
  | directRead (owner : DeviceId) {chip base : Nat} (fits : base + 64 ≤ store.size chip) :
    MadeFor store (.directRead owner chip base)

/-- A device that answers owns the page. -/
theorem Binding.MadeFor.owner {binding : Binding} {store : Store} (h : binding.MadeFor store)
    {id : DeviceId} (hasked : binding.read = .device id ∨ binding.write = .device id) :
    binding.owner = some id := by
  cases h with
  | device owner | direct owner | directRead owner =>
    rcases hasked with h | h <;> cases h <;> rfl

/-- The device that an access has to be forwarded to. -/
def Access.device? : Access → Option DeviceId
  | unmapped | direct .. => none
  | device id => some id

namespace PageTable

variable {table : PageTable} {store : Store} {address : UInt16} {value : UInt8} {chip base : Nat}

/-- The low thirteen lines tell the page and the position in it. -/
theorem pageOf_congr {address other : UInt16} (h : address.toNat % 8192 = other.toNat % 8192) :
    pageOf address = pageOf other ∧ offsetOf address = offsetOf other := by
  constructor
  · apply Fin.ext
    rw [val_pageOf, val_pageOf, h]
  · rw [offsetOf_eq, offsetOf_eq]
    omega

/-- A write that memory serves. -/
theorem routeWrite_of_direct (h : (table.binding (pageOf address)).write = .direct chip base) :
    table.routeWrite store address value =
      (none, store.write chip (base + address.toNat % 64) value) := by
  simp only [routeWrite, h, offsetOf_eq]

/-- A write that memory does not serve. -/
theorem routeWrite_of_not_direct
    (h : ∀ chip base, (table.binding (pageOf address)).write ≠ .direct chip base) :
    (table.routeWrite store address value).2 = store := by
  unfold routeWrite
  split
  · rfl
  · next chip base hdirect => exact absurd hdirect (h chip base)
  · rfl

theorem size_routeWrite (table : PageTable) (store : Store) (address : UInt16) :
    (table.routeWrite store address value).2.size chip = store.size chip := by
  by_cases h : ∃ chip base, (table.binding (pageOf address)).write = .direct chip base
  · obtain ⟨other, base, hdirect⟩ := h
    rw [routeWrite_of_direct hdirect]
    exact Store.size_write value
  · rw [routeWrite_of_not_direct fun other base hdirect ↦ h ⟨other, base, hdirect⟩]

theorem routeWrite_fst (table : PageTable) (store : Store) (address : UInt16) (value : UInt8) :
    (table.routeWrite store address value).1 =
      (table.binding (pageOf address)).write.device? := by
  unfold routeWrite
  split <;> simp only [*, Access.device?]

end PageTable

/-! ## What can happen -/

namespace Paging

/-- What can be done to one page table. -/
inductive Change (start : Store)
  | bind (page : Fin PageTable.pageCount) (binding : Binding) (made : binding.MadeFor start)
  | unbind (owner : DeviceId)

/-- What can be done to page tables and to the memory below them.  A handle on a chip is the number of the chip, and
tables have numbers of their own.  Cloning one of them into another both saves it and restores it, depending on which
of the two is used afterwards. -/
inductive Step (start : Store)
  | change (table : Nat) (change : Change start)
  | copy (target source : Nat)
  | set (chip offset : Nat) (value : UInt8) (inside : offset < start.size chip)
  | fill (chip : Nat) (source : Nat → UInt8)
  | read (table : Nat) (address : UInt16)
  | write (table : Nat) (address : UInt16) (value : UInt8)

/-- Page tables side by side, over the same memory. -/
structure State where
  tables : Nat → PageTable
  store : Store

variable {start : Store}

def Change.apply (table : PageTable) : Change start → PageTable
  | bind page binding _ => table.bind page binding
  | unbind owner => table.unbind owner

namespace State

def apply (m : State) : Step start → State
  | .change table change =>
    { m with tables := Function.update m.tables table (change.apply (m.tables table)) }
  | .copy target source => { m with tables := Function.update m.tables target (m.tables source) }
  | .set chip offset value _ => { m with store := m.store.write chip offset value }
  | .fill chip source => { m with store := m.store.fillWith chip source }
  | .read _ _ => m
  | .write table address value =>
    { m with store := ((m.tables table).routeWrite m.store address value).2 }

/-- What a past leads to.  Its last step comes first, and it begins with tables that map nothing. -/
def after : List (Step start) → State
  | [] => ⟨fun _ ↦ .empty, start⟩
  | step :: past => (after past).apply step

end State

/-- The first choice, if there is one, and otherwise the second. -/
def OrElse {α : Type} (first : α → Prop) (second a : α) : Prop :=
  first a ∨ (∀ other, ¬ first other) ∧ a = second

theorem eq_iff_orElse {α : Type} {first : α → Prop} {actual second : α}
    (hfirst : ∀ a, first a → actual = a) (hsecond : (∀ a, ¬ first a) → actual = second) (a : α) :
    actual = a ↔ OrElse first second a := by
  constructor
  · rintro rfl
    by_cases hany : ∃ a, first a
    · obtain ⟨a, ha⟩ := hany
      exact .inl (hfirst a ha ▸ ha)
    · exact .inr ⟨not_exists.mp hany, hsecond (not_exists.mp hany)⟩
  · rintro (ha | ⟨hnone, rfl⟩)
    · exact hfirst a ha
    · exact hsecond hnone

/-- The changes that led to a table, the last one first.  A copied table has those of its source. -/
def changes : List (Step start) → Nat → List (Change start)
  | [], _ => []
  | .change other change :: past, table =>
    if other = table then change :: changes past table else changes past table
  | .copy target source :: past, table =>
    if target = table then changes past source else changes past table
  | .set .. :: past, table | .fill .. :: past, table | .read .. :: past, table
  | .write .. :: past, table => changes past table

/-- The change takes the binding off its page. -/
def Change.Removes (page : Fin PageTable.pageCount) (binding : Binding) :
    Change start → Prop
  | bind other _ _ => other = page
  | unbind owner => binding.owner = some owner

/-- The page was bound this way, and has not been bound again or given up by the owner since. -/
def Stands (list : List (Change start)) (page : Fin PageTable.pageCount) (binding : Binding) :
    Prop :=
  ∃ later made earlier, list = later ++ .bind page binding made :: earlier ∧
    ∀ change ∈ later, ¬ change.Removes page binding

/-- The binding of a page: the one that still stands, or else nothing. -/
def BoundBy (past : List (Step start)) (table : Nat) (page : Fin PageTable.pageCount) :
    Binding → Prop :=
  OrElse (Stands (changes past table) page) {}

/-- After this past the step stores a byte at an offset of a chip. -/
inductive Stores (past : List (Step start)) : Step start → Nat → Nat → UInt8 → Prop
  | set {chip offset : Nat} {value : UInt8} (inside : offset < start.size chip) :
    Stores past (.set chip offset value inside) chip offset value
  | fill {chip offset : Nat} (source : Nat → UInt8) (inside : offset < start.size chip) :
    Stores past (.fill chip source) chip offset (source offset)
  | write {table chip base : Nat} {address : UInt16} {binding : Binding} (value : UInt8)
    (bound : BoundBy past table (PageTable.pageOf address) binding)
    (direct : binding.write = .direct chip base) :
    Stores past (.write table address value) chip (base + address.toNat % 64) value

/-- The byte was stored there, and no other one since. -/
def LastStored (past : List (Step start)) (chip offset : Nat) (value : UInt8) : Prop :=
  ∃ later step earlier, past = later ++ step :: earlier ∧ Stores earlier step chip offset value ∧
    ∀ newer next older, later = newer ++ next :: older → ∀ other,
      ¬ Stores (older ++ step :: earlier) next chip offset other

/-- The byte that memory holds: the one stored last, or else the one it began with. -/
def HeldBy (past : List (Step start)) (chip offset : Nat) : UInt8 → Prop :=
  OrElse (LastStored past chip offset) (start.read chip offset)

section Bindings

variable {list : List (Change start)} {page : Fin PageTable.pageCount} {binding : Binding}

theorem Stands.made : Stands list page binding → binding.MadeFor start := by
  rintro ⟨later, made, earlier, -, -⟩
  exact made

theorem not_stands_nil : ¬ Stands ([] : List (Change start)) page binding := by
  rintro ⟨later, made, earlier, hlist, -⟩
  exact absurd hlist (by simp)

/-- What stands after one more change. -/
theorem stands_cons {change : Change start} :
    Stands (change :: list) page binding ↔
      (∃ made, change = .bind page binding made) ∨
        Stands list page binding ∧ ¬ change.Removes page binding := by
  constructor
  · rintro ⟨later, made, earlier, hlist, hlater⟩
    rcases List.cons_eq_append_iff.mp hlist with ⟨rfl, hhead⟩ | ⟨rest, rfl, hrest⟩
    · exact .inl ⟨made, (List.cons.inj hhead).1.symm⟩
    · obtain ⟨hchange, hlater⟩ := List.forall_mem_cons.mp hlater
      exact .inr ⟨⟨rest, made, earlier, hrest, hlater⟩, hchange⟩
  · rintro (⟨made, rfl⟩ | ⟨⟨later, made, earlier, rfl, hlater⟩, hchange⟩)
    · exact ⟨[], made, list, rfl, List.forall_mem_nil _⟩
    · exact ⟨change :: later, made, earlier, rfl, List.forall_mem_cons.mpr ⟨hchange, hlater⟩⟩

/-- What a table is after the changes that led to it. -/
def tableAfter (list : List (Change start)) : PageTable :=
  list.foldr (fun change table ↦ change.apply table) .empty

theorem tables_after (past : List (Step start)) (table : Nat) :
    (State.after past).tables table = tableAfter (changes past table) := by
  induction past generalizing table with
  | nil => rfl
  | cons step past ih =>
    cases step with
    | change other change =>
      simp only [State.after, State.apply, changes, Function.update_apply, eq_comm (a := table)]
      split_ifs with h
      · subst h
        exact congrArg change.apply (ih other)
      · exact ih table
    | copy target source =>
      simp only [State.after, State.apply, changes, Function.update_apply, eq_comm (a := table)]
      split_ifs
      · exact ih source
      · exact ih table
    | set | fill | read | write => exact ih table

/-- The table has the bindings that stand, and no others. -/
theorem binding_tableAfter (list : List (Change start)) (page : Fin PageTable.pageCount) :
    (∀ binding, Stands list page binding → (tableAfter list).binding page = binding) ∧
      ((∀ binding, ¬ Stands list page binding) → (tableAfter list).binding page = {}) := by
  induction list with
  | nil => exact ⟨fun _ h ↦ absurd h not_stands_nil, fun _ ↦ PageTable.binding_empty page⟩
  | cons change list ih =>
    obtain ⟨hstands, hnone⟩ := ih
    simp only [stands_cons]
    cases change with
    | bind other bound made =>
      by_cases hother : other = page
      · subst hother
        have hself : (tableAfter (.bind other bound made :: list)).binding other = bound :=
          PageTable.binding_bind_self _ other bound
        rw [hself]
        constructor
        · rintro binding (⟨_, heq⟩ | ⟨-, hkept⟩)
          · exact (Change.bind.inj heq).2
          · exact absurd rfl hkept
        · intro h
          exact absurd (.inl ⟨made, rfl⟩) (h bound)
      · have hkeep : (tableAfter (.bind other bound made :: list)).binding page =
            (tableAfter list).binding page :=
          PageTable.binding_bind_of_ne _ bound (Ne.symm hother)
        rw [hkeep]
        constructor
        · rintro binding (⟨_, heq⟩ | ⟨hbinding, -⟩)
          · exact absurd (Change.bind.inj heq).1 hother
          · exact hstands binding hbinding
        · intro h
          exact hnone fun binding hbinding ↦ h binding (.inr ⟨hbinding, hother⟩)
    | unbind owner =>
      have hunbind : (tableAfter (.unbind owner :: list)).binding page =
          if ((tableAfter list).binding page).owner = some owner then {}
          else (tableAfter list).binding page :=
        PageTable.binding_unbind _ owner page
      rw [hunbind]
      constructor
      · rintro binding (⟨_, heq⟩ | ⟨hbinding, hkept⟩)
        · cases heq
        · rw [hstands binding hbinding]
          exact if_neg hkept
      · -- Nothing stands if nothing stood before, or if what stood was the owner's that gives up its pages.
        intro h
        by_cases hany : ∃ binding, Stands list page binding
        · obtain ⟨binding, hbinding⟩ := hany
          rw [hstands binding hbinding, if_pos]
          by_contra hkept
          exact h binding (.inr ⟨hbinding, hkept⟩)
        · rw [hnone (not_exists.mp hany), if_neg nofun]

/-- A page is bound as the past tells. -/
theorem binding_after (past : List (Step start)) (table : Nat) (page : Fin PageTable.pageCount)
    (binding : Binding) :
    ((State.after past).tables table).binding page = binding ↔
      BoundBy past table page binding := by
  obtain ⟨hstands, hnone⟩ := binding_tableAfter (changes past table) page
  rw [tables_after]
  exact eq_iff_orElse hstands hnone binding

end Bindings

section Bytes

variable {past : List (Step start)} {step : Step start} {chip offset : Nat}
  {value : UInt8}

theorem not_lastStored_nil : ¬ LastStored ([] : List (Step start)) chip offset value := by
  rintro ⟨later, step, earlier, hpast, -⟩
  exact absurd hpast (by simp)

/-- What was stored last after one more step. -/
theorem lastStored_cons :
    LastStored (step :: past) chip offset value ↔
      Stores past step chip offset value ∨
        LastStored past chip offset value ∧ ∀ other, ¬ Stores past step chip offset other := by
  constructor
  · rintro ⟨later, stored, earlier, hpast, hstores, hsince⟩
    rcases List.cons_eq_append_iff.mp hpast with ⟨rfl, hhead⟩ | ⟨rest, rfl, rfl⟩
    · obtain ⟨rfl, rfl⟩ := List.cons.inj hhead
      exact .inl hstores
    · refine .inr ⟨⟨rest, stored, earlier, rfl, hstores, ?_⟩, hsince [] step rest rfl⟩
      rintro newer next older rfl
      exact hsince (step :: newer) next older rfl
  · rintro (hstores | ⟨⟨later, stored, earlier, rfl, hstores, hsince⟩, hstep⟩)
    · exact ⟨[], step, past, rfl, hstores, fun newer next older h ↦ absurd h (by simp)⟩
    · refine ⟨step :: later, stored, earlier, rfl, hstores, ?_⟩
      intro newer next older hlater
      rcases List.cons_eq_append_iff.mp hlater with ⟨rfl, hhead⟩ | ⟨rest, rfl, hrest⟩
      · obtain ⟨rfl, rfl⟩ := List.cons.inj hhead
        exact hstep
      · exact hsince rest next older hrest

theorem BoundBy.made {table : Nat} {page : Fin PageTable.pageCount} {binding : Binding}
    (h : BoundBy past table page binding) : binding = {} ∨ binding.MadeFor start :=
  h.elim (fun hstands ↦ .inr hstands.made) fun hnone ↦ .inl hnone.2

/-- What a page maps for writes lies inside the chip. -/
theorem BoundBy.fits {table base : Nat} {page : Fin PageTable.pageCount} {binding : Binding}
    (h : BoundBy past table page binding) (hdirect : binding.write = .direct chip base) :
    base + 64 ≤ start.size chip := by
  rcases h.made with rfl | hmade
  · cases hdirect
  · cases hmade with
    | device | directRead => cases hdirect
    | direct owner fits =>
      obtain ⟨rfl, rfl⟩ := Access.direct.inj hdirect
      exact fits

theorem size_after (past : List (Step start)) (chip : Nat) :
    (State.after past).store.size chip = start.size chip := by
  induction past with
  | nil => rfl
  | cons step past ih =>
    rw [← ih]
    cases step with
    | change | copy | read => rfl
    | set other offset value inside => exact Store.size_write value
    | fill other source => exact Store.size_fillWith source
    | write table address value => exact PageTable.size_routeWrite _ _ address

/-- What one step does to a byte: it stores the byte, or leaves it. -/
theorem read_cons (past : List (Step start)) (step : Step start) (chip offset : Nat) :
    (∀ value, Stores past step chip offset value →
      (State.after (step :: past)).store.read chip offset = value) ∧
    ((∀ value, ¬ Stores past step chip offset value) →
      (State.after (step :: past)).store.read chip offset =
        (State.after past).store.read chip offset) := by
  have hsize := size_after past chip
  constructor
  · intro value h
    cases h with
    | set inside => exact Store.read_write_self (hsize ▸ inside) value
    | fill source inside => exact Store.read_fillWith_self (hsize ▸ inside) source
    | @write table _ base address binding _ bound direct =>
      have hfits := bound.fits direct
      rw [← binding_after] at bound
      simp only [State.after, State.apply, PageTable.routeWrite_of_direct (bound ▸ direct)]
      exact Store.read_write_self (by omega) value
  · intro h
    cases step with
    | change | copy | read => rfl
    | set other place value inside =>
      refine Store.read_write_of_ne ?_ value
      rintro ⟨rfl, rfl⟩
      exact h value (.set inside)
    | fill other source =>
      refine Store.read_fillWith_of_not ?_ source
      rintro ⟨rfl, hinside⟩
      exact h _ (.fill source (hsize ▸ hinside))
    | write table address value =>
      have hbound := (binding_after past table (PageTable.pageOf address) _).mp rfl
      simp only [State.after, State.apply]
      by_cases hany : ∃ other base, (((State.after past).tables table).binding
          (PageTable.pageOf address)).write = .direct other base
      · obtain ⟨other, base, hdirect⟩ := hany
        rw [PageTable.routeWrite_of_direct hdirect]
        refine Store.read_write_of_ne ?_ value
        rintro ⟨rfl, rfl⟩
        exact h value (.write value hbound hdirect)
      · rw [PageTable.routeWrite_of_not_direct fun other base hdirect ↦ hany ⟨other, base, hdirect⟩]

/-- Memory holds the bytes that were stored last, and elsewhere those it began with. -/
theorem read_after (past : List (Step start)) (chip offset : Nat) :
    (∀ value, LastStored past chip offset value →
      (State.after past).store.read chip offset = value) ∧
    ((∀ value, ¬ LastStored past chip offset value) →
      (State.after past).store.read chip offset = start.read chip offset) := by
  induction past with
  | nil => exact ⟨fun _ h ↦ absurd h not_lastStored_nil, fun _ ↦ rfl⟩
  | cons step past ih =>
    obtain ⟨hlast, hnever⟩ := ih
    obtain ⟨hstored, hkept⟩ := read_cons past step chip offset
    simp only [lastStored_cons]
    constructor
    · rintro value (hvalue | ⟨hvalue, hstep⟩)
      · exact hstored value hvalue
      · exact (hkept hstep).trans (hlast value hvalue)
    · intro h
      have hstep : ∀ value, ¬ Stores past step chip offset value := fun value hvalue ↦
        h value (.inl hvalue)
      exact (hkept hstep).trans (hnever fun value hvalue ↦ h value (.inr ⟨hvalue, hstep⟩))

end Bytes

/-- The answer to a routed read, by the binding of the page and by the past alone. -/
inductive Answers (past : List (Step start)) : Access → Nat → Routed → Prop
  | unmapped (position : Nat) : Answers past .unmapped position (.data 0)
  | direct {chip base position : Nat} {value : UInt8}
    (held : HeldBy past chip (base + position) value) :
    Answers past (.direct chip base) position (.data value)
  | device (id : DeviceId) (position : Nat) : Answers past (.device id) position (.device id)

/-- Tables and memory are what the past tells, and so is what becomes of a routed access. -/
structure Obeys (past : List (Step start)) (m : State) : Prop where
  bindings : ∀ table page binding,
    (m.tables table).binding page = binding ↔ BoundBy past table page binding
  bytes : ∀ chip offset value, m.store.read chip offset = value ↔ HeldBy past chip offset value
  /-- Only the low thirteen lines of an address are connected. -/
  lines : ∀ address other : UInt16, address.toNat % 8192 = other.toNat % 8192 →
    ∀ table, (m.tables table).routeRead m.store address = (m.tables table).routeRead m.store other ∧
      ∀ value, (m.tables table).routeWrite m.store address value =
        (m.tables table).routeWrite m.store other value
  reads : ∀ table address answer, (m.tables table).routeRead m.store address = answer ↔
    ∃ binding, BoundBy past table (PageTable.pageOf address) binding ∧
      Answers past binding.read (address.toNat % 64) answer
  writes : ∀ table address value device,
    ((m.tables table).routeWrite m.store address value).1 = device ↔
      ∃ binding, BoundBy past table (PageTable.pageOf address) binding ∧
        binding.write.device? = device
  /-- What memory does not serve leaves memory alone. -/
  unserved : ∀ table address binding, BoundBy past table (PageTable.pageOf address) binding →
    (∀ chip base, binding.write ≠ .direct chip base) →
      ∀ value, ((m.tables table).routeWrite m.store address value).2 = m.store

theorem routeRead_eq_iff (past : List (Step start)) (table : Nat) (address : UInt16)
    (answer : Routed) :
    ((State.after past).tables table).routeRead (State.after past).store address =
        answer ↔
      Answers past
        (((State.after past).tables table).binding (PageTable.pageOf address)).read
        (address.toNat % 64) answer := by
  unfold PageTable.routeRead
  rcases (((State.after past).tables table).binding (PageTable.pageOf address)).read
    with _ | ⟨chip, base⟩ | id
  · exact ⟨fun h ↦ h ▸ .unmapped _, fun h ↦ by cases h; rfl⟩
  · simp only [PageTable.offsetOf_eq]
    obtain ⟨hlast, hnever⟩ := read_after past chip (base + address.toNat % 64)
    have hheld := eq_iff_orElse hlast hnever
    constructor
    · rintro rfl
      exact .direct ((hheld _).mp rfl)
    · intro h
      cases h with
      | direct held => rw [(hheld _).mpr held]
  · exact ⟨fun h ↦ h ▸ .device id _, fun h ↦ by cases h; rfl⟩

theorem exists_boundBy_iff (past : List (Step start)) (table : Nat)
    (page : Fin PageTable.pageCount) (p : Binding → Prop) :
    (∃ binding, BoundBy past table page binding ∧ p binding) ↔
      p (((State.after past).tables table).binding page) := by
  simp only [← binding_after, exists_eq_left']

theorem obeys_after (past : List (Step start)) : Obeys past (State.after past) where
  bindings := binding_after past
  bytes chip offset := eq_iff_orElse (read_after past chip offset).1 (read_after past chip offset).2
  lines address other h table := by
    obtain ⟨hpage, hoffset⟩ := PageTable.pageOf_congr h
    simp only [PageTable.routeRead, PageTable.routeWrite, hpage, hoffset, true_and, implies_true]
  reads table address answer :=
    (routeRead_eq_iff past table address answer).trans
      (exists_boundBy_iff past table _ fun binding ↦ Answers past binding.read _ answer).symm
  writes table address value device := by
    rw [PageTable.routeWrite_fst]
    exact (exists_boundBy_iff past table _ fun binding ↦ binding.write.device? = device).symm
  unserved table address binding hbound h value :=
    PageTable.routeWrite_of_not_direct ((binding_after past table _ _).mpr hbound ▸ h)

/-! ## What is left alone -/

/-- The step is none of those that can store a byte. -/
def Step.IsPaging : Step start → Prop
  | .change .. | .copy .. => True
  | .set .. | .fill .. | .read .. | .write .. => False

/-- The step may give the page of the table another binding. -/
def Step.Rebinds (past : List (Step start)) (table : Nat)
    (page : Fin PageTable.pageCount) : Step start → Prop
  | .change other edit =>
    other = table ∧ ∃ binding, BoundBy past table page binding ∧ edit.Removes page binding
  | .copy target _ => target = table
  | .set .. | .fill .. | .read .. | .write .. => False

/-- The step may let a table route to a device that the table has released. -/
def Step.Readmits (table : Nat) (id : DeviceId) : Step start → Prop
  | .change other (.bind _ binding _) => other = table ∧ binding.owner = some id
  | .copy target _ => target = table
  | .change _ (.unbind _) | .set .. | .fill .. | .read .. | .write .. => False

theorem store_of_isPaging {past : List (Step start)} {step : Step start}
    (h : step.IsPaging) :
    (State.after (step :: past)).store = (State.after past).store := by
  cases step with
  | change | copy => rfl
  | set | fill | read | write => exact h.elim

theorem binding_cons_of_not_rebinds {past : List (Step start)} {step : Step start}
    {table : Nat} {page : Fin PageTable.pageCount} (h : ¬ step.Rebinds past table page) :
    ((State.after (step :: past)).tables table).binding page =
      ((State.after past).tables table).binding page := by
  cases step with
  | set | fill | read | write => rfl
  | copy target source =>
    have hother : table ≠ target := fun heq ↦ h heq.symm
    simp only [State.after, State.apply, Function.update_of_ne hother]
  | change other change =>
    by_cases hother : other = table
    · subst hother
      have hkept : ¬ change.Removes page (((State.after past).tables other).binding page) :=
        fun hremoves ↦ h ⟨rfl, _, (binding_after past other page _).mp rfl, hremoves⟩
      simp only [State.after, State.apply, Function.update_self]
      cases change with
      | bind bound binding made => exact PageTable.binding_bind_of_ne _ binding (Ne.symm hkept)
      | unbind owner => exact (PageTable.binding_unbind _ owner page).trans (if_neg hkept)
    · simp only [State.after, State.apply, Function.update_of_ne (Ne.symm hother)]

/-- What has been released does not stand until it is bound again. -/
theorem owner_ne_of_released {past later : List (Step start)} {table : Nat} {id : DeviceId}
    (hlater : ∀ step ∈ later, ¬ step.Readmits table id) {page : Fin PageTable.pageCount}
    {binding : Binding}
    (h : Stands (changes (later ++ .change table (.unbind id) :: past) table) page binding) :
    binding.owner ≠ some id := by
  induction later generalizing binding with
  | nil =>
    simp only [List.nil_append, changes, if_pos, stands_cons] at h
    rcases h with ⟨_, heq⟩ | ⟨-, hkept⟩
    · cases heq
    · exact hkept
  | cons step later ih =>
    obtain ⟨hstep, hrest⟩ := List.forall_mem_cons.mp hlater
    cases step with
    | set | fill | read | write => exact ih hrest h
    | copy target source =>
      simp only [List.cons_append, changes, if_neg (show ¬ target = table from hstep)] at h
      exact ih hrest h
    | change other change =>
      simp only [List.cons_append, changes] at h
      split_ifs at h with hother
      · rcases stands_cons.mp h with ⟨made, rfl⟩ | ⟨hstands, -⟩
        · exact fun howner ↦ hstep ⟨hother, howner⟩
        · exact ih hrest hstands
      · exact ih hrest h

theorem BoundBy.not_asked_of_released {past later : List (Step start)} {table : Nat}
    {id : DeviceId} (hlater : ∀ step ∈ later, ¬ step.Readmits table id)
    {page : Fin PageTable.pageCount} {binding : Binding}
    (h : BoundBy (later ++ .change table (.unbind id) :: past) table page binding) :
    ¬ (binding.read = .device id ∨ binding.write = .device id) := by
  rcases h with hstands | ⟨-, rfl⟩
  · exact fun hasked ↦ owner_ne_of_released hlater hstands (hstands.made.owner hasked)
  · exact fun hasked ↦ hasked.elim nofun nofun

/-- Page tables over shared memory, whatever has happened to them.  Every page of every table is bound as its last
binding told that its owner has not given up since, in the table that was copied there last; memory holds what was
stored last, by whatever way; and routed accesses depend on nothing else, and on the low thirteen lines of their
address.  Changing and copying tables leaves memory alone, and the bindings of all other pages.  A table that is
copied has the same bindings as its source.  What a table has released it does not route to before it binds a page
for that owner again, or another table is copied over it. -/
theorem routing_of_past (past : List (Step start)) :
    Obeys past (State.after past) ∧
    (∀ step : Step start, step.IsPaging →
      (State.after (step :: past)).store = (State.after past).store) ∧
    (∀ (step : Step start) table page, ¬ step.Rebinds past table page →
      ((State.after (step :: past)).tables table).binding page =
        ((State.after past).tables table).binding page) ∧
    (∀ target source, (State.after (.copy target source :: past)).tables target =
      (State.after past).tables source) ∧
    ∀ table id later, (∀ step ∈ later, ¬ step.Readmits table id) →
      let m := State.after (later ++ .change table (.unbind id) :: past)
      ∀ address, (m.tables table).routeRead m.store address ≠ .device id ∧
        ∀ value, ((m.tables table).routeWrite m.store address value).1 ≠ some id := by
  refine ⟨obeys_after past, fun step ↦ store_of_isPaging, fun step table page ↦
    binding_cons_of_not_rebinds, fun target source ↦ ?_, ?_⟩
  · exact Function.update_self target _ _
  · intro table id later hlater m address
    have hobeys := obeys_after (later ++ .change table (.unbind id) :: past)
    constructor
    · intro hread
      obtain ⟨binding, hbound, hanswer⟩ := (hobeys.reads table address _).mp hread
      generalize hserved : binding.read = served at hanswer
      cases hanswer
      exact hbound.not_asked_of_released hlater (.inl hserved)
    · intro value hwrite
      obtain ⟨binding, hbound, hasked⟩ := (hobeys.writes table address value _).mp hwrite
      rcases hserved : binding.write with _ | ⟨chip, base⟩ | other
      · rw [hserved] at hasked
        cases hasked
      · rw [hserved] at hasked
        cases hasked
      · rw [hserved] at hasked
        cases hasked
        exact hbound.not_asked_of_released hlater (.inr hserved)

/-- A byte written through a table is read through an older copy of it that is restored later. -/
example :
    let start : Store := ⟨#[⟨.replicate 64 0⟩]⟩
    let past : List (Step start) :=
      [.copy 0 1, .change 0 (.unbind ⟨1⟩), .write 0 0x2005 7, .copy 1 0,
        .change 0 (.bind 0 (.direct ⟨1⟩ 0 0) (.direct ⟨1⟩ (by decide)))]
    let m := State.after past
    (m.tables 0).routeRead m.store 0x0005 = .data 7 := by
  decide +kernel

end Paging

end Vcs
