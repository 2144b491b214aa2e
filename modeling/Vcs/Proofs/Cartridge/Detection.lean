import Mathlib.Data.Nat.Count
import Vcs.Proofs.Cartridge.BankSwitching

/-!
# Detecting the Scheme

The scheme of a cartridge is guessed from its image: from the size, from whether the image is one half twice over,
and from the stores that programs of the 3F scheme select their slices with.  Main statement: an image is refused
for its size alone and exactly if no guess applies, so that what is guessed always fits the image.  Counting an
image made of two halves as one half of it does not show in any byte that the program reads, whatever it has done
before.  Under the 3F scheme every slice can be selected, and the upper half of the window shows the end of the
image.

Nothing is said about a guess being the one that the maker of the cartridge had in mind.
-/

namespace Vcs

namespace BankScheme

/-- The image begins with some bytes twice over. -/
def Doubled (image : ByteArray) (half : Nat) : Prop :=
  ∀ i < half, image[i]? = image[half + i]?

/-- At this offset the accumulator is stored to address `0x3F`. -/
def StoresAt (image : ByteArray) (offset : Nat) : Prop :=
  image[offset]? = some 0x85 ∧ image[offset + 1]? = some 0x3F

/-- The image looks like one of the 3F scheme. -/
def LooksSliced (image : ByteArray) : Prop :=
  2048 ∣ image.size ∧ 6144 ≤ image.size ∧ image.size ≤ 524288 ∧
    ∃ first second, first ≠ second ∧ StoresAt image first ∧ StoresAt image second

theorem getElem?_eq_some_get! {image : ByteArray} {i : Nat} (h : i < image.size) :
    image[i]? = some (image.get! i) := by
  rw [getElem?_pos image i h]
  exact congrArg some (getElem!_pos image.data i h).symm

theorem halvesEqual_iff {image : ByteArray} {half : Nat} (h : 2 * half ≤ image.size) :
    halvesEqual image half = true ↔ Doubled image half := by
  simp only [halvesEqual, List.all_eq_true, List.mem_range, beq_iff_eq, Doubled]
  refine forall₂_congr fun i hi ↦ ?_
  rw [getElem?_eq_some_get! (by omega), getElem?_eq_some_get! (by omega), Option.some.injEq]

theorem storesAt_iff {image : ByteArray} {offset : Nat} :
    StoresAt image offset ↔ offset < image.size - 1 ∧
      (image.get! offset == 0x85 && image.get! (offset + 1) == 0x3F) = true := by
  by_cases hinside : offset + 1 < image.size
  · rw [StoresAt, getElem?_eq_some_get! hinside, getElem?_eq_some_get! (Nat.lt_of_succ_lt hinside)]
    simp only [Option.some.injEq, Bool.and_eq_true, beq_iff_eq]
    exact ⟨fun h ↦ ⟨by omega, h⟩, And.right⟩
  · have hend : image[offset + 1]? = none := getElem?_neg image (offset + 1) hinside
    constructor
    · rintro ⟨-, hsecond⟩
      exact absurd (hend.symm.trans hsecond) nofun
    · rintro ⟨hlt, -⟩
      omega

/-- Counting to two is finding two places. -/
theorem two_le_storesTo3F_iff (image : ByteArray) :
    2 ≤ storesTo3F image ↔
      ∃ first second, first ≠ second ∧ StoresAt image first ∧ StoresAt image second := by
  have hcount : storesTo3F image = Nat.count
      (fun i ↦ (image.get! i == 0x85 && image.get! (i + 1) == 0x3F) = true) (image.size - 1) := by
    simp only [storesTo3F, Nat.count, Bool.decide_eq_true]
  rw [hcount, Nat.count_eq_card_filter_range, ← Nat.lt_iff_add_one_le, Finset.one_lt_card]
  simp only [Finset.mem_filter, Finset.mem_range, ← storesAt_iff]
  constructor
  · rintro ⟨first, hfirst, second, hsecond, hne⟩
    exact ⟨first, second, hne, hfirst, hsecond⟩
  · rintro ⟨first, second, hne, hfirst, hsecond⟩
    exact ⟨first, hfirst, second, hsecond, hne⟩

theorem detectSlices?_eq_some_iff {image : ByteArray} {slices : Nat} :
    detectSlices? image = some slices ↔ LooksSliced image ∧ slices = image.size / sliceSize := by
  have hsize : slices? image.size = some slices ↔
      (2048 ∣ image.size ∧ 6144 ≤ image.size ∧ image.size ≤ 524288) ∧
        slices = image.size / sliceSize := by
    simp only [slices?, bankSize, sliceSize, maxSlices, Option.ite_none_right_eq_some,
      Option.some.injEq]
    omega
  rw [LooksSliced, ← two_le_storesTo3F_iff]
  rcases hslices : slices? image.size with _ | count
  · simp only [detectSlices?, hslices, reduceCtorEq, false_iff]
    rintro ⟨⟨hdvd, hmin, hmax, -⟩, hcount⟩
    exact absurd (hslices.symm.trans (hsize.mpr ⟨⟨hdvd, hmin, hmax⟩, hcount⟩)) nofun
  · rw [hslices, Option.some.injEq] at hsize
    simp only [detectSlices?, hslices, Option.ite_none_right_eq_some, Option.some.injEq, hsize]
    tauto

/-- What may be made of an image, and from what. -/
inductive Guess (image : ByteArray) : Except CartridgeError BankScheme → Prop
  | twoK (size_eq : image.size = 2048) : Guess image (.ok twoK)
  | twoKTwice (size_eq : image.size = 4096) (doubled : Doubled image 2048) : Guess image (.ok twoK)
  | fourK (size_eq : image.size = 4096) : Guess image (.ok fourK)
  | fourKTwice (size_eq : image.size = 8192) (doubled : Doubled image 4096) : Guess image (.ok fourK)
  | threeF (sliced : LooksSliced image) (single : ¬ (image.size = 8192 ∧ Doubled image 4096)) :
    Guess image (.ok (threeF (image.size / sliceSize)))
  | f8 (size_eq : image.size = 8192) (single : ¬ Doubled image 4096) : Guess image (.ok (f8 false))
  | f6 (size_eq : image.size = 16384) : Guess image (.ok f6)
  | f4 (size_eq : image.size = 32768) : Guess image (.ok f4)
  | refused (size_notMem : image.size ∉ [2048, 4096, 8192, 16384, 32768])
      (notSliced : ¬ LooksSliced image) : Guess image (.error (.unsupportedSize image.size))

theorem guess_detect (image : ByteArray) : Guess image (detect image) := by
  unfold detect
  split_ifs with htwo hfour hhalves htwice
  · exact .twoK htwo
  · exact .twoKTwice hfour ((halvesEqual_iff (by omega)).mp hhalves)
  · exact .fourK hfour
  · exact .fourKTwice htwice.1 ((halvesEqual_iff (by omega)).mp htwice.2)
  · have hsingle : ¬ (image.size = 8192 ∧ Doubled image 4096) :=
      fun h ↦ htwice ⟨h.1, (halvesEqual_iff (by omega)).mpr h.2⟩
    split
    · next slices hslices =>
      obtain ⟨hsliced, rfl⟩ := detectSlices?_eq_some_iff.mp hslices
      exact .threeF hsliced hsingle
    · next hslices =>
      have hnot : ¬ LooksSliced image := fun h ↦
        absurd (hslices.symm.trans (detectSlices?_eq_some_iff.mpr ⟨h, rfl⟩)) nofun
      unfold ofSize
      split
      · next hsize => exact .f8 hsize fun h ↦ hsingle ⟨hsize, h⟩
      · next hsize => exact .f6 hsize
      · next hsize => exact .f4 hsize
      · next hf8 hf6 hf4 =>
        refine .refused ?_ hnot
        simp only [List.mem_cons, List.not_mem_nil, or_false, not_or]
        exact ⟨htwo, hfour, hf8, hf6, hf4⟩

/-- What is guessed fits the image. -/
theorem Guess.fits {image : ByteArray} {scheme : BankScheme} (h : Guess image (.ok scheme)) :
    0 < scheme.romSize ∧ scheme.romSize ≤ image.size ∧
      (image.size = scheme.romSize ∨ scheme.bankCount = 1) := by
  cases h with
  | threeF sliced =>
    obtain ⟨hdvd, hmin, -⟩ := sliced
    have hsize : image.size / 2048 * 2048 = image.size := Nat.div_mul_cancel hdvd
    simp only [romSize, sliceSize, hsize, true_or, and_true, le_refl]
    omega
  | twoK size_eq | fourK size_eq | f8 size_eq | f6 size_eq | f4 size_eq =>
    exact ⟨by decide, size_eq.ge, .inl size_eq⟩
  | twoKTwice size_eq | fourKTwice size_eq =>
    exact ⟨by decide, by rw [size_eq]; decide, .inr rfl⟩

end BankScheme

namespace Cartridge

open BankScheme

/-- An image for which there is a guess makes a cartridge. -/
theorem ofImage_of_detect {image : ByteArray} {scheme : BankScheme} (h : detect image = .ok scheme) :
    ofImage image =
      .ok { scheme := scheme, rom := image.extract 0 scheme.romSize, bank := scheme.resetBank } := by
  have hguess := guess_detect image
  rw [h] at hguess
  obtain ⟨hpos, hle, hfit⟩ := hguess.fits
  have hmatch : ¬ (image.size < scheme.romSize ∨ scheme.romSize = 0 ∨
      image.size ≠ scheme.romSize ∧ 1 < scheme.bankCount) := by omega
  simp only [ofImage, h, bind, Except.bind, withScheme, if_neg hmatch]

theorem ofImage_of_error {image : ByteArray} {error : CartridgeError}
    (h : detect image = .error error) : ofImage image = .error error := by
  simp only [ofImage, h, bind, Except.bind]

/-- A cartridge holds what its scheme maps of the image it was made of. -/
theorem detect_of_ofImage {image : ByteArray} {inserted : Cartridge}
    (h : ofImage image = .ok inserted) :
    Guess image (.ok inserted.scheme) ∧ inserted.Holds image inserted.scheme ∧
      inserted.bank = inserted.scheme.resetBank := by
  have hguess := guess_detect image
  rcases hdetect : detect image with error | scheme
  · rw [ofImage_of_error hdetect] at h
    cases h
  · rw [ofImage_of_detect hdetect] at h
    obtain rfl := Except.ok.inj h
    rw [hdetect] at hguess
    exact ⟨hguess, ⟨rfl, rfl, hguess.fits.1, hguess.fits.2.1⟩, rfl⟩

/-- An image is refused for its size, if there is no guess. -/
theorem ofImage_eq_error_iff {image : ByteArray} {error : CartridgeError} :
    ofImage image = .error error ↔
      error = .unsupportedSize image.size ∧
        image.size ∉ [2048, 4096, 8192, 16384, 32768] ∧ ¬ LooksSliced image := by
  have hguess := guess_detect image
  generalize hdetect : detect image = result at hguess
  have hmade {scheme : BankScheme} (h : detect image = .ok scheme) :
      ofImage image ≠ .error error := by
    rw [ofImage_of_detect h]
    exact nofun
  cases hguess with
  | refused size_notMem notSliced =>
    rw [ofImage_of_error hdetect, Except.error.injEq]
    exact ⟨fun h ↦ ⟨h.symm, size_notMem, notSliced⟩, fun h ↦ h.1.symm⟩
  | threeF sliced => exact iff_of_false (hmade hdetect) fun h ↦ h.2.2 sliced
  | twoK size_eq | twoKTwice size_eq | fourK size_eq | fourKTwice size_eq | f8 size_eq | f6 size_eq
    | f4 size_eq =>
    exact iff_of_false (hmade hdetect) fun h ↦ h.2.1 (by simp [size_eq])

end Cartridge

/-! ## What the window shows -/

/-- Only the 3F scheme sees more than the window. -/
theorem BankStep.Concerns.of_not_threeF {step : BankStep} {scheme other : BankScheme}
    (h : step.Concerns scheme) (hscheme : ∀ slices, scheme ≠ .threeF slices) :
    step.Concerns other := by
  cases step with
  | reset => exact trivial
  | read address => exact h
  | write address value => exact .inl (h.resolve_right fun hthree ↦ absurd hthree.1.choose_spec (hscheme _))

namespace BankScheme

/-- The scheme maps all of an image that is counted as one half, or that could have been. -/
inductive MapsWhole (image : ByteArray) : BankScheme → Prop
  | fourK (size_eq : image.size = 4096) : MapsWhole image fourK
  | f8 (swapped : Bool) (size_eq : image.size = 8192) (doubled : Doubled image 4096) :
    MapsWhole image (f8 swapped)

/-- The image fits the window, or would if its halves were not both kept. -/
def FitsWindow (image : ByteArray) : Prop :=
  image.size = 2048 ∨ image.size = 4096 ∨ image.size = 8192 ∧ Doubled image 4096

variable {image : ByteArray} {scheme : BankScheme}

/-- Behind the first of two equal halves the same bytes come again. -/
theorem Doubled.getElem?_mod {half i : Nat} (h : Doubled image half) (hi : i < 2 * half) :
    image[i]? = image[i % half]? := by
  by_cases hfirst : i < half
  · rw [Nat.mod_eq_of_lt hfirst]
  · have hsecond : i % half = i - half := by
      rw [Nat.mod_eq_sub_mod (by omega), Nat.mod_eq_of_lt (by omega)]
    rw [hsecond, h (i - half) (by omega), Nat.add_sub_cancel' (by omega)]

theorem MapsWhole.shownAt {bank : Nat} (h : MapsWhole image scheme) (hbank : bank < scheme.bankCount)
    (address : UInt16) :
    image[scheme.shownAt bank address]? = image[address.toNat % 4096 % image.size]? := by
  cases h with
  | fourK size_eq =>
    simp only [bankCount] at hbank
    simp only [BankScheme.shownAt, size_eq]
    congr 1
    omega
  | f8 swapped size_eq doubled =>
    simp only [bankCount] at hbank
    simp only [BankScheme.shownAt, size_eq]
    rw [doubled.getElem?_mod (by omega)]
    congr 1
    omega

/-- As many slices as the image has, and no more than a byte can number. -/
theorem Guess.slices_eq {slices : Nat} (h : Guess image (.ok (.threeF slices))) :
    image.size = 2048 * slices ∧ slices ≤ 256 := by
  cases h with
  | threeF sliced =>
    obtain ⟨hdvd, -, hmax, -⟩ := sliced
    simp only [sliceSize]
    omega

theorem Guess.not_threeF_of_fitsWindow (h : Guess image (.ok scheme)) (hfits : FitsWindow image)
    (slices : Nat) : scheme ≠ .threeF slices := by
  rintro rfl
  cases h with
  | threeF sliced single =>
    have hmin := sliced.2.1
    rcases hfits with hsize | hsize | hdouble
    · omega
    · omega
    · exact single hdouble

theorem Guess.shownAt {bank : Nat} (h : Guess image (.ok scheme)) (hfits : FitsWindow image)
    (hbank : bank < scheme.bankCount) (address : UInt16) :
    image[scheme.shownAt bank address]? = image[address.toNat % 4096 % image.size]? := by
  unfold FitsWindow at hfits
  cases h with
  | twoK size_eq =>
    simp only [BankScheme.shownAt, size_eq]
    congr 1
    omega
  | twoKTwice size_eq doubled =>
    simp only [BankScheme.shownAt, size_eq]
    refine Eq.trans ?_ (doubled.getElem?_mod (by omega)).symm
    congr 1
    omega
  | fourK size_eq => exact (MapsWhole.fourK size_eq).shownAt hbank address
  | fourKTwice size_eq doubled =>
    simp only [bankCount] at hbank
    simp only [BankScheme.shownAt, size_eq]
    congr 1
    omega
  | threeF sliced single =>
    exact absurd rfl ((Guess.threeF sliced single).not_threeF_of_fitsWindow hfits _)
  | f8 size_eq single =>
    rcases hfits with hsize | hsize | hdouble
    · omega
    · omega
    · exact absurd hdouble.2 single
  | f6 size_eq | f4 size_eq => omega

end BankScheme

namespace Plugged

open BankScheme

/-- The cartridge has just been installed, and its image is on its chip. -/
structure Installs (inserted : Cartridge) (p : Plugged) : Prop where
  claims : ∃ table, inserted.install p.slot table = (p.cartridge, p.pages)
  image : p.store.contents p.slot.chip = inserted.rom

/-- An address of the window shows a byte, be it routed there or the cartridge asked for it. -/
def Shows (p : Plugged) (address : UInt16) (byte : Option UInt8) : Prop :=
  ∃ value, byte = some value ∧ (p.read address).1 = some value ∧
    (p.cartridge.read address p.pages).1 = value

section

variable {inserted : Cartridge} {image : ByteArray} {scheme : BankScheme} {slot : CartridgeSlot}
  {table : PageTable} {store : Store} {bank : Nat}

theorem shows_inBank (h : inserted.Holds image scheme)
    (hstore : store.contents slot.chip = inserted.rom) (hbank : bank < scheme.bankCount)
    {address : UInt16} (hwindow : address &&& Cartridge.windowStart ≠ 0) :
    (inBank inserted slot table store bank).Shows address
      image[scheme.shownAt ((scheme.selected? address).getD bank) address]? := by
  obtain ⟨value, hread, hshown⟩ := read_inBank h slot table hstore hbank hwindow
  have hnext : (scheme.selected? address).getD bank < scheme.bankCount :=
    BankStep.bankAfter_lt h.pos hbank (.read address)
  have htouch := (inserted.touch_inBank slot table bank hwindow).1
  rw [h.scheme_eq] at htouch
  refine ⟨value, hshown, congrArg Prod.fst hread, ?_⟩
  have hbyte := h.romByte_inBank slot hnext address
  rw [hshown] at hbyte
  exact (congrArg (Cartridge.romByte · address) htouch).trans (Option.some.inj hbyte).symm

/-- A cartridge that has been installed is in some bank, whatever has happened to it since. -/
theorem Installs.play_eq {p : Plugged} (hp : Installs inserted p) (h : inserted.Holds image scheme)
    (hreset : inserted.bank = scheme.resetBank) {steps : List BankStep}
    (hconcerns : ∀ step ∈ steps, step.Concerns scheme) :
    ∃ table bank, bank < scheme.bankCount ∧
      p.play steps = inBank inserted p.slot table p.store bank := by
  obtain ⟨table, hinstall⟩ := hp.claims
  obtain ⟨hlast, hplay⟩ := play_inBank h p.slot table hp.image (resetBank_lt h.pos) hconcerns
  have hcartridge : inserted.inBank p.slot inserted.bank = p.cartridge := congrArg Prod.fst hinstall
  have hpages : inserted.claims p.slot table inserted.bank = p.pages := congrArg Prod.snd hinstall
  have hstart : inBank inserted p.slot table p.store inserted.bank = p := by
    rw [inBank, hcartridge, hpages]
  exact ⟨table, _, hlast, by rw [← hplay, ← hreset, hstart]⟩

/-- A cartridge with an image that fits the window shows it from the beginning, whatever has happened. -/
theorem Installs.shows_image {p : Plugged} (hp : Installs inserted p)
    (h : inserted.Holds image scheme) (hreset : inserted.bank = scheme.resetBank)
    {steps : List BankStep} (hconcerns : ∀ step ∈ steps, step.Concerns scheme)
    (hshown : ∀ bank < scheme.bankCount, ∀ address : UInt16,
      image[scheme.shownAt bank address]? = image[address.toNat % 4096 % image.size]?)
    {address : UInt16} (hwindow : address &&& Cartridge.windowStart ≠ 0) :
    (p.play steps).Shows address image[address.toNat % 4096 % image.size]? := by
  obtain ⟨table, bank, hbank, hplay⟩ := hp.play_eq h hreset hconcerns
  have hshows : (inBank inserted p.slot table p.store bank).Shows address _ :=
    shows_inBank h hp.image hbank hwindow
  have hnext := BankStep.bankAfter_lt h.pos hbank (.read address)
  rw [hplay, ← hshown _ hnext address]
  exact hshows

/-- The write that selects a slice, and what the lower half of the window shows then. -/
theorem write_inBank_threeF {slices slice : Nat} (h : inserted.Holds image (.threeF slices))
    (hstore : store.contents slot.chip = inserted.rom) (hslices : slices ≤ 256)
    (hslice : slice < slices) {address : UInt16} (hbottom : address.toNat % 8192 < 64) :
    let q := (inBank inserted slot table store bank).write address (UInt8.ofNat slice)
    q.cartridge.bank = slice ∧
      ∀ shown : UInt16, shown &&& Cartridge.windowStart ≠ 0 → shown.toNat % 4096 < 2048 →
        q.Shows shown image[2048 * slice + shown.toNat % 2048]? := by
  intro q
  have hconcerns : (BankStep.write address (UInt8.ofNat slice)).Concerns (.threeF slices) :=
    .inr ⟨⟨slices, rfl⟩, (inBottom_iff address).mpr hbottom⟩
  have hbyte : (UInt8.ofNat slice).toNat = slice := by
    rw [UInt8.toNat_ofNat']
    omega
  have hselects : (BankStep.write address (UInt8.ofNat slice)).bankAfter (.threeF slices) bank =
      slice := by
    simp only [BankStep.bankAfter, if_pos hbottom, hbyte, Nat.mod_eq_of_lt hslice]
  have hq : q = inBank inserted slot table store slice := by
    simp only [q, write_inBank h slot table hconcerns, hselects]
  rw [hq]
  refine ⟨rfl, fun shown hwindow hlower ↦ ?_⟩
  have hshows : (inBank inserted slot table store slice).Shows shown _ :=
    shows_inBank h hstore hslice hwindow
  have hplace : (BankScheme.threeF slices).shownAt
      (((BankScheme.threeF slices).selected? shown).getD slice) shown =
        2048 * slice + shown.toNat % 2048 := by
    simp only [BankScheme.shownAt, if_pos hlower, selected?, Option.getD_none]
  rwa [hplace] at hshows

end

/-- What becomes of an image.  It is refused, for its size, exactly if it has none of the five usual sizes and does
not look like one of the 3F scheme.  Of a cartridge that is made of it, installed anywhere and used in any way: if
the image fits the window when its second half is dropped, the window shows it byte for byte, as it would had both
halves been kept; and if the image is taken for one of the 3F scheme, every slice can be selected by a write to the
bottom of memory, and the upper half of the window shows the last slice. -/
theorem ofImage_shows (image : ByteArray) :
    (∀ error, Cartridge.ofImage image = .error error ↔
      error = .unsupportedSize image.size ∧
        image.size ∉ [2048, 4096, 8192, 16384, 32768] ∧ ¬ LooksSliced image) ∧
    ∀ inserted, Cartridge.ofImage image = .ok inserted → ∀ p : Plugged, Installs inserted p →
      ∀ steps : List BankStep, (∀ step ∈ steps, step.Concerns inserted.scheme) →
        (FitsWindow image →
          (∀ address : UInt16, address &&& Cartridge.windowStart ≠ 0 →
            (p.play steps).Shows address image[address.toNat % 4096 % image.size]?) ∧
          ∀ scheme, MapsWhole image scheme → ∀ whole, Cartridge.withScheme image scheme = .ok whole →
            ∀ q : Plugged, Installs whole q → ∀ address : UInt16, address &&& Cartridge.windowStart ≠ 0 →
              ((q.play steps).read address).1 = ((p.play steps).read address).1) ∧
        ∀ slices, inserted.scheme = .threeF slices →
          (∀ slice < inserted.scheme.bankCount, ∃ value, ∀ address : UInt16, address.toNat % 8192 < 64 →
            let q := (p.play steps).write address value
            q.cartridge.bank = slice ∧
              ∀ shown : UInt16, shown &&& Cartridge.windowStart ≠ 0 → shown.toNat % 4096 < 2048 →
                q.Shows shown image[2048 * slice + shown.toNat % 2048]?) ∧
          ∀ address : UInt16, address &&& Cartridge.windowStart ≠ 0 → 2048 ≤ address.toNat % 4096 →
            (p.play steps).Shows address image[image.size - 2048 + address.toNat % 2048]? := by
  refine ⟨fun error ↦ Cartridge.ofImage_eq_error_iff, ?_⟩
  intro inserted hinserted p hp steps hconcerns
  obtain ⟨hguess, hholds, hreset⟩ := Cartridge.detect_of_ofImage hinserted
  refine ⟨fun hfits ↦ ⟨fun address hwindow ↦ ?_, ?_⟩, fun slices hslices ↦ ⟨?_, ?_⟩⟩
  · exact hp.shows_image hholds hreset hconcerns (fun bank ↦ hguess.shownAt hfits) hwindow
  · intro scheme hscheme whole hwhole q hq address hwindow
    obtain ⟨hpos, hle, rfl⟩ := Cartridge.withScheme_eq_ok hwhole
    -- An image that fits the window is not one of the 3F scheme, so nothing below the window is seen by either.
    have hboth : ∀ step ∈ steps, step.Concerns scheme := fun step hstep ↦
      (hconcerns step hstep).of_not_threeF fun slices heq ↦
        hguess.not_threeF_of_fitsWindow hfits slices heq
    obtain ⟨kept, hkept, hshown, -⟩ :=
      hp.shows_image hholds hreset hconcerns (fun bank ↦ hguess.shownAt hfits) hwindow
    obtain ⟨twice, htwice, hshown', -⟩ :=
      hq.shows_image ⟨rfl, rfl, hpos, hle⟩ rfl hboth (fun bank ↦ hscheme.shownAt) hwindow
    rw [hshown, hshown', ← hkept, ← htwice]
  · intro slice hslice
    obtain ⟨table, bank, -, hplay⟩ := hp.play_eq hholds hreset hconcerns
    rw [hslices] at hslice hholds hguess
    refine ⟨UInt8.ofNat slice, fun address hbottom ↦ ?_⟩
    rw [hplay]
    exact write_inBank_threeF hholds hp.image hguess.slices_eq.2 hslice hbottom
  · intro address hwindow hupper
    obtain ⟨table, bank, hbank, hplay⟩ := hp.play_eq hholds hreset hconcerns
    rw [hslices] at hbank hholds hguess
    have hshows : (inBank inserted p.slot table p.store bank).Shows address _ :=
      shows_inBank hholds hp.image hbank hwindow
    have hplace : (BankScheme.threeF slices).shownAt
        (((BankScheme.threeF slices).selected? address).getD bank) address =
          image.size - 2048 + address.toNat % 2048 := by
      have hsize := hguess.slices_eq.1
      simp only [BankScheme.shownAt, if_neg (Nat.not_lt.mpr hupper)]
      omega
    rwa [hplace, ← hplay] at hshows

/-- Two equal halves of 4 KiB.  The image counts as 4 KiB, and after a read of what would switch the banks of 8 KiB
the window shows the same as before. -/
theorem ofImage_shows_of_halves :
    let image : ByteArray := ⟨.replicate 8192 0⟩
    ∃ inserted, Cartridge.ofImage image = .ok inserted ∧ inserted.scheme = .fourK ∧
      let installed := inserted.install ⟨⟨2⟩, 0⟩ .empty
      let p := Plugged.mk ⟨⟨2⟩, 0⟩ installed.1 installed.2 ⟨#[inserted.rom]⟩
      FitsWindow image ∧ MapsWhole image (.f8 false) ∧
        (p.play [.read 0x1FF8]).Shows 0x1234 image[0x234]? := by
  intro image
  have hsize : image.size = 8192 := Array.size_replicate
  have hdoubled : Doubled image 4096 := by
    intro i hi
    rw [getElem?_eq_some_get! (by omega), getElem?_eq_some_get! (by omega)]
    simp [image, ByteArray.get!, show i < 8192 by omega, show 4096 + i < 8192 by omega]
  have hdetect : detect image = .ok .fourK := by
    simp [detect, hsize, (halvesEqual_iff (by omega)).mpr hdoubled]
  have hfits : FitsWindow image := .inr (.inr ⟨hsize, hdoubled⟩)
  obtain ⟨-, hmade⟩ := ofImage_shows image
  refine ⟨_, Cartridge.ofImage_of_detect hdetect, rfl, ?_⟩
  intro installed p
  have hinstalls : Installs _ p := ⟨⟨.empty, rfl⟩, rfl⟩
  obtain ⟨hshows, -⟩ := (hmade _ (Cartridge.ofImage_of_detect hdetect) p hinstalls [.read 0x1FF8]
    (List.forall_mem_singleton.mpr
      (by decide : (0x1FF8 : UInt16) &&& Cartridge.windowStart ≠ 0))).1 hfits
  have hshown := hshows 0x1234 (by decide)
  rw [hsize] at hshown
  exact ⟨hfits, .f8 false hsize hdoubled, hshown⟩

end Plugged

end Vcs
