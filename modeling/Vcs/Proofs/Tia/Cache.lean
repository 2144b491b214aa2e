import Vcs.Proofs.Tia.MaskGeometry
import Vcs.Tia.Objects

/-!
# Caches of the Objects

Beside its registers the chip keeps what follows from them: the playfield in one word, its modes, the graphics
after delay and reflection, a mask for every object and the set of objects that are enabled.  All of it is
brought up to date by hand, in the writes of some thirty registers, at the end of every line and by motion
strobes.  Here every such thing is a cache with the registers it follows from.  Storing a byte makes stale the
caches that follow from its register, and each of the functions that refresh something takes one cache off the
list of those that are stale.
-/

namespace Vcs.Tia

namespace ObjectSet

theorem put_and_of_disjoint {members other : ObjectSet} (h : members &&& other = 0)
    (set : ObjectSet) (on : Bool) : set.put members on &&& other = set &&& other := by
  have hdisjoint (i : Nat) (hi : i < 8) : members.toBitVec[i] = true → other.toBitVec[i] = false := by
    intro hmember
    have hboth : (members &&& other).toBitVec[i] = false := by
      rw [h]
      exact BitVec.getElem_zero hi
    simpa [hmember] using hboth
  rw [← UInt8.toBitVec_inj]
  ext i hi
  have := hdisjoint i hi
  cases on <;> simp only [put, Bool.false_eq_true, if_true, if_false, UInt8.toBitVec_and,
    UInt8.toBitVec_or, UInt8.toBitVec_not, BitVec.getElem_and, BitVec.getElem_or, BitVec.getElem_not]
    <;> grind

theorem meets_put_of_disjoint {members other : ObjectSet} (h : members &&& other = 0)
    (set : ObjectSet) (on : Bool) : (set.put members on).meets other = set.meets other :=
  congrArg (· != 0) (put_and_of_disjoint h set on)

theorem meets_put_self {members : ObjectSet} (h : members ≠ 0) (set : ObjectSet) (on : Bool) :
    (set.put members on).meets members = on := by
  cases on
  · have hnone : set.put members false &&& members = 0 := by
      rw [← UInt8.toBitVec_inj]
      ext i hi
      simp [put]
    simp [meets, hnone]
  · have hall : set.put members true &&& members = members := by
      rw [← UInt8.toBitVec_inj]
      ext i hi
      simp only [put, if_true, UInt8.toBitVec_and, UInt8.toBitVec_or, BitVec.getElem_and,
        BitVec.getElem_or]
      grind
    simp [meets, hall, h]

end ObjectSet

theorem testBit_reflect (value : UInt8) (bit : Fin 8) :
    (reflect value).toNat.testBit bit = value.toNat.testBit (7 - bit) :=
  forall_byte (p := fun value ↦ ∀ bit : Fin 8,
    (reflect value).toNat.testBit bit = value.toNat.testBit (7 - bit)) (by decide +kernel) value bit

theorem reflect_reflect (value : UInt8) : reflect (reflect value) = value :=
  forall_byte (p := fun value ↦ reflect (reflect value) = value) (by decide +kernel) value

theorem reflect_eq_zero (value : UInt8) : reflect value = 0 ↔ value = 0 :=
  forall_byte (p := fun value ↦ reflect value = 0 ↔ value = 0) (by decide +kernel) value

/-- Something the chip keeps because it follows from registers. -/
inductive Cache where
  | playfield
  | modes
  | graphic (which : Which)
  | missileEnable (which : Which)
  | ballEnable
  | playerMask (which : Which)
  | missileMask (which : Which)
  | ballMask
  /-- The two bits of the enabled set that are no objects. -/
  | spare
  deriving DecidableEq

namespace Cache

/-- Registers that a cache follows from. -/
def sources : Cache → List Register
  | playfield => [.pf0, .pf1, .pf2]
  | modes => [.ctrlpf]
  | graphic which => [which.grp, which.refp, which.vdelp]
  | missileEnable which => [which.enam, which.resmp]
  | ballEnable => [.enabl, .vdelbl]
  | playerMask which => [which.nusiz]
  | missileMask which => [which.nusiz]
  | ballMask => [.ctrlpf]
  | spare => []

def all : List Cache :=
  [playfield, modes, graphic .zero, graphic .one, missileEnable .zero, missileEnable .one,
    ballEnable, playerMask .zero, playerMask .one, missileMask .zero, missileMask .one, ballMask,
    spare]

theorem mem_all (cache : Cache) : cache ∈ all := by
  cases cache with
  | graphic which | missileEnable which | playerMask which | missileMask which =>
    cases which <;> decide
  | _ => decide

/-- Bits of the enabled set that a cache keeps. -/
def members : Cache → ObjectSet
  | playfield => .playfield
  | graphic which => which.player
  | missileEnable which => which.missile
  | ballEnable => .ball
  | spare => 0xC0
  | modes | playerMask _ | missileMask _ | ballMask => 0

theorem members_disjoint {first second : Cache} (h : first ≠ second) :
    first.members &&& second.members = 0 := by
  have hall : ∀ first ∈ all, ∀ second ∈ all, first ≠ second →
      first.members &&& second.members = 0 := by decide
  exact hall first first.mem_all second second.mem_all h

end Cache

/-- Caches that follow from a register. -/
def Register.readers (register : Register) : List Cache :=
  Cache.all.filter fun cache ↦ register ∈ cache.sources

theorem Register.mem_readers {register : Register} {cache : Cache} (h : register ∈ cache.sources) :
    cache ∈ register.readers :=
  List.mem_filter.mpr ⟨cache.mem_all, by simpa using h⟩

namespace Objects

/-- The twenty bits of the playfield registers, packed. -/
def playfieldBits (o : Objects) : UInt32 :=
  (o.registers.get .pf0 >>> 4).toUInt32 ||| (o.registers.get .pf1).toUInt32 <<< 4 |||
    (o.registers.get .pf2).toUInt32 <<< 12

/-- The graphic of a player before reflection. -/
def plainGraphic (o : Objects) (which : Which) : UInt8 :=
  if o.registers.test which.vdelp 0x01 then (o.players.get which).delayed
  else o.registers.get which.grp

/-- The graphic of a player. -/
def shownGraphic (o : Objects) (which : Which) : UInt8 :=
  if o.registers.test which.refp 0x08 then reflect (o.plainGraphic which) else o.plainGraphic which

/-- Width class of the ball. -/
def ballSize (o : Objects) : UInt8 :=
  (o.registers.get .ctrlpf &&& 0x30) >>> 4

/-- The mask of a missile is that of its position and size, unless the star field stretches or hides it. -/
def HoldsMissile (o : Objects) (which : Which) : Prop :=
  (∀ mask, (o.missiles.get which).mask = some mask →
    ∃ size, (size = o.missileSize which ∨
        which = .zero ∧ o.starField.armed ∧ size = o.missileSize which ||| 1) ∧
      mask.Shows (o.missiles.get which).position ((o.sizeMode which &&& 7) * 4 + (size &&& 3))) ∧
  ((o.missiles.get which).mask = none → which = .zero ∧ o.starField.armed)

/-- The star field is no matter of missile 1. -/
theorem HoldsMissile.of_starField {o after : Objects}
    (hafter : after = { o with starField := after.starField }) (h : o.HoldsMissile .one) :
    after.HoldsMissile .one := by
  obtain ⟨hshows, hhidden⟩ := h
  rw [hafter]
  constructor
  · intro mask hmask
    obtain ⟨size, hsize | ⟨hzero, -⟩, hmask⟩ := hshows mask hmask
    · exact ⟨size, .inl hsize, hmask⟩
    · exact absurd hzero (by decide)
  · intro hnone
    exact absurd (hhidden hnone).1 (by decide)

/-- A cache says what its registers say. -/
def Holds (o : Objects) : Cache → Prop
  | .playfield =>
    o.playfield = o.playfieldBits ∧ o.enabled.meets .playfield = (o.playfieldBits != 0)
  | .modes => o.modes = (o.registers.get .ctrlpf &&& 0x06) <<< 5
  | .graphic which =>
    (o.players.get which).graphic = o.shownGraphic which ∧
      o.enabled.meets which.player = (o.shownGraphic which != 0)
  | .missileEnable which =>
    o.enabled.meets which.missile =
      (o.registers.test which.enam 0x02 && !o.registers.test which.resmp 0x02)
  | .ballEnable =>
    o.enabled.meets .ball =
      if o.registers.test .vdelbl 0x01 then o.ball.delayed else o.registers.test .enabl 0x02
  | .playerMask which =>
    ∃ skipFirst : Bool, (o.players.get which).mask.Shows (o.players.get which).position
      ((if skipFirst then 8 else 0) + (o.sizeMode which &&& 7))
  | .missileMask which => o.HoldsMissile which
  | .ballMask => o.ball.mask.Shows o.ball.position (o.ballSize &&& 3)
  | .spare => o.enabled.meets 0xC0 = false

/-- The five positions are on the line. -/
structure Placed (o : Objects) : Prop where
  player : ∀ which, (o.players.get which).position.toNat < columns
  missile : ∀ which, (o.missiles.get which).position.toNat < columns
  ball : o.ball.position.toNat < columns

theorem Placed.of_position {o after : Objects} (h : o.Placed)
    (hplayer : ∀ which, (after.players.get which).position = (o.players.get which).position)
    (hmissile : ∀ which, (after.missiles.get which).position = (o.missiles.get which).position)
    (hball : after.ball.position = o.ball.position) : after.Placed where
  player which := hplayer which ▸ h.player which
  missile which := hmissile which ▸ h.missile which
  ball := hball ▸ h.ball

/-- The positions are on the line, and at most these caches are stale. -/
structure CurrentBut (o : Objects) (stale : List Cache) : Prop where
  placed : o.Placed
  holds : ∀ cache ∉ stale, o.Holds cache

/-- No cache is stale. -/
abbrev Current (o : Objects) : Prop :=
  o.CurrentBut []

theorem CurrentBut.mono {o : Objects} {stale : List Cache} (h : o.CurrentBut stale)
    (more : List Cache) (hsub : ∀ cache ∈ stale, cache ∈ more) : o.CurrentBut more where
  placed := h.placed
  holds cache hcache := h.holds cache fun hmem ↦ hcache (hsub cache hmem)

theorem CurrentBut.mono_nil {o : Objects} (h : o.Current) (stale : List Cache) :
    o.CurrentBut stale :=
  h.mono stale fun _ hmem ↦ absurd hmem List.not_mem_nil

/-- What spoils one cache at most makes it stale. -/
theorem CurrentBut.spoil {o after : Objects} {stale : List Cache} (h : o.CurrentBut stale)
    (cache : Cache) (hplaced : after.Placed)
    (hothers : ∀ other ≠ cache, o.Holds other → after.Holds other) :
    after.CurrentBut (cache :: stale) where
  placed := hplaced
  holds other hother := by
    rw [List.mem_cons, not_or] at hother
    exact hothers other hother.1 (h.holds other hother.2)

/-- What brings the first stale cache up to date and spoils no other one leaves the rest to be done. -/
theorem CurrentBut.refresh {o after : Objects} {cache : Cache} {stale : List Cache}
    (h : o.CurrentBut (cache :: stale)) (hplaced : after.Placed) (hcache : after.Holds cache)
    (hothers : ∀ other ≠ cache, o.Holds other → after.Holds other) : after.CurrentBut stale where
  placed := hplaced
  holds other hother := by
    by_cases heq : other = cache
    · exact heq ▸ hcache
    · apply hothers other heq
      apply h.holds
      simp [heq, hother]

/-- The objects with a byte stored in a register. -/
def store (o : Objects) (register : Register) (value : UInt8) : Objects :=
  { o with registers := o.registers.set register value }

theorem Holds.store {o : Objects} {cache : Cache} (h : o.Holds cache) {register : Register}
    (hsource : register ∉ cache.sources) (value : UInt8) :
    (o.store register value).Holds cache := by
  have hget (source : Register) (hmem : source ∈ cache.sources) :
      (o.store register value).registers.get source = o.registers.get source := by
    apply RegisterFile.get_set_of_ne
    rintro rfl
    exact hsource hmem
  have htest (source : Register) (hmem : source ∈ cache.sources) (bits : UInt8) :
      (o.store register value).registers.test source bits = o.registers.test source bits :=
    congrArg (· &&& bits != 0) (hget source hmem)
  cases cache with
  | playfield =>
    have hbits : (o.store register value).playfieldBits = o.playfieldBits := by
      simp only [playfieldBits, hget .pf0 (by decide), hget .pf1 (by decide), hget .pf2 (by decide)]
    simp only [Holds, hbits]
    exact h
  | modes | ballMask =>
    simp only [Holds, ballSize, hget .ctrlpf (by decide)]
    exact h
  | graphic which =>
    have hgraphic : (o.store register value).shownGraphic which = o.shownGraphic which := by
      simp only [shownGraphic, plainGraphic, htest which.refp (by simp [Cache.sources]),
        htest which.vdelp (by simp [Cache.sources]), hget which.grp (by simp [Cache.sources])]
      rfl
    simp only [Holds, hgraphic]
    exact h
  | missileEnable which =>
    simp only [Holds, htest which.enam (by simp [Cache.sources]),
      htest which.resmp (by simp [Cache.sources])]
    exact h
  | ballEnable =>
    simp only [Holds, htest .vdelbl (by decide), htest .enabl (by decide)]
    exact h
  | playerMask which =>
    simp only [Holds, sizeMode, hget which.nusiz (by simp [Cache.sources])]
    exact h
  | missileMask which =>
    have hsize : (o.store register value).registers.get which.nusiz = o.registers.get which.nusiz :=
      hget which.nusiz (by simp [Cache.sources])
    obtain ⟨hshows, hhidden⟩ := h
    constructor
    · simp only [sizeMode, missileSize, hsize]
      exact hshows
    · exact hhidden
  | spare => exact h

/-- Storing a byte makes stale what follows from its register. -/
theorem CurrentBut.store {o : Objects} (h : o.Current) (register : Register) (value : UInt8) :
    (o.store register value).CurrentBut register.readers where
  placed := ⟨h.placed.player, h.placed.missile, h.placed.ball⟩
  holds cache hcache :=
    (h.holds cache List.not_mem_nil).store (fun hmem ↦ hcache (Register.mem_readers hmem)) value

/-- Registers from which nothing follows may be overwritten at will. -/
theorem Current.storeAll {o : Objects} (h : o.Current) (value : RegisterFile → Register → UInt8)
    {registers : List Register} (hreaders : ∀ register ∈ registers, register.readers = []) :
    { o with
      registers := registers.foldl (fun file register ↦ file.set register (value file register))
        o.registers }.Current := by
  induction registers generalizing o with
  | nil => exact h
  | cons register rest ih =>
    have hfirst := CurrentBut.store h register (value o.registers register)
    rw [hreaders register List.mem_cons_self] at hfirst
    exact ih hfirst fun later hmem ↦ hreaders later (List.mem_cons_of_mem _ hmem)

/-! ## Refreshing

A refresh brings its own cache up to date and leaves the others alone. -/

section Masks

variable {o : Objects} {stale : List Cache} (which : Which)

theorem CurrentBut.placePlayer (h : o.CurrentBut (.playerMask which :: stale)) {position : UInt8}
    (hposition : position.toNat < columns) (skipFirst : Bool) :
    (o.placePlayer which position skipFirst).CurrentBut stale := by
  apply h.refresh
  · constructor
    · intro other
      have hother := h.placed.player other
      cases which <;> cases other <;> first | exact hposition | exact hother
    · exact h.placed.missile
    · exact h.placed.ball
  · refine ⟨skipFirst, .inl ?_⟩
    cases which <;> rfl
  · intro cache hcache hholds
    cases cache with
    | graphic other => cases which <;> cases other <;> exact hholds
    | playerMask other =>
      cases which <;> cases other <;> first | exact absurd rfl hcache | exact hholds
    | _ => exact hholds

theorem refreshPlayerMask_eq :
    o.refreshPlayerMask which = o.placePlayer which (o.players.get which).position false := by
  cases which <;> rfl

theorem CurrentBut.refreshPlayerMask (h : o.CurrentBut (.playerMask which :: stale)) :
    (o.refreshPlayerMask which).CurrentBut stale := by
  rw [refreshPlayerMask_eq]
  exact h.placePlayer which (h.placed.player which) false

theorem CurrentBut.placeMissile (h : o.CurrentBut (.missileMask which :: stale)) {position : UInt8}
    (hposition : position.toNat < columns) : (o.placeMissile which position).CurrentBut stale := by
  apply h.refresh
  · constructor
    · exact h.placed.player
    · intro other
      have hother := h.placed.missile other
      cases which <;> cases other <;> first | exact hposition | exact hother
    · exact h.placed.ball
  · constructor
    · intro mask hmask
      refine ⟨o.missileSize which, .inl rfl, .inl ?_⟩
      cases which <;> exact (Option.some.inj hmask).symm
    · intro hnone
      cases which <;> exact absurd hnone (Option.some_ne_none _)
  · intro cache hcache hholds
    cases cache with
    | missileMask other =>
      cases which <;> cases other <;> first | exact absurd rfl hcache | exact hholds
    | _ => exact hholds

theorem refreshMissileMask_eq :
    o.refreshMissileMask which = o.placeMissile which (o.missiles.get which).position := by
  cases which <;> rfl

theorem CurrentBut.refreshMissileMask (h : o.CurrentBut (.missileMask which :: stale)) :
    (o.refreshMissileMask which).CurrentBut stale := by
  rw [refreshMissileMask_eq]
  exact h.placeMissile which (h.placed.missile which)

theorem CurrentBut.placeBall (h : o.CurrentBut (.ballMask :: stale)) {position : UInt8}
    (hposition : position.toNat < columns) : (o.placeBall position).CurrentBut stale := by
  apply h.refresh
  · exact ⟨h.placed.player, h.placed.missile, hposition⟩
  · exact .inl rfl
  · intro cache hcache hholds
    cases cache with
    | ballMask => exact absurd rfl hcache
    | _ => exact hholds

theorem CurrentBut.refreshBallMask (h : o.CurrentBut (.ballMask :: stale)) :
    o.refreshBallMask.CurrentBut stale :=
  h.placeBall h.placed.ball

end Masks

section Enables

variable {o : Objects} {stale : List Cache}

theorem Holds.setEnabled {cache : Cache} (h : o.Holds cache) {members : ObjectSet}
    (hdisjoint : members &&& cache.members = 0) (on : Bool) :
    (o.setEnabled members on).Holds cache := by
  have hmeets : (o.setEnabled members on).enabled.meets cache.members =
      o.enabled.meets cache.members := ObjectSet.meets_put_of_disjoint hdisjoint _ on
  cases cache with
  | playfield | graphic which => exact ⟨h.1, hmeets.trans h.2⟩
  | missileEnable which | ballEnable | spare => exact hmeets.trans h
  | _ => exact h

theorem CurrentBut.refreshPlayfield (h : o.CurrentBut (.playfield :: stale)) :
    o.refreshPlayfield.CurrentBut stale := by
  apply h.refresh
  · exact ⟨h.placed.player, h.placed.missile, h.placed.ball⟩
  · exact ⟨rfl, ObjectSet.meets_put_self (by decide) _ _⟩
  · intro cache hcache hholds
    have hbits : { o with playfield := o.playfieldBits }.Holds cache := by
      cases cache with
      | playfield => exact absurd rfl hcache
      | _ => exact hholds
    exact hbits.setEnabled (Cache.members_disjoint hcache.symm) _

theorem CurrentBut.refreshGraphic (which : Which) (h : o.CurrentBut (.graphic which :: stale)) :
    (o.refreshGraphic which).CurrentBut stale := by
  apply h.refresh
  · constructor
    · intro other
      have hother := h.placed.player other
      cases which <;> cases other <;> exact hother
    · exact h.placed.missile
    · exact h.placed.ball
  · constructor
    · cases which <;> rfl
    · cases which
      · exact ObjectSet.meets_put_self (by decide) _ _
      · exact ObjectSet.meets_put_self (by decide) _ _
  · intro cache hcache hholds
    have hgraphic : { o with
        players := o.players.modify which fun player ↦
          { player with graphic := o.shownGraphic which } }.Holds cache := by
      cases cache with
      | graphic other =>
        cases which <;> cases other <;> first | exact absurd rfl hcache | exact hholds
      | playerMask other => cases which <;> cases other <;> exact hholds
      | _ => exact hholds
    exact hgraphic.setEnabled (Cache.members_disjoint hcache.symm) _

theorem CurrentBut.refreshMissileEnable (which : Which)
    (h : o.CurrentBut (.missileEnable which :: stale)) :
    (o.refreshMissileEnable which).CurrentBut stale := by
  apply h.refresh
  · exact ⟨h.placed.player, h.placed.missile, h.placed.ball⟩
  · cases which
    · exact ObjectSet.meets_put_self (by decide) _ _
    · exact ObjectSet.meets_put_self (by decide) _ _
  · intro cache hcache hholds
    exact hholds.setEnabled (Cache.members_disjoint hcache.symm) _

theorem CurrentBut.refreshBallEnable (h : o.CurrentBut (.ballEnable :: stale)) :
    o.refreshBallEnable.CurrentBut stale := by
  apply h.refresh
  · exact ⟨h.placed.player, h.placed.missile, h.placed.ball⟩
  · exact ObjectSet.meets_put_self (by decide) _ _
  · intro cache hcache hholds
    exact hholds.setEnabled (Cache.members_disjoint hcache.symm) _

end Enables

/-! ## What the chip does with its objects -/

section Actions

variable {o : Objects}

theorem get_default (register : Register) : ({} : RegisterFile).get register = 0 := by
  simp [RegisterFile.get]

theorem current_default : ({} : Objects).Current where
  placed := by
    constructor
    · intro which
      cases which <;> decide
    · intro which
      cases which <;> decide
    · decide
  holds cache _ := by
    cases cache with
    | playfield => simp [Holds, playfieldBits, get_default, ObjectSet.meets]
    | modes => simp [Holds, get_default]
    | graphic which =>
      cases which <;>
        simp [Holds, shownGraphic, plainGraphic, get_default, RegisterFile.test, ObjectSet.meets,
          Pair.get]
    | missileEnable which =>
      simp [Holds, get_default, RegisterFile.test, ObjectSet.meets]
    | ballEnable => simp [Holds, get_default, RegisterFile.test, ObjectSet.meets]
    | playerMask which =>
      refine ⟨false, .inr ?_⟩
      cases which <;> simp [sizeMode, get_default, Pair.get]
    | missileMask which =>
      constructor
      · intro mask hmask
        refine ⟨_, .inl rfl, .inr ?_⟩
        cases which <;> simp_all [sizeMode, missileSize, get_default, Pair.get]
      · intro hnone
        cases which <;> exact absurd hnone (Option.some_ne_none _)
    | ballMask => exact .inr (by simp [ballSize, get_default])
    | spare => rfl

/-- A line of the star field stretches or hides missile 0, or neither. -/
theorem Current.stepStarField (h : o.Current) (harmed : o.starField.armed) :
    o.stepStarField.Current := by
  apply (h.mono_nil [.missileMask .zero]).refresh
  · constructor
    · exact h.placed.player
    · intro which
      cases which
      · exact Motion.wrap_lt _
      · exact h.placed.missile .one
    · exact h.placed.ball
  · constructor
    · intro mask hmask
      simp only [Objects.stepStarField, Pair.get] at hmask
      split at hmask
      · exact ⟨_, .inr ⟨rfl, harmed, rfl⟩, .inl (Option.some.inj hmask).symm⟩
      · exact absurd hmask.symm (Option.some_ne_none _)
      · exact ⟨_, .inl rfl, .inl (Option.some.inj hmask).symm⟩
    · intro _
      exact ⟨rfl, harmed⟩
  · intro cache hcache hholds
    cases cache with
    | missileMask which =>
      cases which
      · exact absurd rfl hcache
      · exact hholds
    | _ => exact hholds

theorem Current.endLine (h : o.Current) : o.endLine.Current := by
  have hplayers : ((o.refreshPlayerMask .zero).refreshPlayerMask .one).Current :=
    ((h.mono_nil [.playerMask .zero, .playerMask .one]).refreshPlayerMask .zero).refreshPlayerMask
      .one
  unfold Objects.endLine
  dsimp only
  split
  · next harmed => exact Current.stepStarField hplayers harmed
  · exact hplayers

/-- A motion strobe gives every object a new mask and stops the star field. -/
theorem Current.move (h : o.Current) (cycle : Nat) : (o.move cycle).Current := by
  let calm := { o with starField := { o.starField with armed := false } }
  have hcalm : calm.CurrentBut [.missileMask .zero] := by
    apply h.spoil
    · exact ⟨h.placed.player, h.placed.missile, h.placed.ball⟩
    · intro cache hcache hholds
      cases cache with
      | missileMask which =>
        cases which
        · exact absurd rfl hcache
        · exact HoldsMissile.of_starField rfl hholds
      | _ => exact hholds
  have hall : calm.CurrentBut [.playerMask .zero, .playerMask .one, .missileMask .zero,
      .missileMask .one, .ballMask] := hcalm.mono _ (by decide)
  have hlt (position : UInt8) (motion : Register) :
      (o.movedBy cycle position motion).toNat < columns := Motion.wrap_lt _
  have hplayers := (hall.placePlayer .zero (hlt o.players.zero.position .hmp0) false).placePlayer
    .one (hlt o.players.one.position .hmp1) false
  have hmissiles := (hplayers.placeMissile .zero (hlt o.missiles.zero.position .hmm0)).placeMissile
    .one (hlt o.missiles.one.position .hmm1)
  exact hmissiles.placeBall (hlt o.ball.position .hmbl)

theorem toNat_ofNat_lt {number : Nat} (h : number < columns) : (UInt8.ofNat number).toNat < columns := by
  rw [UInt8.toNat_ofNat']
  exact Nat.lt_of_le_of_lt (Nat.mod_le _ _) h

theorem Current.lock (h : o.Current) (which : Which) (value : UInt8) (release : Prop)
    [Decidable release] {position : Nat} :
    ((if release then (o.store which.resmp value).placeMissile which (UInt8.ofNat (position % columns))
      else o.store which.resmp value).refreshMissileEnable which).Current := by
  have hstored : (o.store which.resmp value).CurrentBut [.missileEnable which] := by
    cases which <;> exact CurrentBut.store h _ value
  have hlt : (UInt8.ofNat (position % columns)).toNat < columns :=
    toNat_ofNat_lt (Nat.mod_lt _ (by decide))
  split
  · have hboth : (o.store which.resmp value).CurrentBut [.missileMask which, .missileEnable which] :=
      hstored.mono _ fun _ hmem ↦ List.mem_cons_of_mem _ hmem
    exact (hboth.placeMissile which hlt).refreshMissileEnable which
  · exact hstored.refreshMissileEnable which

theorem xor_test (previous value : UInt8) :
    ((previous ^^^ value) &&& 0x08 != 0) = ((previous &&& 0x08 != 0) ^^ (value &&& 0x08 != 0)) := by
  have hbit (byte : UInt8) : (byte &&& 0x08 != 0) = byte.toBitVec[3] :=
    forall_byte (p := fun byte ↦ (byte &&& 0x08 != 0) = byte.toBitVec[3]) (by decide +kernel) byte
  rw [hbit, hbit, hbit, UInt8.toBitVec_xor, BitVec.getElem_xor]

theorem reflect_flip (plain : UInt8) (before now : Bool) :
    (if before ^^ now then Tia.reflect (if before then Tia.reflect plain else plain)
      else if before then Tia.reflect plain else plain) =
      if now then Tia.reflect plain else plain := by
  cases before <;> cases now <;> simp [reflect_reflect]

theorem reflect_if_ne_zero (plain : UInt8) (on : Bool) :
    ((if on then Tia.reflect plain else plain) != 0) = (plain != 0) := by
  cases on <;> simp [bne, beq_eq_decide, reflect_eq_zero]

/-- A change of the reflection turns the graphic around as it is. -/
theorem Current.reflect (h : o.Current) (which : Which) (value : UInt8) :
    { o.store which.refp value with
      players := o.players.modify which fun player ↦
        { player with
          graphic :=
            if (o.registers.get which.refp ^^^ value) &&& 0x08 != 0 then Tia.reflect player.graphic
            else player.graphic } }.Current := by
  let after := { o.store which.refp value with
    players := o.players.modify which fun player ↦
      { player with
        graphic :=
          if (o.registers.get which.refp ^^^ value) &&& 0x08 != 0 then Tia.reflect player.graphic
          else player.graphic } }
  have hshown : after.shownGraphic which =
      if value &&& 0x08 != 0 then Tia.reflect (o.plainGraphic which) else o.plainGraphic which := by
    have hrefp : after.registers.get which.refp = value := RegisterFile.get_set_self _ _ _
    have hvdelp : after.registers.get which.vdelp = o.registers.get which.vdelp :=
      RegisterFile.get_set_of_ne _ (by cases which <;> decide) _
    have hgrp : after.registers.get which.grp = o.registers.get which.grp :=
      RegisterFile.get_set_of_ne _ (by cases which <;> decide) _
    have hdelayed : (after.players.get which).delayed = (o.players.get which).delayed := by
      cases which <;> rfl
    simp only [shownGraphic, plainGraphic, RegisterFile.test, hrefp, hvdelp, hgrp, hdelayed]
    rfl
  have hstored : (o.store which.refp value).CurrentBut [.graphic which] := by
    cases which <;> exact CurrentBut.store h _ value
  obtain ⟨hgraphic, hmeets⟩ := h.holds (.graphic which) List.not_mem_nil
  apply hstored.refresh
  · exact h.placed.of_position (by cases which <;> intro other <;> cases other <;> rfl)
      (fun _ ↦ rfl) rfl
  · have hafter : (after.players.get which).graphic =
        if (o.registers.get which.refp ^^^ value) &&& 0x08 != 0 then
          Tia.reflect (o.players.get which).graphic
        else (o.players.get which).graphic := by
      cases which <;> rfl
    constructor
    · rw [hafter, hshown, hgraphic, xor_test]
      exact reflect_flip _ _ _
    · have henabled : o.enabled.meets which.player = (o.plainGraphic which != 0) :=
        hmeets.trans (reflect_if_ne_zero _ _)
      rw [hshown, reflect_if_ne_zero]
      exact henabled
  · intro cache hcache hholds
    cases cache with
    | graphic other =>
      cases which <;> cases other <;> first | exact absurd rfl hcache | exact hholds
    | playerMask other => cases which <;> cases other <;> exact hholds
    | _ => exact hholds

theorem CurrentBut.setModes {stale : List Cache} (h : o.CurrentBut (.modes :: stale)) :
    { o with modes := (o.registers.get .ctrlpf &&& 0x06) <<< 5 }.CurrentBut stale := by
  apply h.refresh
  · exact h.placed.of_position (fun _ ↦ rfl) (fun _ ↦ rfl) rfl
  · rfl
  · intro cache hcache hholds
    cases cache with
    | modes => exact absurd rfl hcache
    | _ => exact hholds

/-- While the star field runs less is asked of missile 0. -/
theorem Current.arm (h : o.Current) (phase : UInt8) :
    { o with starField := { armed := true, phase := phase } }.Current := by
  apply (h.mono_nil [.missileMask .zero]).refresh
  · exact h.placed.of_position (fun _ ↦ rfl) (fun _ ↦ rfl) rfl
  · obtain ⟨hshows, hhidden⟩ := h.holds (.missileMask .zero) List.not_mem_nil
    constructor
    · intro mask hmask
      obtain ⟨size, hsize | ⟨hzero, -, hsize⟩, hmask⟩ := hshows mask hmask
      · exact ⟨size, .inl hsize, hmask⟩
      · exact ⟨size, .inr ⟨hzero, rfl, hsize⟩, hmask⟩
    · intro hnone
      exact ⟨rfl, rfl⟩
  · intro cache hcache hholds
    cases cache with
    | missileMask which =>
      cases which
      · exact absurd rfl hcache
      · exact HoldsMissile.of_starField rfl hholds
    | _ => exact hholds

theorem CurrentBut.delayPlayer {stale : List Cache} (h : o.CurrentBut stale) (which : Which)
    (delayed : UInt8) :
    { o with
      players := o.players.modify which fun player ↦
        { player with delayed := delayed } }.CurrentBut (.graphic which :: stale) := by
  apply h.spoil
  · exact h.placed.of_position (by cases which <;> intro other <;> cases other <;> rfl)
      (fun _ ↦ rfl) rfl
  · intro cache hcache hholds
    cases cache with
    | graphic other =>
      cases which <;> cases other <;> first | exact absurd rfl hcache | exact hholds
    | playerMask other => cases which <;> cases other <;> exact hholds
    | _ => exact hholds

theorem CurrentBut.delayBall {stale : List Cache} (h : o.CurrentBut stale) (delayed : Bool) :
    { o with ball := { o.ball with delayed := delayed } }.CurrentBut (.ballEnable :: stale) := by
  apply h.spoil
  · exact h.placed.of_position (fun _ ↦ rfl) (fun _ ↦ rfl) rfl
  · intro cache hcache hholds
    cases cache with
    | ballEnable => exact absurd rfl hcache
    | _ => exact hholds

end Actions

end Objects

end Vcs.Tia
