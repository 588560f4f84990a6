import Ebdr.Windows.Volume

/-!
# The Windows filter: the grains a write marks

`atdr_find_pos` compares a 64-bit sector with a product taken in 32 bits, and `atdr_set_bits` counts
in `int`s. A write is marked whole as long as the first grain it touches ends below sector `2 ^ 32`
and the search for its end stays below `INT_MAX`; `atdrFltWrite_marks` says that it is not otherwise.
Bits are counted from `bitmap_area`, past the end of its half too: whether they lie inside is the
matter of `live_bitmap`.
-/

namespace Ebdr

namespace Windows

namespace Volume

open ByteMem CInt

/-- The sectors of a grain, `grain_size >> 9`. -/
def sectors (v : Volume) : Nat := v.grainSize >>> 9

/-- Grain `x` holds a byte of the write. -/
def Touched (v : Volume) (byteOffset length x : Nat) : Prop :=
  ∃ byte, byteOffset ≤ byte ∧ byte < byteOffset + length ∧
    x * v.sectors * 512 ≤ byte ∧ byte < (x + 1) * v.sectors * 512

/-- A write of a tracked volume inside its grains. The offset of its end is a `LONGLONG`. -/
structure WriteInside (v : Volume) (byteOffset length : Nat) : Prop where
  tracking : v.trackingEnabled = true
  grainSize : 512 ≤ v.grainSize ∧ v.grainSize < 2 ^ 32
  totalNumBits : v.totalNumBits < 2 ^ 32
  lengths : 1 ≤ length ∧ length < 2 ^ 32
  inside : byteOffset + length ≤ v.totalNumBits * v.sectors * 512
  offset : byteOffset + length < 2 ^ 63

/-- Bit `x` from `bitmap_area`, which is at `off` in `block`. -/
def bitAt (v : Volume) (block off x : Nat) : Bool := bit (v.mem block) (8 * off + x)

/-- The volume with other contents of the pool. -/
def withMem (v : Volume) (mem : Nat → Mem) : Volume := { v with mem := mem }

/-- After the write, the bit of every grain it touches is set. -/
def MarksTouched (v : Volume) (block off byteOffset length : Nat) : Prop :=
  ∃ v', v.atdrFltWrite byteOffset length = some v' ∧
    ∀ x, v.Touched byteOffset length x → v'.bitAt block off x = true

/-- The grain of the write's first byte ends below sector `2 ^ 32`. -/
def FirstFits (v : Volume) (byteOffset : Nat) : Prop :=
  (byteOffset >>> 9 / v.sectors + 1) * v.sectors < 2 ^ 32

/-- There are fewer than `INT_MAX` bits, or one of that many ends, in 32 bits, beyond the write. -/
def EndFits (v : Volume) (byteOffset length : Nat) : Prop :=
  v.totalNumBits < 2 ^ 31 - 1 ∨
    ∃ k < 2 ^ 31 - 1, (byteOffset + length) >>> 9 < uint ((k + 1) * v.sectors)

section

variable {v : Volume} {byteOffset length : Nat}

/-! ### The grains of a write -/

theorem WriteInside.sectors_pos (h : v.WriteInside byteOffset length) : 0 < v.sectors := by
  have := h.grainSize.1
  unfold sectors
  rw [Nat.shiftRight_eq_div_pow]
  omega

theorem WriteInside.sectors_lt (h : v.WriteInside byteOffset length) : v.sectors < 2 ^ 23 := by
  have := h.grainSize.2
  unfold sectors
  rw [Nat.shiftRight_eq_div_pow]
  omega

/-- The grain of the write's last byte. -/
def lastGrain (v : Volume) (byteOffset length : Nat) : Nat :=
  (byteOffset + length - 1) >>> 9 / v.sectors

theorem WriteInside.touched_iff (h : v.WriteInside byteOffset length) (x : Nat) :
    v.Touched byteOffset length x ↔
      byteOffset >>> 9 / v.sectors ≤ x ∧ x ≤ v.lastGrain byteOffset length := by
  have hg := h.sectors_pos
  have hl := h.lengths.1
  have hfirst : byteOffset >>> 9 / v.sectors ≤ x ↔ byteOffset < (x + 1) * v.sectors * 512 := by
    have hdiv : byteOffset >>> 9 / v.sectors < x + 1 ↔ byteOffset >>> 9 < (x + 1) * v.sectors :=
      Nat.div_lt_iff_lt_mul hg
    rw [Nat.shiftRight_eq_div_pow] at hdiv ⊢
    omega
  have hlast : x ≤ v.lastGrain byteOffset length ↔
      x * v.sectors * 512 ≤ byteOffset + length - 1 := by
    have hdiv : x ≤ v.lastGrain byteOffset length ↔
        x * v.sectors ≤ (byteOffset + length - 1) >>> 9 := Nat.le_div_iff_mul_le hg
    rw [Nat.shiftRight_eq_div_pow] at hdiv
    omega
  have hstep : x * v.sectors < (x + 1) * v.sectors := Nat.mul_lt_mul_of_pos_right (by omega) hg
  rw [hfirst, hlast]
  constructor
  · rintro ⟨byte, h1, h2, h3, h4⟩
    omega
  · rintro ⟨h1, h2⟩
    exact ⟨max byteOffset (x * v.sectors * 512), by omega, by omega, by omega, by omega⟩

theorem WriteInside.first_le_last (h : v.WriteInside byteOffset length) :
    byteOffset >>> 9 / v.sectors ≤ v.lastGrain byteOffset length := by
  have hl := h.lengths.1
  apply Nat.div_le_div_right
  rw [Nat.shiftRight_eq_div_pow, Nat.shiftRight_eq_div_pow]
  omega

theorem WriteInside.lastGrain_lt (h : v.WriteInside byteOffset length) :
    v.lastGrain byteOffset length < v.totalNumBits := by
  have hin := h.inside
  have hl := h.lengths.1
  unfold lastGrain
  rw [Nat.div_lt_iff_lt_mul h.sectors_pos, Nat.shiftRight_eq_div_pow]
  omega

/-! ### What the searches find -/

theorem uint_le (x : Nat) : uint x ≤ x := Nat.mod_le _ _

theorem WriteInside.lastGrain_le (h : v.WriteInside byteOffset length) :
    v.lastGrain byteOffset length ≤ v.atdrFindPos ((byteOffset + length) >>> 9) := by
  by_contra hlt
  have hbits := h.lastGrain_lt
  have hl := h.lengths.1
  rcases (v.atdrFindPos_lt_iff _ _).mp (Nat.not_le.mp hlt) with hend | ⟨k, hk, hfound⟩
  · omega
  · have hmul : (k + 1) * v.sectors ≤ v.lastGrain byteOffset length * v.sectors :=
      Nat.mul_le_mul_right _ hk
    have hstart : v.lastGrain byteOffset length * v.sectors ≤ (byteOffset + length - 1) >>> 9 :=
      Nat.div_mul_le_self _ _
    have hcut := uint_le ((k + 1) * v.sectors)
    have hfound' : (byteOffset + length) >>> 9 < uint ((k + 1) * v.sectors) := hfound
    rw [Nat.shiftRight_eq_div_pow] at hstart hfound'
    omega

/-- While the first grain's end fits, the search for the start stops there at the latest. -/
theorem WriteInside.first_le (h : v.WriteInside byteOffset length)
    (hfit : v.FirstFits byteOffset) :
    v.atdrFindPos (byteOffset >>> 9) ≤ byteOffset >>> 9 / v.sectors := by
  apply Nat.le_of_lt_succ
  apply (v.atdrFindPos_lt_iff _ _).mpr
  refine Or.inr ⟨byteOffset >>> 9 / v.sectors, Nat.lt_succ_self _, ?_⟩
  show byteOffset >>> 9 < uint ((byteOffset >>> 9 / v.sectors + 1) * v.sectors)
  have hcut : uint ((byteOffset >>> 9 / v.sectors + 1) * v.sectors) =
      (byteOffset >>> 9 / v.sectors + 1) * v.sectors := Nat.mod_eq_of_lt hfit
  rw [hcut, ← Nat.div_lt_iff_lt_mul h.sectors_pos]
  exact Nat.lt_succ_self _

/-- Once that end wraps, the search for the start passes every grain of the write. -/
theorem WriteInside.last_lt_first (h : v.WriteInside byteOffset length)
    (hwrap : ¬ v.FirstFits byteOffset) :
    v.lastGrain byteOffset length < v.atdrFindPos (byteOffset >>> 9) := by
  have hg := h.sectors_pos
  have hg' := h.sectors_lt
  have hl := h.lengths
  have hbits := h.lastGrain_lt
  by_contra hle
  have hlt : v.atdrFindPos (byteOffset >>> 9) < v.lastGrain byteOffset length + 1 := by omega
  rcases (v.atdrFindPos_lt_iff _ _).mp hlt with hend | ⟨k, hk, hfound⟩
  · omega
  · have hfound' : byteOffset >>> 9 < uint ((k + 1) * v.sectors) := hfound
    have hstart : byteOffset >>> 9 / v.sectors * v.sectors ≤ byteOffset >>> 9 :=
      Nat.div_mul_le_self _ _
    have hcut := uint_le ((k + 1) * v.sectors)
    rcases Nat.lt_or_ge k (byteOffset >>> 9 / v.sectors) with hbefore | hafter
    · have hmul : (k + 1) * v.sectors ≤ byteOffset >>> 9 / v.sectors * v.sectors :=
        Nat.mul_le_mul_right _ hbefore
      omega
    · -- the ends from there to the last grain lie between `2 ^ 32` and `2 ^ 33`
      have hlow : (byteOffset >>> 9 / v.sectors + 1) * v.sectors ≤ (k + 1) * v.sectors :=
        Nat.mul_le_mul_right _ (by omega)
      have hhigh : (k + 1) * v.sectors ≤ (v.lastGrain byteOffset length + 1) * v.sectors :=
        Nat.mul_le_mul_right _ hk
      have hlast : v.lastGrain byteOffset length * v.sectors ≤ (byteOffset + length - 1) >>> 9 :=
        Nat.div_mul_le_self _ _
      have hsucc : (v.lastGrain byteOffset length + 1) * v.sectors =
          v.lastGrain byteOffset length * v.sectors + v.sectors := Nat.succ_mul _ _
      have hge : 2 ^ 32 ≤ (byteOffset >>> 9 / v.sectors + 1) * v.sectors := Nat.not_lt.mp hwrap
      unfold uint at hfound'
      rw [Nat.shiftRight_eq_div_pow] at hfound' hlast
      omega

/-! ### What the write sets -/

theorem endFits_iff : v.EndFits byteOffset length ↔
    v.atdrFindPos ((byteOffset + length) >>> 9) < 2 ^ 31 - 1 :=
  (v.atdrFindPos_lt_iff _ _).symm

/-- While the search for the end stays below `INT_MAX`, the bits from the one position to the other
are set. -/
theorem WriteInside.write_sets (h : v.WriteInside byteOffset length) {block off : Nat}
    (harea : v.bitmapArea = .inside block off) (hend : v.EndFits byteOffset length) :
    ∃ v', v.atdrFltWrite byteOffset length = some v' ∧
      ∀ x, v'.bitAt block off x = true ↔ v.bitAt block off x = true ∨
        (v.atdrFindPos (byteOffset >>> 9) ≤ x ∧
          x ≤ v.atdrFindPos ((byteOffset + length) >>> 9)) := by
  have hlast := endFits_iff.mp hend
  rw [atdrFltWrite, if_pos h.tracking]
  dsimp only
  rw [atdrSetBits]
  dsimp only
  rw [harea]
  dsimp only
  rw [if_pos hlast]
  refine ⟨_, rfl, ?_⟩
  intro x
  unfold bitAt
  dsimp only
  rw [Function.update_self, bit_setBits (by decide), Bool.or_eq_true, decide_eq_true_iff, or_comm]
  apply or_congr_right
  omega

theorem write_leaves {v' : Volume} {block off : Nat} (hend : ¬ v.EndFits byteOffset length)
    (hw : v.atdrFltWrite byteOffset length = some v') (x : Nat) :
    v'.bitAt block off x = v.bitAt block off x := by
  have hlast : ¬ v.atdrFindPos ((byteOffset + length) >>> 9) < 2 ^ 31 - 1 :=
    fun hlt => hend (endFits_iff.mpr hlt)
  unfold atdrFltWrite at hw
  split at hw
  · dsimp only at hw
    unfold atdrSetBits at hw
    dsimp only at hw
    split at hw
    · cases hw
    · rw [if_neg hlast, Option.ite_none_left_eq_some] at hw
      rw [← Option.some.inj hw.2]
      rfl
  · rw [← Option.some.inj hw]

/-- A write whose first grain and whose end fit is marked whole. -/
theorem WriteInside.marks_of_fits (h : v.WriteInside byteOffset length) {block off : Nat}
    (harea : v.bitmapArea = .inside block off) (hfirst : v.FirstFits byteOffset)
    (hend : v.EndFits byteOffset length) : v.MarksTouched block off byteOffset length := by
  obtain ⟨v', hw, hbits⟩ := h.write_sets harea hend
  refine ⟨v', hw, ?_⟩
  intro x hx
  have hrange := (h.touched_iff x).mp hx
  have hle := h.first_le hfirst
  have hge := h.lastGrain_le
  exact (hbits x).mpr (Or.inr (by omega))

/-- A write whose first grain does not fit sets the bit of no grain it touches. -/
theorem WriteInside.unmarked (h : v.WriteInside byteOffset length) {v' : Volume} {block off : Nat}
    (harea : v.bitmapArea = .inside block off) (hfirst : ¬ v.FirstFits byteOffset)
    (hw : v.atdrFltWrite byteOffset length = some v') {x : Nat}
    (hx : v.Touched byteOffset length x) : v'.bitAt block off x = v.bitAt block off x := by
  by_cases hend : v.EndFits byteOffset length
  · obtain ⟨v'', hw', hbits⟩ := h.write_sets harea hend
    rw [hw, Option.some.injEq] at hw'
    have hpast := h.last_lt_first hfirst
    have hle := ((h.touched_iff x).mp hx).2
    rw [hw', Bool.eq_iff_iff, hbits x]
    apply or_iff_left
    omega
  · exact write_leaves hend hw x

theorem WriteInside.withMem (h : v.WriteInside byteOffset length) (mem : Nat → Mem) :
    (v.withMem mem).WriteInside byteOffset length :=
  ⟨h.tracking, h.grainSize, h.totalNumBits, h.lengths, h.inside, h.offset⟩

/-- **Which writes are marked whole.** Whatever the bitmap holds, every touched grain's bit is set
after the write, exactly when the write's first grain ends below sector `2 ^ 32` and the search for
its end stays below `INT_MAX`. With fewer bits than `INT_MAX`, a write whose first grain does not fit
is marked just if all its bits were set before. -/
theorem atdrFltWrite_marks {block off : Nat} (h : v.WriteInside byteOffset length)
    (harea : v.bitmapArea = .inside block off) :
    ((∀ mem, (v.withMem mem).MarksTouched block off byteOffset length) ↔
        v.FirstFits byteOffset ∧ v.EndFits byteOffset length) ∧
      (v.totalNumBits < 2 ^ 31 - 1 →
        (v.MarksTouched block off byteOffset length ↔ v.FirstFits byteOffset ∨
          ∀ x, v.Touched byteOffset length x → v.bitAt block off x = true)) := by
  constructor
  · constructor
    · intro hall
      -- in a clear bitmap the bit of the last grain has to be set by this write
      obtain ⟨v', hw, hbits⟩ := hall fun _ _ => 0
      have hlast : v.Touched byteOffset length (v.lastGrain byteOffset length) :=
        (h.touched_iff _).mpr ⟨h.first_le_last, le_refl _⟩
      have hset := hbits _ hlast
      have hclear : (v.withMem fun _ _ => 0).bitAt block off (v.lastGrain byteOffset length) =
          false := by simp [bitAt, Volume.withMem, bit]
      constructor
      · by_contra hfirst
        rw [(h.withMem fun _ _ => 0).unmarked harea hfirst hw hlast, hclear] at hset
        cases hset
      · by_contra hend
        rw [write_leaves (v := v.withMem fun _ _ => 0) hend hw, hclear] at hset
        cases hset
    · rintro ⟨hfirst, hend⟩ mem
      exact (h.withMem mem).marks_of_fits harea hfirst hend
  · intro hbits
    have hend : v.EndFits byteOffset length := Or.inl hbits
    constructor
    · rintro ⟨v', hw, hset⟩
      by_cases hfirst : v.FirstFits byteOffset
      · exact Or.inl hfirst
      · refine Or.inr fun x hx => ?_
        rw [← h.unmarked harea hfirst hw hx]
        exact hset x hx
    · rintro (hfirst | hold)
      · exact h.marks_of_fits harea hfirst hend
      · obtain ⟨v', hw, hset⟩ := h.write_sets harea hend
        exact ⟨v', hw, fun x hx => (hset x).mpr (Or.inl (hold x hx))⟩

end

/-- A tracked volume of 2048 grains of 2 GiB: its sectors go up to `2 ^ 33`. -/
def largeVolume : Volume :=
  ⟨.inside 0 0, .inside 0 0, .inside 0 256, 256, 2 ^ 31, 2048, .kernel, true,
    fun _ => some 512, fun _ _ => 0, 1, [], []⟩

/-- A write of one sector in its second grain. -/
theorem atdrFltWrite_marks_sample : largeVolume.MarksTouched 0 0 (2 ^ 31) 512 :=
  ((@atdrFltWrite_marks largeVolume _ _ 0 0
    ⟨rfl, by decide, by decide, by decide, by decide, by decide⟩ rfl).1.mpr
    ⟨by unfold FirstFits; decide, Or.inl (by decide)⟩) _

/-- A write of one sector in grain 1023, which ends at sector `2 ^ 32`, is not marked. -/
theorem large_volume_unmarked :
    ¬ ∀ (v : Volume) (block off byteOffset length : Nat), v.WriteInside byteOffset length →
      v.bitmapArea = .inside block off → v.MarksTouched block off byteOffset length := by
  intro hall
  have hw : largeVolume.WriteInside (1023 * 2 ^ 31) 512 :=
    ⟨rfl, by decide, by decide, by decide, by decide, by decide⟩
  have hfirst : ¬ largeVolume.FirstFits (1023 * 2 ^ 31) := by
    unfold FirstFits
    decide
  obtain ⟨v', hsome, hset⟩ := hall largeVolume 0 0 _ _ hw rfl
  have htouched : largeVolume.Touched (1023 * 2 ^ 31) 512 1023 :=
    (hw.touched_iff _).mpr (by decide)
  have hbit := hset 1023 htouched
  rw [hw.unmarked rfl hfirst hsome htouched] at hbit
  revert hbit
  decide

end Volume

end Windows

end Ebdr
