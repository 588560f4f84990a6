import Ebdr.Kernel.Device
import Ebdr.Lib.Loop

/-!
# The loop of the position search

`ebdr_find_pos` looks at one bit after the other, and multiplies anew for each of them to find the end
of its grain. Here is the loop with the 64-bit words of the code. `ebdrFindPos_of_loop` says that it
comes to an end for every bitmap and every sector, with the position that `ebdrFindPos` gives;
`findPos_clamped` says what this position is while the bitmap ends at a 64-bit sector.
-/

namespace Ebdr

open CInt

/-- The variables of `ebdr_find_pos`. -/
structure FindPos where
  addr : UInt64
  numBits : UInt64
  /-- The global `grain_size`, stored before the loop. -/
  grainSize : UInt64
  cur : UInt64
  deriving DecidableEq, Repr

namespace FindPos

/-- Before the loop, for a bitmap of `numBits` bits with grains of `grainSize` bytes. -/
def entry (numBits grainSize addr : UInt64) : FindPos := ⟨addr, numBits, grainSize, 0⟩

/-- A pass of the loop, with its test: the variables of the next pass, or the value returned. -/
def pass (f : FindPos) : FindPos ⊕ UInt64 :=
  if f.cur < f.numBits then
    if f.addr < (f.cur + 1) * (f.grainSize >>> (9 : UInt64)) then .inr f.cur
    else .inl { f with cur := f.cur + 1 }
  else .inr (f.numBits - 1)

/-- Before a pass: no grain of the bits looked at ends after the sector. -/
structure Searching (b : EbdrBitmap) (sector : Nat) (f : FindPos) : Prop where
  addr : f.addr.toNat = sector
  numBits : f.numBits.toNat = b.bitmapSize
  grainSize : f.grainSize.toNat = b.grainSize
  cur_le : f.cur.toNat ≤ b.bitmapSize
  before : ∀ c < f.cur.toNat, ¬ sector < ulong ((c + 1) * (b.grainSize >>> 9))

variable {b : EbdrBitmap} {sector : Nat} {f f' : FindPos}

theorem toNat_sectors (grainSize : UInt64) :
    (grainSize >>> (9 : UInt64)).toNat = grainSize.toNat >>> 9 :=
  UInt64.toNat_shiftRight _ _

theorem toNat_grainEnd (f : FindPos) :
    ((f.cur + 1) * (f.grainSize >>> (9 : UInt64))).toNat =
      ulong ((f.cur.toNat + 1) * (f.grainSize.toNat >>> 9)) := by
  rw [UInt64.toNat_mul, UInt64.toNat_add, toNat_sectors, Nat.mod_mul_mod]
  rfl

/-- **Step lemma.** A pass that goes on has one bit less to look at. -/
theorem Searching.next (h : Searching b sector f) (hpass : f.pass = .inl f') :
    Searching b sector f' ∧ b.bitmapSize - f'.cur.toNat < b.bitmapSize - f.cur.toNat := by
  unfold pass at hpass
  split at hpass
  · rename_i hcur
    split at hpass
    · exact absurd hpass Sum.inr_ne_inl
    · rename_i hend
      rw [UInt64.lt_iff_toNat_lt, h.numBits] at hcur
      rw [UInt64.lt_iff_toNat_lt, toNat_grainEnd, h.addr, h.grainSize] at hend
      have hlt := f.numBits.toNat_lt
      rw [h.numBits] at hlt
      -- the counter does not wrap
      have hsucc : (f.cur + 1).toNat = f.cur.toNat + 1 := by
        rw [UInt64.toNat_add, UInt64.toNat_one]
        omega
      rw [← Sum.inl.inj hpass]
      refine ⟨⟨h.addr, h.numBits, h.grainSize, ?_, ?_⟩, ?_⟩
      · dsimp only
        omega
      · intro c hc
        dsimp only at hc
        by_cases hcc : c = f.cur.toNat
        · rwa [hcc]
        · exact h.before c (by omega)
      · dsimp only
        omega
  · exact absurd hpass Sum.inr_ne_inl

/-- **Step lemma.** A pass that returns has the position. -/
theorem Searching.done {r : UInt64} (h : Searching b sector f) (hpass : f.pass = .inr r) :
    r.toNat = ebdrFindPos b sector := by
  have hlt := f.numBits.toNat_lt
  rw [h.numBits] at hlt
  unfold pass at hpass
  split at hpass
  · rename_i hcur
    rw [UInt64.lt_iff_toNat_lt, h.numBits] at hcur
    split at hpass
    · rename_i hend
      rw [UInt64.lt_iff_toNat_lt, toNat_grainEnd, h.addr, h.grainSize] at hend
      rw [← Sum.inr.inj hpass]
      exact (ebdrFindPos_of_first (by omega) hcur h.before (Or.inr hend)).symm
    · exact absurd hpass Sum.inl_ne_inr
  · rename_i hcur
    rw [UInt64.lt_iff_toNat_lt, h.numBits] at hcur
    have hnone : (List.range b.bitmapSize).find? (fun cur =>
        decide (sector < ulong ((cur + 1) * (b.grainSize >>> 9)))) = none := by
      rw [List.find?_range_eq_none]
      intro c hc
      rw [decide_eq_false (h.before c (by omega))]
      rfl
    have hlast : (f.numBits - 1).toNat = ulong (b.bitmapSize + (2 ^ 64 - 1)) := by
      rw [UInt64.toNat_sub, h.numBits, UInt64.toNat_one, Nat.add_comm]
      rfl
    rw [← Sum.inr.inj hpass, hlast]
    unfold ebdrFindPos
    rw [hnone, Option.getD_none]

theorem Searching.entry {numBits grainSize addr : UInt64} (hsize : numBits.toNat = b.bitmapSize)
    (hgrain : grainSize.toNat = b.grainSize) :
    Searching b addr.toNat (entry numBits grainSize addr) where
  addr := rfl
  numBits := hsize
  grainSize := hgrain
  cur_le := Nat.zero_le _
  before := fun c hc => absurd hc (Nat.not_lt_zero c)

/-- **The loop of every bitmap returns**, and with the position of `ebdrFindPos`. -/
theorem ebdrFindPos_of_loop {numBits grainSize : UInt64} (hsize : numBits.toNat = b.bitmapSize)
    (hgrain : grainSize.toNat = b.grainSize) (addr : UInt64) {n : Nat} (hn : b.bitmapSize < n) :
    ∃ r, Loop.runFor pass n (FindPos.entry numBits grainSize addr) = some r ∧
      r.toNat = ebdrFindPos b addr.toNat :=
  Loop.runFor_of_variant (fun _ _ h hpass => h.next hpass) (fun _ _ h hpass => h.done hpass)
    (Searching.entry hsize hgrain) hn

/-! ### A clamped division -/

/-- `ebdr_find_pos` returns `r`. -/
def Finds (numBits grainSize addr r : UInt64) : Prop :=
  Loop.Returns pass (FindPos.entry numBits grainSize addr) r

section

variable {numBits grainSize addr r : UInt64}

theorem finds_iff (hsize : numBits.toNat = b.bitmapSize) (hgrain : grainSize.toNat = b.grainSize) :
    Finds numBits grainSize addr r ↔ r.toNat = ebdrFindPos b addr.toNat := by
  obtain ⟨r', hrun, hpos⟩ := ebdrFindPos_of_loop hsize hgrain addr (Nat.lt_succ_self b.bitmapSize)
  have hfinds : Finds numBits grainSize addr r' := ⟨_, hrun⟩
  constructor
  · intro h
    rw [Loop.Returns.unique h hfinds, hpos]
  · intro h
    rw [← hpos, UInt64.toNat_inj] at h
    rwa [h]

theorem finds_iff_clamped (hgrain : 512 ≤ grainSize) (hbits : 1 ≤ numBits)
    (hfit : numBits.toNat * (grainSize.toNat >>> 9) < 2 ^ 64) :
    Finds numBits grainSize addr r ↔ r = min (addr / (grainSize >>> 9)) (numBits - 1) := by
  let b : EbdrBitmap := ⟨none, numBits.toNat, grainSize.toNat, .kernel⟩
  have hg : 0 < grainSize.toNat >>> 9 := by
    have hge : 512 ≤ grainSize.toNat := hgrain
    rw [Nat.shiftRight_eq_div_pow]
    omega
  rw [finds_iff (b := b) rfl rfl, ebdrFindPos_eq (b := b) hbits hg hfit, ← UInt64.toNat_inj,
    UInt64.toNat_min, UInt64.toNat_div, toNat_sectors, UInt64.toNat_sub_of_le _ _ hbits,
    UInt64.toNat_one]

/-- **The search is a clamped division** while the bitmap ends at a 64-bit sector: the loop returns,
and with the bit of the sector's grain or the last bit. So a later sector has no smaller position, and
every position is a bit of the half. -/
theorem findPos_clamped (hgrain : 512 ≤ grainSize) (hbits : 1 ≤ numBits)
    (hfit : numBits.toNat * (grainSize.toNat >>> 9) < 2 ^ 64) :
    (∀ addr, Finds numBits grainSize addr (min (addr / (grainSize >>> 9)) (numBits - 1))) ∧
      (∀ addr addr' r r', addr ≤ addr' → Finds numBits grainSize addr r →
        Finds numBits grainSize addr' r' → r ≤ r') ∧
      ∀ addr r, Finds numBits grainSize addr r → r < numBits := by
  have hiff : ∀ {addr r : UInt64}, Finds numBits grainSize addr r ↔
      r = min (addr / (grainSize >>> 9)) (numBits - 1) := finds_iff_clamped hgrain hbits hfit
  refine ⟨fun addr => hiff.mpr rfl, ?_, ?_⟩
  · intro addr addr' r r' hle h h'
    rw [hiff.mp h, hiff.mp h', UInt64.le_iff_toNat_le, UInt64.toNat_min, UInt64.toNat_min,
      UInt64.toNat_div, UInt64.toNat_div]
    have hdiv : addr.toNat / (grainSize >>> 9).toNat ≤ addr'.toNat / (grainSize >>> 9).toNat :=
      Nat.div_le_div_right hle
    omega
  · intro addr r h
    have hbits' : 1 ≤ numBits.toNat := hbits
    rw [hiff.mp h, UInt64.lt_iff_toNat_lt, UInt64.toNat_min, UInt64.toNat_sub_of_le _ _ hbits,
      UInt64.toNat_one]
    omega

/-- Sixteen bits with grains of a page: sector 20 lies in grain 2, sector 1000 behind the last. -/
theorem findPos_clamped_pageGrains :
    Finds 16 4096 20 2 ∧ Finds 16 4096 1000 15 :=
  have h := @findPos_clamped 16 4096 (by decide) (by decide) (by decide)
  ⟨h.1 20, h.1 1000⟩

end

end FindPos

end Ebdr
