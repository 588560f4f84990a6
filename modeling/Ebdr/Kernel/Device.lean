import Ebdr.Lib.ByteMemory
import Ebdr.Lib.CInt
import Mathlib.Logic.Function.Basic
import Mathlib.Data.List.Basic

/-!
# The kernel module: devices and bitmaps

`device[MAX_MINOR]` is indexed by minor number, as are `vmalloc_area` and `vmalloc_area_sz`. A
device's `bitmap` points to a `struct ebdr_bitmap` allocated with `kzalloc`; the global `bitmap`
points to the one allocated last, so a device and the global can name the same struct. Structs and
vmalloc areas are kept by address in `bitmaps`, `mem` and `areaBytes`, and `fresh` is the next
address never handed out. Each device's area holds two halves: the kernel sets bits in the half
`bitmap_area` points to, and the daemon maps the whole area.

A step that would dereference `NULL`, index outside a table or write outside an area has no
meaning: its result is `none`.
-/

namespace Ebdr

open ByteMem CInt

/-- `MAX_MINOR`, the length of the device tables. -/
def maxMinor : Nat := 64

/-- `enum { KERNEL, USER }`: which half of the area the kernel writes. -/
inductive BmapUser where
  | kernel
  | user
  deriving DecidableEq, Repr

/-- The two halves of a device's area. -/
inductive Half where
  | first
  | second
  deriving DecidableEq, Repr

namespace Half

def other : Half → Half
  | .first => .second
  | .second => .first

@[simp] theorem other_other (h : Half) : h.other.other = h := by cases h <;> rfl

theorem other_ne (h : Half) : h.other ≠ h := by cases h <;> decide

end Half

namespace BmapUser

/-- The half that the kernel writes. -/
def half : BmapUser → Half
  | .kernel => .first
  | .user => .second

def other : BmapUser → BmapUser
  | .kernel => .user
  | .user => .kernel

@[simp] theorem half_other (u : BmapUser) : u.other.half = u.half.other := by cases u <;> rfl

end BmapUser

/-- A byte address inside a vmalloc area. -/
structure Ptr where
  area : Nat
  off : Nat
  deriving DecidableEq, Repr

/-- `struct ebdr_bitmap`. -/
structure EbdrBitmap where
  bitmapArea : Option Ptr
  /-- In bits. -/
  bitmapSize : Nat
  /-- In bytes. -/
  grainSize : Nat
  bmapUser : BmapUser
  deriving DecidableEq, Repr

/-- `struct ebdr_device`. -/
structure EbdrDevice where
  diskName : List UInt8
  bitmap : Option Nat
  deriving DecidableEq, Repr

/-- The module's globals and the memory behind its pointers. -/
structure Kernel where
  minor : Nat
  device : Nat → EbdrDevice
  bitmap : Option Nat
  vmallocArea : Nat → Option Nat
  vmallocAreaSz : Nat → Nat
  bitmaps : Nat → EbdrBitmap
  areaBytes : Nat → Nat
  mem : Nat → Mem
  fresh : Nat

/-- The fields of a `struct bio` that the driver reads. -/
structure Bio where
  /-- `bi_sector`. -/
  biSector : Nat
  /-- `bi_size`, in bytes. -/
  biSize : Nat
  /-- `bio_data_dir(bio) == WRITE`. -/
  isWrite : Bool
  deriving DecidableEq, Repr

namespace Kernel

/-- `device[index].bitmap`, as the struct it points to. -/
def bitmapOf (k : Kernel) (index : Nat) : Option EbdrBitmap :=
  if index < maxMinor then (k.device index).bitmap.map k.bitmaps else none

/-- Overwrite the struct at `a`. -/
def setBitmap (k : Kernel) (a : Nat) (b : EbdrBitmap) : Kernel :=
  { k with bitmaps := Function.update k.bitmaps a b }

/-- Overwrite the contents of an area. -/
def setMem (k : Kernel) (area : Nat) (m : Mem) : Kernel :=
  { k with mem := Function.update k.mem area m }

/-- The devices that `EBDRCTL_DEV_CREATE` has made: minors from 1. -/
def Created (k : Kernel) (i : Nat) : Prop := 1 ≤ i ∧ i < k.minor

instance (k : Kernel) (i : Nat) : Decidable (k.Created i) := inferInstanceAs (Decidable (_ ∧ _))

end Kernel

/-! ### Write requests -/

/-- `bio_end_sector`. -/
def bioEndSector (bio : Bio) : Nat := ulong (bio.biSector + (bio.biSize >>> 9))

/-- `ebdr_find_pos`: the first bit whose grain ends after sector `addr`, else the last bit. -/
def ebdrFindPos (b : EbdrBitmap) (addr : Nat) : Nat :=
  ((List.range b.bitmapSize).find? fun cur =>
    decide (addr < ulong ((cur + 1) * (b.grainSize >>> 9)))).getD
    (ulong (b.bitmapSize + (2 ^ 64 - 1)))

/-- `ebdr_set_bits`: `__set_bit` for every `int` from `first` to `last`, on the current half. -/
def ebdrSetBits (k : Kernel) (b : EbdrBitmap) (first last : Int) : Option Kernel :=
  if last < first then some k
  else
    b.bitmapArea.bind fun p =>
      -- `last = INT_MAX` would make the loop's counter overflow
      if 0 ≤ first ∧ last < 2 ^ 31 - 1 ∧ 8 * (p.off : Int) + last < 8 * (k.areaBytes p.area : Int) then
        some (k.setMem p.area
          (setBits 8 (k.mem p.area) p.off first.toNat (last - first + 1).toNat))
      else none

/-- The first bit `ebdr_set_bitmap` sets for a bio (an `unsigned long` passed as `int`). -/
def firstBit (b : EbdrBitmap) (bio : Bio) : Int := toInt (ebdrFindPos b bio.biSector)

/-- The last bit `ebdr_set_bitmap` sets for a bio. -/
def lastBit (b : EbdrBitmap) (bio : Bio) : Int := toInt (ebdrFindPos b (bioEndSector bio))

/-- `ebdr_set_bitmap`. -/
def ebdrSetBitmap (k : Kernel) (b : EbdrBitmap) (bio : Bio) : Option Kernel :=
  ebdrSetBits k b (firstBit b bio) (lastBit b bio)

/-- `ebdr_make_request` up to the submission to the backing device: `ebdr_update_bmap_and_sync`.
Only a created device has a request queue. -/
def ebdrMakeRequest (k : Kernel) (i : Nat) (bio : Bio) : Option Kernel :=
  if k.Created i then
    (k.bitmapOf i).bind fun b => if bio.isWrite then ebdrSetBitmap k b bio else some k
  else none

/-! ### The bit range of a request -/

theorem ulong_last {n : Nat} (h0 : 0 < n) (h1 : n ≤ 2 ^ 64) : ulong (n + (2 ^ 64 - 1)) = n - 1 := by
  unfold ulong
  omega

theorem ebdrFindPos_lt {b : EbdrBitmap} (h0 : 0 < b.bitmapSize) (h1 : b.bitmapSize ≤ 2 ^ 64)
    (addr : Nat) : ebdrFindPos b addr < b.bitmapSize := by
  unfold ebdrFindPos
  cases h : (List.range b.bitmapSize).find? _ with
  | some cur => exact List.mem_range.mp (List.mem_of_find?_eq_some h)
  | none =>
    rw [Option.getD_none, ulong_last h0 h1]
    omega

/-- The search answers `q` when no grain before `q` ends after `addr`, and `q` is the last bit or its
grain does. -/
theorem ebdrFindPos_of_first {b : EbdrBitmap} {addr q : Nat} (h1 : b.bitmapSize ≤ 2 ^ 64)
    (hq : q < b.bitmapSize)
    (hbefore : ∀ cur < q, ¬ addr < ulong ((cur + 1) * (b.grainSize >>> 9)))
    (hlast : q + 1 = b.bitmapSize ∨ addr < ulong ((q + 1) * (b.grainSize >>> 9))) :
    ebdrFindPos b addr = q := by
  unfold ebdrFindPos
  cases h : (List.range b.bitmapSize).find? _ with
  | some cur =>
    obtain ⟨hp, hmem, hfirst⟩ := List.find?_range_eq_some.mp h
    rw [List.mem_range] at hmem
    have hge : q ≤ cur := by
      by_contra hlt
      exact hbefore cur (by omega) (of_decide_eq_true hp)
    have hle : cur ≤ q := by
      by_contra hlt
      rcases hlast with hend | hfound
      · omega
      · have hnot := hfirst q (by omega)
        rw [decide_eq_true hfound] at hnot
        cases hnot
    rw [Option.getD_some]
    omega
  | none =>
    have hend : q + 1 = b.bitmapSize := by
      apply hlast.resolve_right
      intro hfound
      have hnot := List.find?_range_eq_none.mp h q hq
      rw [decide_eq_true hfound] at hnot
      cases hnot
    rw [Option.getD_none, ulong_last (by omega) h1]
    omega

/-- While the end of the grain found does not wrap, **the search is a clamped division**. -/
theorem ebdrFindPos_of_fits {b : EbdrBitmap} {addr q : Nat} (h1 : b.bitmapSize ≤ 2 ^ 64)
    (hg : 0 < b.grainSize >>> 9) (hq : q < b.bitmapSize)
    (hfit : (q + 1) * (b.grainSize >>> 9) < 2 ^ 64)
    (hmin : q = min (addr / (b.grainSize >>> 9)) (b.bitmapSize - 1)) : ebdrFindPos b addr = q := by
  -- no bound up to the one of `q` wraps, and a bound lies after `addr` from its own grain on
  have htest : ∀ cur ≤ q, (addr < ulong ((cur + 1) * (b.grainSize >>> 9)) ↔
      addr / (b.grainSize >>> 9) ≤ cur) := by
    intro cur hcur
    have hle : (cur + 1) * (b.grainSize >>> 9) ≤ (q + 1) * (b.grainSize >>> 9) :=
      Nat.mul_le_mul_right _ (by omega)
    rw [ulong_of_lt (by omega), ← Nat.div_lt_iff_lt_mul hg]
    omega
  apply ebdrFindPos_of_first h1 hq
  · intro cur hcur hlt
    have hle := (htest cur (by omega)).mp hlt
    omega
  · rw [htest q (le_refl _)]
    omega

theorem ebdrFindPos_eq {b : EbdrBitmap} (h0 : 0 < b.bitmapSize) (hg : 0 < b.grainSize >>> 9)
    (hfit : b.bitmapSize * (b.grainSize >>> 9) < 2 ^ 64) (addr : Nat) :
    ebdrFindPos b addr = min (addr / (b.grainSize >>> 9)) (b.bitmapSize - 1) := by
  have hsize : b.bitmapSize < 2 ^ 64 := by
    have := Nat.le_mul_of_pos_right b.bitmapSize hg
    omega
  have hle : (min (addr / (b.grainSize >>> 9)) (b.bitmapSize - 1) + 1) * (b.grainSize >>> 9) ≤
      b.bitmapSize * (b.grainSize >>> 9) := Nat.mul_le_mul_right _ (by omega)
  exact ebdrFindPos_of_fits (by omega) hg (by omega) (by omega) rfl

theorem toInt_ebdrFindPos {b : EbdrBitmap} (h0 : 0 < b.bitmapSize) (h1 : b.bitmapSize < 2 ^ 31)
    (addr : Nat) : toInt (ebdrFindPos b addr) = ebdrFindPos b addr :=
  toInt_of_lt (lt_trans (ebdrFindPos_lt h0 (by omega) addr) h1)

theorem firstBit_mem {b : EbdrBitmap} (h0 : 0 < b.bitmapSize) (h1 : b.bitmapSize < 2 ^ 31)
    (bio : Bio) : 0 ≤ firstBit b bio ∧ firstBit b bio < b.bitmapSize := by
  unfold firstBit
  rw [toInt_ebdrFindPos h0 h1]
  have := ebdrFindPos_lt h0 (by omega) bio.biSector
  omega

theorem lastBit_mem {b : EbdrBitmap} (h0 : 0 < b.bitmapSize) (h1 : b.bitmapSize < 2 ^ 31)
    (bio : Bio) : 0 ≤ lastBit b bio ∧ lastBit b bio < b.bitmapSize := by
  unfold lastBit
  rw [toInt_ebdrFindPos h0 h1]
  have := ebdrFindPos_lt h0 (by omega) (bioEndSector bio)
  omega

/-- Inside the area, `ebdr_set_bits` sets the bits of the range in the current half and changes
nothing else. -/
theorem ebdrSetBits_spec {k : Kernel} {b : EbdrBitmap} {p : Ptr} {first last : Int}
    (hp : b.bitmapArea = some p) (h0 : 0 ≤ first) (h1 : last < 2 ^ 31 - 1)
    (hin : 8 * (p.off : Int) + last < 8 * (k.areaBytes p.area : Int)) :
    ∃ m, ebdrSetBits k b first last = some (k.setMem p.area m) ∧
      ∀ x, bit m x = (decide (8 * (p.off : Int) + first ≤ x ∧ (x : Int) ≤ 8 * p.off + last) ||
        bit (k.mem p.area) x) := by
  by_cases hlt : last < first
  · refine ⟨k.mem p.area, ?_, ?_⟩
    · rw [ebdrSetBits, if_pos hlt]
      simp [Kernel.setMem]
    · intro x
      rw [decide_eq_false (by omega), Bool.false_or]
  · refine ⟨setBits 8 (k.mem p.area) p.off first.toNat (last - first + 1).toNat, ?_, ?_⟩
    · rw [ebdrSetBits, if_neg hlt, hp, Option.bind_some, if_pos ⟨h0, h1, hin⟩]
    · intro x
      rw [bit_setBits (by decide)]
      congr 1
      exact decide_eq_decide.mpr (by omega)

end Ebdr
