import Ebdr.Kernel.Device

/-!
# The grains a write marks

`ebdr_set_bitmap` maps the first sector of a write and the sector after its last one by the same
search, and sets every bit from the one to the other. So a write that ends where a grain ends marks
the next grain too. `ebdrSetBitmap_marks` says which writes mark just the grains they touch.
-/

namespace Ebdr

open ByteMem CInt

/-- The sectors of a grain, `grain_size >> 9`. -/
def EbdrBitmap.sectors (b : EbdrBitmap) : Nat := b.grainSize >>> 9

/-- The sectors of a request, `bio_sectors`. -/
def bioSectors (bio : Bio) : Nat := bio.biSize >>> 9

/-- Grain `x` holds a sector of the request. -/
def Touched (b : EbdrBitmap) (bio : Bio) (x : Nat) : Prop :=
  ∃ sector, bio.biSector ≤ sector ∧ sector < bio.biSector + bioSectors bio ∧
    x * b.sectors ≤ sector ∧ sector < (x + 1) * b.sectors

/-- A write of at least one sector inside the bits of a bitmap with grains of at least a sector. -/
structure TrackedWrite (b : EbdrBitmap) (bio : Bio) : Prop where
  bitmapSize : b.bitmapSize < 2 ^ 64
  grainSize : 512 ≤ b.grainSize
  grainBits : b.grainSize < 2 ^ 64
  biSector : bio.biSector < 2 ^ 64
  biSize : bio.biSize < 2 ^ 32
  sectors : 1 ≤ bioSectors bio
  inside : bio.biSector + bioSectors bio ≤ b.bitmapSize * b.sectors

/-- The bits of a half at `p` lie inside its area. -/
def HalfIn (k : Kernel) (b : EbdrBitmap) (p : Ptr) : Prop :=
  8 * p.off + b.bitmapSize ≤ 8 * k.areaBytes p.area

/-- Bit `x` of the half at `p`. -/
def Kernel.bitAt (k : Kernel) (p : Ptr) (x : Nat) : Bool := bit (k.mem p.area) (8 * p.off + x)

/-- The bits set after the write are those set before it and those of the grains it touches. -/
def MarksTouched (k : Kernel) (b : EbdrBitmap) (p : Ptr) (bio : Bio) : Prop :=
  ∃ k', ebdrSetBitmap k b bio = some k' ∧
    ∀ x, k'.bitAt p x = true ↔ k.bitAt p x = true ∨ Touched b bio x

/-- The grain of the request's last sector. -/
def lastGrain (b : EbdrBitmap) (bio : Bio) : Nat := (bio.biSector + bioSectors bio - 1) / b.sectors

/-- The write ends before its last grain does, or in the last grain of the bitmap; the number of that
grain is an `int` that can still be counted past, and no sector number involved passes 64 bits. -/
structure EndsInGrain (b : EbdrBitmap) (bio : Bio) : Prop where
  int : lastGrain b bio < 2 ^ 31 - 1
  sector : bio.biSector + bioSectors bio < 2 ^ 64
  ends : lastGrain b bio + 1 = b.bitmapSize ∨
    (bio.biSector + bioSectors bio < (lastGrain b bio + 1) * b.sectors ∧
      (lastGrain b bio + 1) * b.sectors < 2 ^ 64)

/-- `q` is the first bit whose grain ends after sector `addr`, with the ends of grains cut to 64 bits,
or the last bit if there is none. -/
structure StopsAt (b : EbdrBitmap) (addr q : Nat) : Prop where
  inside : q < b.bitmapSize
  before : ∀ cur < q, ulong ((cur + 1) * b.sectors) ≤ addr
  here : q + 1 = b.bitmapSize ∨ addr < ulong ((q + 1) * b.sectors)

/-- In a bitmap of more than `2 ^ 32` bits, the first bit with an end past the write's end lies a
multiple of `2 ^ 32` after the last grain, which makes no difference to an `int`. -/
structure WrapsToGrain (b : EbdrBitmap) (bio : Bio) : Prop where
  int : lastGrain b bio < 2 ^ 31 - 1
  first : ∃ i, StopsAt b bio.biSector (bio.biSector / b.sectors + 2 ^ 32 * i)
  last : ∃ j, StopsAt b (bioEndSector bio) (lastGrain b bio + 2 ^ 32 * (j + 1))

/-- The grain after the write's last one ends at a 64-bit sector number. -/
def BeforeWrap (b : EbdrBitmap) (bio : Bio) : Prop := (lastGrain b bio + 2) * b.sectors < 2 ^ 64

/-- A bitmap of at most `2 ^ 32` bits has no room for that. -/
theorem WrapsToGrain.bits {b : EbdrBitmap} {bio : Bio} (h : WrapsToGrain b bio) :
    2 ^ 32 < b.bitmapSize := by
  obtain ⟨j, hstop⟩ := h.last
  calc 2 ^ 32 ≤ 2 ^ 32 * (j + 1) := Nat.le_mul_of_pos_right _ (Nat.succ_pos j)
    _ ≤ lastGrain b bio + 2 ^ 32 * (j + 1) := Nat.le_add_left _ _
    _ < b.bitmapSize := hstop.inside

/-! ### The grains of a write -/

section

variable {b : EbdrBitmap} {bio : Bio}

theorem TrackedWrite.sectors_pos (h : TrackedWrite b bio) : 0 < b.sectors := by
  have hg := h.grainSize
  unfold EbdrBitmap.sectors
  rw [Nat.shiftRight_eq_div_pow]
  omega

theorem TrackedWrite.sectors_lt (h : TrackedWrite b bio) : b.sectors < 2 ^ 55 := by
  have hg := h.grainBits
  unfold EbdrBitmap.sectors
  rw [Nat.shiftRight_eq_div_pow]
  omega

theorem TrackedWrite.touched_iff (h : TrackedWrite b bio) (x : Nat) :
    Touched b bio x ↔ bio.biSector / b.sectors ≤ x ∧ x ≤ lastGrain b bio := by
  have hg := h.sectors_pos
  have hn := h.sectors
  have hlast : x ≤ lastGrain b bio ↔ x * b.sectors ≤ bio.biSector + bioSectors bio - 1 :=
    Nat.le_div_iff_mul_le hg
  have hfirst : bio.biSector / b.sectors ≤ x ↔ bio.biSector < (x + 1) * b.sectors := by
    rw [← Nat.div_lt_iff_lt_mul hg]
    omega
  rw [hfirst, hlast]
  constructor
  · rintro ⟨sector, h1, h2, h3, h4⟩
    omega
  · rintro ⟨h1, h2⟩
    have hlt : x * b.sectors < (x + 1) * b.sectors := Nat.mul_lt_mul_of_pos_right (by omega) hg
    exact ⟨max bio.biSector (x * b.sectors), by omega, by omega, by omega, by omega⟩

theorem TrackedWrite.first_le_last (h : TrackedWrite b bio) :
    bio.biSector / b.sectors ≤ lastGrain b bio := by
  apply Nat.div_le_div_right
  have := h.sectors
  omega

theorem TrackedWrite.lastGrain_lt (h : TrackedWrite b bio) : lastGrain b bio < b.bitmapSize := by
  unfold lastGrain
  rw [Nat.div_lt_iff_lt_mul h.sectors_pos]
  have := h.inside
  have := h.sectors
  omega

theorem TrackedWrite.lastGrain_bounds (h : TrackedWrite b bio) :
    lastGrain b bio * b.sectors < bio.biSector + bioSectors bio ∧
      bio.biSector + bioSectors bio ≤ (lastGrain b bio + 1) * b.sectors := by
  have hn := h.sectors
  have h1 : lastGrain b bio * b.sectors ≤ bio.biSector + bioSectors bio - 1 :=
    Nat.div_mul_le_self _ _
  have h2 : bio.biSector + bioSectors bio - 1 < (lastGrain b bio + 1) * b.sectors := by
    rw [← Nat.div_lt_iff_lt_mul h.sectors_pos]
    exact Nat.lt_succ_self _
  omega

/-! ### What the search finds -/

theorem ebdrFindPos_iff (h0 : 0 < b.bitmapSize) (h1 : b.bitmapSize ≤ 2 ^ 64) {addr q : Nat} :
    ebdrFindPos b addr = q ↔ StopsAt b addr q := by
  constructor
  · rintro rfl
    unfold ebdrFindPos
    cases h : (List.range b.bitmapSize).find? _ with
    | some cur =>
      obtain ⟨hp, hmem, hfirst⟩ := List.find?_range_eq_some.mp h
      rw [Option.getD_some]
      refine ⟨List.mem_range.mp hmem, ?_, Or.inr (of_decide_eq_true hp)⟩
      intro c hc
      have hnot := hfirst c hc
      rw [Bool.not_eq_true', decide_eq_false_iff_not] at hnot
      exact Nat.not_lt.mp hnot
    | none =>
      have hnone := List.find?_range_eq_none.mp h
      rw [Option.getD_none, ulong_last h0 h1]
      refine ⟨by omega, ?_, Or.inl (by omega)⟩
      intro c hc
      have hnot := hnone c (by omega)
      rw [Bool.not_eq_true', decide_eq_false_iff_not] at hnot
      exact Nat.not_lt.mp hnot
  · intro h
    exact ebdrFindPos_of_first h1 h.inside (fun cur hcur => Nat.not_lt.mpr (h.before cur hcur)) h.here

theorem TrackedWrite.pos_eq (h : TrackedWrite b bio) {addr q : Nat} (haddr : addr < 2 ^ 64)
    (hq : q < b.bitmapSize) (hstart : q * b.sectors ≤ addr)
    (hend : q + 1 = b.bitmapSize ∨ (addr < (q + 1) * b.sectors ∧ (q + 1) * b.sectors < 2 ^ 64)) :
    ebdrFindPos b addr = q := by
  have hsize := h.bitmapSize
  apply ebdrFindPos_of_first (by omega) hq
  · intro cur hcur hlt
    have hle : (cur + 1) * b.sectors ≤ q * b.sectors := Nat.mul_le_mul_right _ hcur
    have hfit : (cur + 1) * b.sectors < 2 ^ 64 := by omega
    have hcut : ulong ((cur + 1) * b.sectors) = (cur + 1) * b.sectors := ulong_of_lt hfit
    have hlt' : addr < ulong ((cur + 1) * b.sectors) := hlt
    omega
  · apply hend.imp_right
    rintro ⟨hlt, hfit⟩
    show addr < ulong ((q + 1) * b.sectors)
    rwa [ulong_of_lt hfit]

theorem TrackedWrite.firstPos_eq (h : TrackedWrite b bio)
    (hsector : bio.biSector + bioSectors bio < 2 ^ 64)
    (hend : lastGrain b bio + 1 = b.bitmapSize ∨ (lastGrain b bio + 1) * b.sectors < 2 ^ 64) :
    ebdrFindPos b bio.biSector = bio.biSector / b.sectors := by
  have hg := h.sectors_pos
  have hle := h.first_le_last
  have hlt := h.lastGrain_lt
  have hbelow : bio.biSector < (bio.biSector / b.sectors + 1) * b.sectors := by
    rw [← Nat.div_lt_iff_lt_mul hg]
    exact Nat.lt_succ_self _
  apply h.pos_eq h.biSector (by omega) (Nat.div_mul_le_self _ _)
  rcases Nat.eq_or_lt_of_le hle with heq | hbefore
  · rw [heq] at hbelow ⊢
    exact hend.imp_right fun hfit => ⟨hbelow, hfit⟩
  · have hmul : (bio.biSector / b.sectors + 1) * b.sectors ≤ lastGrain b bio * b.sectors :=
      Nat.mul_le_mul_right _ hbefore
    have hin := h.lastGrain_bounds.1
    exact Or.inr ⟨hbelow, by omega⟩

theorem TrackedWrite.endPos_eq (h : TrackedWrite b bio) (he : EndsInGrain b bio) :
    ebdrFindPos b (bioEndSector bio) = lastGrain b bio := by
  have hend : bioEndSector bio = bio.biSector + bioSectors bio := ulong_of_lt he.sector
  rw [hend]
  exact h.pos_eq he.sector h.lastGrain_lt (le_of_lt h.lastGrain_bounds.1) he.ends

/-- Otherwise the search for the end goes on to the next grain. -/
theorem TrackedWrite.endPos_next (h : TrackedWrite b bio) (hw : BeforeWrap b bio)
    (hnot : lastGrain b bio + 1 ≠ b.bitmapSize)
    (hge : (lastGrain b bio + 1) * b.sectors ≤ bio.biSector + bioSectors bio) :
    ebdrFindPos b (bioEndSector bio) = lastGrain b bio + 1 := by
  have hg := h.sectors_pos
  have hlt := h.lastGrain_lt
  have hbound := h.lastGrain_bounds.2
  have hstep : (lastGrain b bio + 1) * b.sectors < (lastGrain b bio + 2) * b.sectors :=
    Nat.mul_lt_mul_of_pos_right (by omega) hg
  have hfit : (lastGrain b bio + 2) * b.sectors < 2 ^ 64 := hw
  have hend : bioEndSector bio = bio.biSector + bioSectors bio := by
    apply ulong_of_lt
    show bio.biSector + bioSectors bio < 2 ^ 64
    omega
  have hbelow : bio.biSector + bioSectors bio < (lastGrain b bio + 2) * b.sectors := by omega
  rw [hend]
  exact h.pos_eq (by omega) (by omega) hge (Or.inr ⟨hbelow, hfit⟩)

theorem TrackedWrite.end_lt (h : TrackedWrite b bio)
    (hs : StopsAt b (bioEndSector bio) (lastGrain b bio)) :
    bio.biSector + bioSectors bio < 2 ^ 64 := by
  by_contra hge
  have hsize := h.biSize
  have hsector := h.biSector
  have hgrain := h.sectors_lt
  have hbound := h.lastGrain_bounds.2
  have hn : bioSectors bio < 2 ^ 23 := by
    unfold bioSectors
    rw [Nat.shiftRight_eq_div_pow]
    omega
  have hend : bioEndSector bio = bio.biSector + bioSectors bio - 2 ^ 64 := by
    show ulong (bio.biSector + bioSectors bio) = _
    unfold ulong
    omega
  -- the grain of the end cut to 64 bits is one of the first, and its own end does not wrap
  have hbelow : bioEndSector bio < (bioEndSector bio / b.sectors + 1) * b.sectors := by
    rw [← Nat.div_lt_iff_lt_mul h.sectors_pos]
    exact Nat.lt_succ_self _
  have hstart : bioEndSector bio / b.sectors * b.sectors ≤ bioEndSector bio :=
    Nat.div_mul_le_self _ _
  have hfit : (bioEndSector bio / b.sectors + 1) * b.sectors < 2 ^ 64 := by
    rw [Nat.succ_mul]
    omega
  have hearlier : bioEndSector bio / b.sectors < lastGrain b bio := by
    by_contra hle
    have hmul : (lastGrain b bio + 1) * b.sectors ≤
        (bioEndSector bio / b.sectors + 1) * b.sectors := Nat.mul_le_mul_right _ (by omega)
    omega
  have hpassed := hs.before _ hearlier
  rw [ulong_of_lt hfit] at hpassed
  omega

/-- A search for the end that stops at the last grain does so for one of the reasons of
`EndsInGrain`. -/
theorem TrackedWrite.ends_of_stops (h : TrackedWrite b bio) (hint : lastGrain b bio < 2 ^ 31 - 1)
    (hs : StopsAt b (bioEndSector bio) (lastGrain b bio)) : EndsInGrain b bio := by
  have hsector := h.end_lt hs
  have hend : bioEndSector bio = bio.biSector + bioSectors bio := ulong_of_lt hsector
  refine ⟨hint, hsector, hs.here.imp_right ?_⟩
  intro hbelow
  rw [hend] at hbelow
  have hgrain := h.sectors_lt
  have hstart := h.lastGrain_bounds.1
  have hfit : (lastGrain b bio + 1) * b.sectors < 2 ^ 64 := by
    by_contra hwrap
    -- an end that wraps lies less than a grain after 0
    have hsucc : (lastGrain b bio + 1) * b.sectors = lastGrain b bio * b.sectors + b.sectors :=
      Nat.succ_mul _ _
    have hpos : 0 < lastGrain b bio := by
      by_contra hzero
      rw [Nat.eq_zero_of_not_pos hzero] at hwrap
      omega
    have hle : b.sectors ≤ lastGrain b bio * b.sectors := Nat.le_mul_of_pos_left _ hpos
    have hcut : ulong ((lastGrain b bio + 1) * b.sectors) =
        lastGrain b bio * b.sectors + b.sectors - 2 ^ 64 := by
      rw [hsucc]
      unfold ulong
      omega
    omega
  rw [ulong_of_lt hfit] at hbelow
  exact ⟨hbelow, hfit⟩

/-! ### What the write marks -/

theorem ebdrSetBitmap_range {k : Kernel} {p : Ptr} {first last : Nat} (hp : b.bitmapArea = some p)
    (hin : HalfIn k b p) (hfirst : firstBit b bio = first) (hlast : lastBit b bio = last)
    (hint : last < 2 ^ 31 - 1) (hbits : last < b.bitmapSize) :
    ∃ k', ebdrSetBitmap k b bio = some k' ∧
      ∀ x, k'.bitAt p x = true ↔ k.bitAt p x = true ∨ (first ≤ x ∧ x ≤ last) := by
  have hfits : 8 * p.off + b.bitmapSize ≤ 8 * k.areaBytes p.area := hin
  obtain ⟨m, hset, hbit⟩ := @ebdrSetBits_spec k b p first last hp (by omega)
    (by omega) (by omega)
  refine ⟨k.setMem p.area m, ?_, ?_⟩
  · rw [ebdrSetBitmap, hfirst, hlast, hset]
  · intro x
    have hmem : (k.setMem p.area m).mem p.area = m := Function.update_self _ _ _
    unfold Kernel.bitAt
    rw [hmem, hbit, Bool.or_eq_true, decide_eq_true_iff, or_comm]
    apply or_congr_right
    omega

theorem ebdrSetBitmap_some {k k' : Kernel} {p : Ptr} (hp : b.bitmapArea = some p)
    (h : ebdrSetBitmap k b bio = some k') :
    (lastBit b bio < firstBit b bio ∧ k' = k) ∨
      (0 ≤ firstBit b bio ∧ firstBit b bio ≤ lastBit b bio ∧ lastBit b bio < 2 ^ 31 - 1 ∧
        ∀ x, k'.bitAt p x = true ↔ k.bitAt p x = true ∨
          (firstBit b bio ≤ x ∧ (x : Int) ≤ lastBit b bio)) := by
  by_cases hlt : lastBit b bio < firstBit b bio
  · rw [ebdrSetBitmap, ebdrSetBits, if_pos hlt] at h
    exact Or.inl ⟨hlt, (Option.some.inj h).symm⟩
  · have hopen := h
    rw [ebdrSetBitmap, ebdrSetBits, if_neg hlt, hp, Option.bind_some,
      Option.ite_none_right_eq_some] at hopen
    obtain ⟨⟨h0, h1, hin⟩, -⟩ := hopen
    obtain ⟨m, hset, hbit⟩ := ebdrSetBits_spec (k := k) hp h0 h1 hin
    refine Or.inr ⟨h0, by omega, h1, ?_⟩
    intro x
    have hmem : (k.setMem p.area m).mem p.area = m := Function.update_self _ _ _
    rw [ebdrSetBitmap, hset] at h
    rw [← Option.some.inj h]
    unfold Kernel.bitAt
    rw [hmem, hbit, Bool.or_eq_true, decide_eq_true_iff, or_comm]
    apply or_congr_right
    omega

theorem TrackedWrite.marks_of_bits (h : TrackedWrite b bio)
    (hfirst : firstBit b bio = (bio.biSector / b.sectors : Nat))
    (hlast : lastBit b bio = lastGrain b bio) (hint : lastGrain b bio < 2 ^ 31 - 1) {k : Kernel}
    {p : Ptr} (hp : b.bitmapArea = some p) (hin : HalfIn k b p) : MarksTouched k b p bio := by
  obtain ⟨k', hk, hbits⟩ := ebdrSetBitmap_range hp hin hfirst hlast hint h.lastGrain_lt
  refine ⟨k', hk, ?_⟩
  intro x
  rw [hbits x, h.touched_iff x]

theorem TrackedWrite.marks_of_ends (h : TrackedWrite b bio) (he : EndsInGrain b bio) {k : Kernel}
    {p : Ptr} (hp : b.bitmapArea = some p) (hin : HalfIn k b p) : MarksTouched k b p bio := by
  have hint := he.int
  have hle := h.first_le_last
  have hfirst : firstBit b bio = (bio.biSector / b.sectors : Nat) := by
    rw [firstBit, h.firstPos_eq he.sector (he.ends.imp_right And.right), toInt_of_lt (by omega)]
  have hlast : lastBit b bio = (lastGrain b bio : Nat) := by
    rw [lastBit, h.endPos_eq he, toInt_of_lt (by omega)]
  exact h.marks_of_bits hfirst hlast hint hp hin

theorem TrackedWrite.marks_of_wraps (h : TrackedWrite b bio) (hw : WrapsToGrain b bio) {k : Kernel}
    {p : Ptr} (hp : b.bitmapArea = some p) (hin : HalfIn k b p) : MarksTouched k b p bio := by
  obtain ⟨hint, ⟨i, hi⟩, j, hj⟩ := hw
  have h0 : 0 < b.bitmapSize := lt_of_le_of_lt (Nat.zero_le _) h.lastGrain_lt
  have h1 := le_of_lt h.bitmapSize
  have hle := h.first_le_last
  have hfirst : firstBit b bio = (bio.biSector / b.sectors : Nat) :=
    (toInt_eq_iff (by omega)).mpr ⟨i, (ebdrFindPos_iff h0 h1).mpr hi⟩
  have hlast : lastBit b bio = (lastGrain b bio : Nat) :=
    (toInt_eq_iff (by omega)).mpr ⟨j + 1, (ebdrFindPos_iff h0 h1).mpr hj⟩
  exact h.marks_of_bits hfirst hlast hint hp hin

/-- A kernel whose bits are all clear, with room for the half at `p`. -/
def clearKernel (b : EbdrBitmap) (p : Ptr) : Kernel where
  minor := 2
  device := fun _ => ⟨[], some 0⟩
  bitmap := some 0
  vmallocArea := fun _ => some p.area
  vmallocAreaSz := fun _ => p.off + b.bitmapSize
  bitmaps := fun _ => b
  areaBytes := fun _ => p.off + b.bitmapSize
  mem := fun _ _ => 0
  fresh := p.area + 1

theorem halfIn_clearKernel (b : EbdrBitmap) (p : Ptr) : HalfIn (clearKernel b p) b p := by
  show 8 * p.off + b.bitmapSize ≤ 8 * (p.off + b.bitmapSize)
  omega

theorem bitAt_clearKernel (b : EbdrBitmap) (p : Ptr) (x : Nat) :
    (clearKernel b p).bitAt p x = false := by
  simp [Kernel.bitAt, clearKernel, bit]

/-- In a clear bitmap only the numbers of the first and the last grain, as `int`s, mark the grains
touched and no more. -/
theorem TrackedWrite.bits_of_marks (h : TrackedWrite b bio) {p : Ptr}
    (hp : b.bitmapArea = some p) (hm : MarksTouched (clearKernel b p) b p bio) :
    firstBit b bio = (bio.biSector / b.sectors : Nat) ∧ lastBit b bio = lastGrain b bio ∧
      lastGrain b bio < 2 ^ 31 - 1 := by
  obtain ⟨k', hk, hbits⟩ := hm
  have hle := h.first_le_last
  have hclear : ∀ x, k'.bitAt p x = true ↔
      bio.biSector / b.sectors ≤ x ∧ x ≤ lastGrain b bio := by
    intro x
    rw [hbits x, bitAt_clearKernel, h.touched_iff]
    simp
  rcases ebdrSetBitmap_some hp hk with ⟨-, hsame⟩ | ⟨h0, hrange, h1, hset⟩
  · have hself := (hclear (lastGrain b bio)).mpr ⟨hle, le_refl _⟩
    rw [hsame, bitAt_clearKernel] at hself
    cases hself
  · have hsame : ∀ x : Nat, (firstBit b bio ≤ x ∧ (x : Int) ≤ lastBit b bio) ↔
        bio.biSector / b.sectors ≤ x ∧ x ≤ lastGrain b bio := by
      intro x
      rw [← hclear x, hset x, bitAt_clearKernel]
      simp
    -- both ranges have both ends
    have hfirst := (hsame (bio.biSector / b.sectors)).mpr ⟨le_refl _, hle⟩
    have hlast := (hsame (lastGrain b bio)).mpr ⟨hle, le_refl _⟩
    have hfirst' := (hsame (firstBit b bio).toNat).mp (by omega)
    have hlast' := (hsame (lastBit b bio).toNat).mp (by omega)
    omega

theorem TrackedWrite.ends_or_next (h : TrackedWrite b bio) (hw : BeforeWrap b bio)
    (hint : lastGrain b bio < 2 ^ 31 - 1) :
    EndsInGrain b bio ∨
      (lastGrain b bio + 1 < b.bitmapSize ∧
        ebdrFindPos b (bioEndSector bio) = lastGrain b bio + 1) := by
  have hlt := h.lastGrain_lt
  have hbound := h.lastGrain_bounds.2
  have hstep : (lastGrain b bio + 1) * b.sectors < (lastGrain b bio + 2) * b.sectors :=
    Nat.mul_lt_mul_of_pos_right (by omega) h.sectors_pos
  have hfit : (lastGrain b bio + 2) * b.sectors < 2 ^ 64 := hw
  by_cases hends : lastGrain b bio + 1 = b.bitmapSize ∨
      bio.biSector + bioSectors bio < (lastGrain b bio + 1) * b.sectors
  · exact Or.inl ⟨hint, by omega, hends.imp_right fun hin => ⟨hin, by omega⟩⟩
  · rw [not_or] at hends
    exact Or.inr ⟨by omega, h.endPos_next hw hends.1 (Nat.not_lt.mp hends.2)⟩

theorem TrackedWrite.ends_of_marks (h : TrackedWrite b bio) {p : Ptr}
    (hp : b.bitmapArea = some p) (hm : MarksTouched (clearKernel b p) b p bio) :
    EndsInGrain b bio ∨ WrapsToGrain b bio := by
  obtain ⟨hfirst, hlast, hint⟩ := h.bits_of_marks hp hm
  have h0 : 0 < b.bitmapSize := lt_of_le_of_lt (Nat.zero_le _) h.lastGrain_lt
  have h1 := le_of_lt h.bitmapSize
  have hle := h.first_le_last
  obtain ⟨i, hi⟩ := (toInt_eq_iff (by omega)).mp hfirst
  obtain ⟨j, hj⟩ := (toInt_eq_iff (by omega)).mp hlast
  have hstop := (ebdrFindPos_iff h0 h1).mp hj
  cases j with
  | zero => exact Or.inl (h.ends_of_stops hint hstop)
  | succ j => exact Or.inr ⟨hint, ⟨i, (ebdrFindPos_iff h0 h1).mp hi⟩, j, hstop⟩

/-- While the bits are fewer than `2 ^ 31`, the other writes mark one grain more. -/
theorem TrackedWrite.marks_iff (h : TrackedWrite b bio) (hw : BeforeWrap b bio)
    (hbits : b.bitmapSize < 2 ^ 31) {k : Kernel} {p : Ptr} (hp : b.bitmapArea = some p)
    (hin : HalfIn k b p) :
    MarksTouched k b p bio ↔
      EndsInGrain b bio ∨ k.bitAt p (lastGrain b bio + 1) = true := by
  have hlt := h.lastGrain_lt
  have hle := h.first_le_last
  rcases h.ends_or_next hw (by omega) with hends | ⟨hnext, hpos⟩
  · exact iff_of_true (h.marks_of_ends hends hp hin) (Or.inl hends)
  · have hfit : (lastGrain b bio + 2) * b.sectors < 2 ^ 64 := hw
    have hstep : (lastGrain b bio + 1) * b.sectors ≤ (lastGrain b bio + 2) * b.sectors :=
      Nat.mul_le_mul_right _ (by omega)
    have hbound := h.lastGrain_bounds.2
    have hfirst : firstBit b bio = (bio.biSector / b.sectors : Nat) := by
      rw [firstBit, h.firstPos_eq (by omega) (Or.inr (by omega)), toInt_of_lt (by omega)]
    have hlast : lastBit b bio = (lastGrain b bio + 1 : Nat) := by
      rw [lastBit, hpos, toInt_of_lt (by omega)]
    obtain ⟨k', hk, hset⟩ := ebdrSetBitmap_range hp hin hfirst hlast (by omega) hnext
    have hnot : ¬ EndsInGrain b bio := by
      intro hends
      have := h.endPos_eq hends
      omega
    rw [or_iff_right hnot]
    constructor
    · rintro ⟨k'', hk'', hmarks⟩
      rw [hk, Option.some.injEq] at hk''
      rw [← hk''] at hmarks
      have hmarked := (hmarks (lastGrain b bio + 1)).mp ((hset _).mpr (Or.inr (by omega)))
      apply hmarked.resolve_right
      intro htouched
      have := ((h.touched_iff _).mp htouched).2
      omega
    · intro hnextSet
      refine ⟨k', hk, ?_⟩
      intro x
      rw [hset x, h.touched_iff x]
      constructor
      · rintro (hold | hrange)
        · exact Or.inl hold
        · by_cases hx : x = lastGrain b bio + 1
          · rw [hx]
            exact Or.inl hnextSet
          · exact Or.inr (by omega)
      · rintro (hold | hrange)
        · exact Or.inl hold
        · exact Or.inr (by omega)

/-- **Which writes mark exactly the grains they touch.** Whatever the bitmap holds, a write does so if
and only if it ends inside its last grain, or in the bitmap's last grain, or its searches wrap to its
grains. While the bits are fewer than `2 ^ 31`, and the grain after the last one ends below sector
`2 ^ 64`, any other write does so just in those bitmaps that have the bit after its last grain set
already. -/
theorem ebdrSetBitmap_marks {p : Ptr} (h : TrackedWrite b bio) (hp : b.bitmapArea = some p) :
    ((∀ k, HalfIn k b p → MarksTouched k b p bio) ↔ EndsInGrain b bio ∨ WrapsToGrain b bio) ∧
      (BeforeWrap b bio → b.bitmapSize < 2 ^ 31 → ∀ k, HalfIn k b p →
        (MarksTouched k b p bio ↔
          EndsInGrain b bio ∨ k.bitAt p (lastGrain b bio + 1) = true)) := by
  constructor
  · constructor
    · intro hall
      exact h.ends_of_marks hp (hall _ (halfIn_clearKernel b p))
    · rintro (hends | hwraps) k hin
      · exact h.marks_of_ends hends hp hin
      · exact h.marks_of_wraps hwraps hp hin
  · intro hw hbits k hin
    exact h.marks_iff hw hbits hp hin

end

/-- 64 grains of 8 sectors. -/
def sampleBitmap : EbdrBitmap := ⟨some ⟨0, 0⟩, 64, 4096, .kernel⟩

/-- A write of sectors 8 to 14 ends inside grain 1. -/
theorem ebdrSetBitmap_marks_sample :
    MarksTouched (clearKernel sampleBitmap ⟨0, 0⟩) sampleBitmap ⟨0, 0⟩ ⟨8, 3584, true⟩ :=
  (@ebdrSetBitmap_marks sampleBitmap ⟨8, 3584, true⟩ ⟨0, 0⟩
    ⟨by decide, by decide, by decide, by decide, by decide, by decide, by decide⟩ rfl).1.mpr
    (Or.inl ⟨by decide, by decide, by decide⟩) _ (halfIn_clearKernel _ _)

/-- A write of sectors 0 to 7, the whole of grain 0, marks grain 1 as well. -/
theorem aligned_write_marks_next :
    ¬ ∀ (k : Kernel) (b : EbdrBitmap) (p : Ptr) (bio : Bio), TrackedWrite b bio →
      b.bitmapArea = some p → HalfIn k b p → MarksTouched k b p bio := by
  intro hall
  have hw : TrackedWrite sampleBitmap ⟨0, 4096, true⟩ :=
    ⟨by decide, by decide, by decide, by decide, by decide, by decide, by decide⟩
  have hm := hall _ _ ⟨0, 0⟩ _ hw rfl (halfIn_clearKernel sampleBitmap ⟨0, 0⟩)
  rcases hw.ends_of_marks rfl hm with hends | hwraps
  · have hin := hends.ends
    revert hin
    decide
  · exact absurd hwraps.bits (by decide)

end Ebdr
