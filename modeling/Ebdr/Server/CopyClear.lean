import Ebdr.Server.Round

/-!
# Copying and clearing a half

`ebdr_copy_mmaped_bitmap`, `ebdr_clear_active_bitmap` and `ebdr_clear_bmap` go over a half of `n` bytes
by words of 8 bytes: they leave the last `n % 8` bytes, and the copy goes into an area of `BITMAP_SIZE`
bytes. `halvesHandled_iff` says for which sizes all three handle the whole half, so that the bits
shipped in a round are those cleared at its end.
-/

namespace Ebdr

open ByteMem CInt

/-- `ebdr_copy_mmaped_bitmap` of a half into the `BITMAP_SIZE` bytes of `bitmap_area`. -/
def ebdrCopyMmapedBitmap (k : Kernel) (dest : Mem) (src : Ptr) (nbytes : Nat) : Option Mem :=
  let nwords := nbytes / 8
  if nwords = 0 ∨ (8 * nwords ≤ bitmapSizeMax ∧ src.off + 8 * nwords ≤ k.areaBytes src.area) then
    some (copyWords 8 dest 0 (k.mem src.area) src.off nwords)
  else none

/-- `ebdr_clear_active_bitmap`. -/
def ebdrClearActiveBitmap (k : Kernel) (dest : Ptr) (nbytes : Nat) : Option Kernel :=
  let nwords := nbytes / 8
  if nwords = 0 ∨ dest.off + 8 * nwords ≤ k.areaBytes dest.area then
    some (k.setMem dest.area (zeroWords 8 (k.mem dest.area) dest.off nwords))
  else none

/-- Where a half of a source disk begins. -/
def SrcDisk.half (d : SrcDisk) (h : Half) : Ptr := ⟨d.area, d.off h⟩

/-- The area of the disk is the one that `EBDRCTL_DEV_CREATE` allocates for its size. -/
def SrcDisk.Allocated (d : SrcDisk) (k : Kernel) : Prop :=
  k.areaBytes d.area = ulong (2 * d.bitmapSize)

/-- The bitmap of the disk, with the half that the kernel writes. -/
structure SrcDisk.HasBitmap (d : SrcDisk) (h : Half) (b : EbdrBitmap) : Prop where
  bitmapArea : b.bitmapArea = some (d.half h)
  bitmapSize : b.bitmapSize = ulong (d.bitmapSize * 8)

/-! ### The three loops as passes and as calls -/

theorem copyStep_copyWords {s s' : Server} {p : Nat} {ub : UserBitmap} {d : SrcDisk} {h : Half}
    {j : Nat} {flip : Bool} {dest : Mem} (hj : j < ub.bitmapSize / 8)
    (harea : ub.bitmapArea = copyWords 8 dest 0 (s.kernel.mem d.area) (d.off h) j)
    (hstep : s.copyStep p ub d h j flip = some s') :
    ∃ ub', s'.ubitmap p = some ub' ∧ s'.phase p = .copying h (j + 1) flip ∧
      ub'.bitmapArea = copyWords 8 dest 0 (s.kernel.mem d.area) (d.off h) (j + 1) := by
  unfold Server.copyStep at hstep
  rw [if_pos hj] at hstep
  obtain ⟨-, heq⟩ := Option.ite_none_right_eq_some.mp hstep
  rw [← Option.some.inj heq]
  refine ⟨_, Function.update_self .., Function.update_self .., ?_⟩
  rw [copyWords, ← harea, Nat.zero_add]

theorem clearStep_zeroWords {s : Server} {p : Nat} {d : SrcDisk} {h : Half} {j : Nat} {m : Mem}
    (hj : j < d.bitmapSize / 8) (harea : s.kernel.mem d.area = zeroWords 8 m (d.off h) j) :
    (s.clearStep p d h j).phase p = .clearing h (j + 1) ∧
      (s.clearStep p d h j).kernel.mem d.area = zeroWords 8 m (d.off h) (j + 1) := by
  unfold Server.clearStep
  rw [if_pos hj, harea]
  exact ⟨Function.update_self .., Function.update_self ..⟩

/-- The kernel's loop is the daemon's, for the number of bytes it counts. -/
theorem ebdrClearBmap_eq {k : Kernel} {b : EbdrBitmap} {p : Ptr} (hp : b.bitmapArea = some p) :
    k.ebdrClearBmap b = ebdrClearActiveBitmap k p (intToUlong (toInt (b.bitmapSize / 8))) := by
  unfold Kernel.ebdrClearBmap ebdrClearActiveBitmap
  dsimp only
  by_cases hzero : intToUlong (toInt (b.bitmapSize / 8)) / 8 = 0
  · rw [if_pos hzero, if_pos (Or.inl hzero), hzero]
    simp [zeroWords, Kernel.setMem]
  · rw [if_neg hzero, hp, Option.bind_some]
    congr 1
    exact propext (or_iff_right hzero).symm

theorem ebdrAllocMemoryMmap_allocated {k k' : Kernel} {minor : Nat} {ok : Bool}
    (h : k.ebdrAllocMemoryMmap minor ok = (k', true)) :
    ulong (2 * k.vmallocAreaSz minor) ≠ 0 ∧ k'.vmallocArea minor = some k.fresh ∧
      SrcDisk.Allocated ⟨k.vmallocAreaSz minor, k.fresh⟩ k' := by
  unfold Kernel.ebdrAllocMemoryMmap at h
  dsimp only at h
  split at h
  · rename_i hok
    obtain rfl := (Prod.mk.inj h).1
    exact ⟨hok.2, Function.update_self .., Function.update_self ..⟩
  · cases (Prod.mk.inj h).2

/-! ### The whole half -/

/-- The operation returns with the bytes of a half zero and those of the other one as before. -/
def ClearsHalf (k : Kernel) (d : SrcDisk) (h : Half) (f : Option Kernel) : Prop :=
  ∃ m, f = some (k.setMem d.area m) ∧ ∀ i < d.bitmapSize, m (d.off h + i) = 0 ∧
    m (d.off h.other + i) = k.mem d.area (d.off h.other + i)

/-- The operation returns with the bytes of a half. -/
def CopiesHalf (k : Kernel) (d : SrcDisk) (h : Half) (f : Option Mem) : Prop :=
  ∃ area, f = some area ∧ ∀ i < d.bitmapSize, area i = k.mem d.area (d.off h + i)

/-- Copy and clear handle all of a half: the copy gives its bytes, both clears leave it zero and the
other half alone, and the bits shipped are exactly the set bits that the clear takes away. -/
structure HalfHandled (k : Kernel) (d : SrcDisk) (h : Half) (b : EbdrBitmap) (dest : Mem) :
    Prop where
  copies : CopiesHalf k d h (ebdrCopyMmapedBitmap k dest (d.half h) d.bitmapSize)
  clears : ClearsHalf k d h (ebdrClearActiveBitmap k (d.half h) d.bitmapSize)
  clearsBmap : ClearsHalf k d h (k.ebdrClearBmap b)
  shipped : ∀ area k', ebdrCopyMmapedBitmap k dest (d.half h) d.bitmapSize = some area →
    ebdrClearActiveBitmap k (d.half h) d.bitmapSize = some k' → ∀ x < 8 * d.bitmapSize,
      (bit area x = true ↔
        bit (k.mem d.area) (8 * d.off h + x) = true ∧ bit (k'.mem d.area) (8 * d.off h + x) = false)

section

variable {k : Kernel} {d : SrcDisk} {h : Half}

theorem other_apart (d : SrcDisk) (h : Half) {i : Nat} (hi : i < d.bitmapSize) :
    d.off h.other + i < d.off h ∨ d.off h + d.bitmapSize ≤ d.off h.other + i := by
  cases h with
  | first => exact Or.inr (by show 0 + d.bitmapSize ≤ d.bitmapSize + i; omega)
  | second => exact Or.inl (by show 0 + i < d.bitmapSize; omega)

theorem half_inside (halloc : d.Allocated k) (hn : 2 * d.bitmapSize < 2 ^ 64) (h : Half) :
    d.off h + d.bitmapSize ≤ k.areaBytes d.area := by
  rw [halloc, ulong_of_lt hn]
  cases h with
  | first => show 0 + d.bitmapSize ≤ _; omega
  | second => show d.bitmapSize + d.bitmapSize ≤ _; omega

theorem clearsHalf_of_dvd (halloc : d.Allocated k) (hn : 2 * d.bitmapSize < 2 ^ 64)
    (hdvd : 8 ∣ d.bitmapSize) :
    ClearsHalf k d h (ebdrClearActiveBitmap k (d.half h) d.bitmapSize) := by
  have hwords : 8 * (d.bitmapSize / 8) = d.bitmapSize := Nat.mul_div_cancel' hdvd
  have hin := half_inside halloc hn h
  refine ⟨zeroWords 8 (k.mem d.area) (d.off h) (d.bitmapSize / 8), ?_, fun i hi => ⟨?_, ?_⟩⟩
  · unfold ebdrClearActiveBitmap
    dsimp only
    rw [hwords]
    exact if_pos (Or.inr hin)
  · rw [zeroWords_apply, hwords, if_pos (by omega)]
  · have hapart := other_apart d h hi
    rw [zeroWords_apply, hwords, if_neg (by omega)]

theorem copiesHalf_of_dvd (halloc : d.Allocated k) (hn : d.bitmapSize ≤ bitmapSizeMax)
    (hdvd : 8 ∣ d.bitmapSize) (dest : Mem) :
    CopiesHalf k d h (ebdrCopyMmapedBitmap k dest (d.half h) d.bitmapSize) := by
  have hmax : bitmapSizeMax = 16384 := rfl
  have hwords : 8 * (d.bitmapSize / 8) = d.bitmapSize := Nat.mul_div_cancel' hdvd
  have hin := half_inside halloc (by omega) h
  refine ⟨copyWords 8 dest 0 (k.mem d.area) (d.off h) (d.bitmapSize / 8), ?_, fun i hi => ?_⟩
  · unfold ebdrCopyMmapedBitmap
    dsimp only
    rw [hwords]
    exact if_pos (Or.inr ⟨hn, hin⟩)
  · rw [copyWords_eq, hwords]
    exact copyBytes_of_lt hi

/-- After a whole copy and a whole clear, the bits shipped are those cleared. -/
theorem shipped_of_whole {area : Mem} {k' : Kernel} {f : Option Mem} {g : Option Kernel}
    (hcopy : CopiesHalf k d h f) (hclear : ClearsHalf k d h g) (hf : f = some area)
    (hg : g = some k') {x : Nat} (hx : x < 8 * d.bitmapSize) :
    bit area x = true ↔
      bit (k.mem d.area) (8 * d.off h + x) = true ∧ bit (k'.mem d.area) (8 * d.off h + x) = false := by
  obtain ⟨area', harea, hbytes⟩ := hcopy
  obtain ⟨m, hm, hzero⟩ := hclear
  obtain rfl : area = area' := Option.some.inj (hf.symm.trans harea)
  obtain rfl : k' = k.setMem d.area m := Option.some.inj (hg.symm.trans hm)
  have hdiv : (8 * d.off h + x) / 8 = d.off h + x / 8 := by omega
  have hmod : (8 * d.off h + x) % 8 = x % 8 := by omega
  have hsame : bit area x = bit (k.mem d.area) (8 * d.off h + x) := by
    unfold bit
    rw [hdiv, hmod, hbytes (x / 8) (by omega)]
  have hcleared : bit ((k.setMem d.area m).mem d.area) (8 * d.off h + x) = false := by
    have hmem : (k.setMem d.area m).mem d.area = m := Function.update_self ..
    unfold bit
    rw [hmem, hdiv, (hzero (x / 8) (by omega)).1]
    exact Nat.zero_testBit _
  rw [hsame, hcleared]
  exact (and_iff_left rfl).symm

/-- All bytes are cleared only if they are whole words. -/
theorem dvd_of_clearsHalf (hones : ∀ i, k.mem d.area i = 255)
    (hclear : ClearsHalf k d h (ebdrClearActiveBitmap k (d.half h) d.bitmapSize)) :
    8 ∣ d.bitmapSize := by
  by_contra hndvd
  obtain ⟨m, hm, hzero⟩ := hclear
  obtain ⟨-, heq⟩ := Option.ite_none_right_eq_some.mp hm
  have hmem : zeroWords 8 (k.mem d.area) (d.off h) (d.bitmapSize / 8) = m := by
    have := congrArg (fun k => Kernel.mem k d.area) (Option.some.inj heq)
    simpa only [Kernel.setMem, SrcDisk.half, Function.update_self] using this
  have hlast := (hzero (d.bitmapSize - 1) (by omega)).1
  rw [← hmem, zeroWords_apply, if_neg (by omega), hones] at hlast
  exact absurd hlast (by decide)

/-- The copy stays inside `bitmap_area` only up to `BITMAP_SIZE`. -/
theorem le_of_copiesHalf {dest : Mem} (hdvd : 8 ∣ d.bitmapSize)
    (hcopy : CopiesHalf k d h (ebdrCopyMmapedBitmap k dest (d.half h) d.bitmapSize)) :
    d.bitmapSize ≤ bitmapSizeMax := by
  obtain ⟨area, harea, -⟩ := hcopy
  obtain ⟨hfit, -⟩ := Option.ite_none_right_eq_some.mp harea
  rcases hfit with hzero | ⟨hfit, -⟩ <;> omega

end

/-- A kernel whose area for the disk is allocated and full. -/
def fullKernel (d : SrcDisk) : Kernel :=
  { Kernel.init with
    areaBytes := fun _ => ulong (2 * d.bitmapSize)
    mem := fun _ _ => 255 }

/-- **Copy and clear handle the whole half** for sizes of whole words up to `BITMAP_SIZE`, and for no
others. -/
theorem halvesHandled_iff (d : SrcDisk) :
    (∀ k h b dest, d.Allocated k → d.HasBitmap h b → HalfHandled k d h b dest) ↔
      8 ∣ d.bitmapSize ∧ d.bitmapSize ≤ bitmapSizeMax := by
  have hmax : bitmapSizeMax = 16384 := rfl
  constructor
  · intro hall
    have hhalf := hall (fullKernel d) .first ⟨some (d.half .first), ulong (d.bitmapSize * 8), 0,
      .kernel⟩ (fun _ => 0) rfl ⟨rfl, rfl⟩
    have hdvd := dvd_of_clearsHalf (fun _ => rfl) hhalf.clears
    exact ⟨hdvd, le_of_copiesHalf hdvd hhalf.copies⟩
  · rintro ⟨hdvd, hle⟩ k h b dest halloc hb
    have hclear := clearsHalf_of_dvd halloc (by omega) hdvd (h := h)
    have hcopy := copiesHalf_of_dvd halloc hle hdvd dest (h := h)
    have hcount : intToUlong (toInt (b.bitmapSize / 8)) = d.bitmapSize := by
      rw [hb.bitmapSize, ulong_of_lt (by omega), Nat.mul_div_cancel _ (by decide),
        toInt_of_lt (by omega), intToUlong_ofNat (by omega)]
    refine ⟨hcopy, hclear, ?_, fun area k' hf hg x hx => ?_⟩
    · rw [ebdrClearBmap_eq hb.bitmapArea, hcount]
      exact hclear
    · exact shipped_of_whole hcopy hclear hf hg hx

/-- The bitmap of a disk whose kernel writes the first half. -/
def firstBitmap (d : SrcDisk) : EbdrBitmap :=
  ⟨some (d.half .first), ulong (d.bitmapSize * 8), 4096, .kernel⟩

/-- The last 4 of 12 bytes stay, and 32768 bytes do not fit `bitmap_area`. -/
theorem halfHandled_fails :
    (SrcDisk.Allocated ⟨12, 0⟩ (fullKernel ⟨12, 0⟩) ∧
      ¬ HalfHandled (fullKernel ⟨12, 0⟩) ⟨12, 0⟩ .first (firstBitmap ⟨12, 0⟩) fun _ => 0) ∧
    (SrcDisk.Allocated ⟨32768, 0⟩ (fullKernel ⟨32768, 0⟩) ∧
      ¬ HalfHandled (fullKernel ⟨32768, 0⟩) ⟨32768, 0⟩ .first (firstBitmap ⟨32768, 0⟩)
        fun _ => 0) := by
  refine ⟨⟨rfl, fun h => ?_⟩, rfl, fun h => ?_⟩
  · have hdvd := dvd_of_clearsHalf (fun _ => rfl) h.clears
    exact absurd hdvd (by decide)
  · have hle := le_of_copiesHalf (by decide) h.copies
    exact absurd hle (by decide)

end Ebdr
