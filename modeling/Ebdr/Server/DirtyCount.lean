import Ebdr.Client.Resync
import Ebdr.Kernel.Ranges
import Mathlib.Data.List.Range
import Mathlib.Data.List.Nodup
import Mathlib.Data.List.Perm.Basic

/-!
# The server's count of dirty bits

`get_total_bits_set` probes every position of a bitmap with `ebdr_check_bit_set`, which reads the bits
of a byte from the most significant one, while the client walks the bitmap with `is_bit_set`, from the
least significant bit of 32-bit words. At a position the two read bits of the same byte in opposite
order (`ebdrCheckBitSet_ne_zero_iff`), so they differ there, and the counts are the same
(`getTotalBitsSet_eq`).
-/

namespace Ebdr

open ByteMem CInt

/-! ### The probes of the server -/

/-- `ebdr_test_bit2` on the bytes from `arg`: the mask is a `signed char`, and both it and the byte are
promoted to `int` with their sign. -/
def ebdrTestBit2 (num : Nat) (m : Mem) (arg : Nat) : BitVec 32 :=
  let temp := num % 8
  let mask : BitVec 8 := ((1 : BitVec 32) <<< (8 - 1 - temp)).setWidth 8
  (m (arg + num / 8)).toBitVec.signExtend 32 &&& mask.signExtend 32

/-- `ebdr_check_bit_set`. -/
def ebdrCheckBitSet (m : Mem) (pos : Nat) : BitVec 32 :=
  let pnum := pos >>> (12 + 3)
  if maxBitsLen < ulong (pnum * numBitsPerPage) then 0
  else ebdrTestBit2 (pos &&& (numBitsPerPage - 1)) m (ulong (pnum * numBitsPerPage) / 8)

/-- The loop of `get_total_bits_set` from `bit_pos` on, for a number of turns. -/
def countLoop (m : Mem) (bitPos bitsSet : Nat) : Nat → Nat
  | 0 => bitsSet
  | turns + 1 =>
    countLoop m (bitPos + 1) (if ebdrCheckBitSet m bitPos ≠ 0 then bitsSet + 1 else bitsSet) turns

/-- `get_total_bits_set`. -/
def getTotalBitsSet (dirtiedBitmap : Mem) : Nat := countLoop dirtiedBitmap 0 0 maxBitsLen

/-! ### What a probe reads -/

/-- The same position with the bits of its byte in the opposite order. -/
def mirrored (pos : Nat) : Nat := pos / 8 * 8 + (7 - pos % 8)

theorem mirrored_mirrored (pos : Nat) : mirrored (mirrored pos) = pos := by
  unfold mirrored
  omega

theorem mirrored_lt {pos bytes : Nat} (h : pos < 8 * bytes) : mirrored pos < 8 * bytes := by
  unfold mirrored
  omega

/-- The bits of a byte promoted to `int`: those from bit 7 on are the sign. -/
theorem getLsbD_promoted (x : BitVec 8) {j : Nat} (hj : j < 32) :
    (x.signExtend 32).getLsbD j = x.getLsbD (min j 7) := by
  rw [BitVec.getLsbD_signExtend, decide_eq_true hj, Bool.true_and]
  split
  · rename_i hlow
    rw [Nat.min_eq_left (by omega)]
  · rename_i hhigh
    rw [Nat.min_eq_right (by omega)]
    exact BitVec.msb_eq_getLsbD_last x

theorem getLsbD_mask : ∀ temp < 8, ∀ i < 8,
    (((1 : BitVec 32) <<< (8 - 1 - temp)).setWidth 8).getLsbD i = decide (i = 7 - temp) := by
  decide

/-- The sign of the mask does not hide the bit. -/
theorem ebdrTestBit2_ne_zero_iff (num : Nat) (m : Mem) (arg : Nat) :
    ebdrTestBit2 num m arg ≠ 0 ↔ (m (arg + num / 8)).toNat.testBit (7 - num % 8) = true := by
  have htemp : num % 8 < 8 := Nat.mod_lt _ (by decide)
  have hbits : ∀ j < 32, (ebdrTestBit2 num m arg).getLsbD j =
      ((m (arg + num / 8)).toNat.testBit (min j 7) && decide (min j 7 = 7 - num % 8)) := by
    intro j hj
    unfold ebdrTestBit2
    dsimp only
    rw [BitVec.getLsbD_and, getLsbD_promoted _ hj, getLsbD_promoted _ hj,
      getLsbD_mask _ htemp _ (by omega)]
    rfl
  constructor
  · intro hne
    by_contra hclear
    apply hne
    apply BitVec.eq_of_getLsbD_eq
    intro j hj
    rw [hbits j hj]
    by_cases hmask : min j 7 = 7 - num % 8
    · rw [hmask, Bool.eq_false_of_not_eq_true hclear, Bool.false_and]
      exact BitVec.getLsbD_zero.symm
    · rw [decide_eq_false hmask, Bool.and_false]
      exact BitVec.getLsbD_zero.symm
  · intro hset hzero
    have hbit := hbits (7 - num % 8) (by omega)
    rw [hzero, Nat.min_eq_left (by omega), hset, decide_eq_true rfl] at hbit
    exact absurd hbit (by simp)

/-- **The probe at a position reads the mirrored bit**; no position reaches the bound of the test. -/
theorem ebdrCheckBitSet_ne_zero_iff {m : Mem} {pos : Nat} (h : pos < maxBitsLen) :
    ebdrCheckBitSet m pos ≠ 0 ↔ bit m (mirrored pos) = true := by
  have hmax : maxBitsLen = 131072 := rfl
  have hsize : numBitsPerPage = 32768 := rfl
  have hshift : pos >>> (12 + 3) = pos / 32768 := Nat.shiftRight_eq_div_pow pos 15
  have hmask : pos &&& (numBitsPerPage - 1) = pos % 32768 :=
    Nat.and_two_pow_sub_one_eq_mod pos 15
  have hoff : ulong (pos / 32768 * 32768) = pos / 32768 * 32768 := ulong_of_lt (by omega)
  have hbyte : mirrored pos / 8 = pos / 32768 * 32768 / 8 + pos % 32768 / 8 := by
    unfold mirrored
    omega
  have hbit : mirrored pos % 8 = 7 - pos % 32768 % 8 := by
    unfold mirrored
    omega
  unfold ebdrCheckBitSet
  dsimp only
  rw [hshift, hmask, hsize, hoff, if_neg (by omega), ebdrTestBit2_ne_zero_iff]
  unfold bit
  rw [hbyte, hbit]

theorem isBitSet_eq_bit {m : Mem} {pos : Nat} (h : pos < maxBitsLen) :
    Client.isBitSet m (pos : Int) = some (bit m pos) := by
  have hmax : maxBitsLen = 131072 := rfl
  have hsize : bitmapSizeMax * 8 = 131072 := rfl
  have hint : toInt pos = pos := toInt_of_lt (by omega)
  rw [← hint]
  exact Client.isBitSet_of_lt (by omega)

/-! ### Counting -/

theorem countLoop_eq (m : Mem) (turns bitPos bitsSet : Nat) :
    countLoop m bitPos bitsSet turns =
      bitsSet + (List.range' bitPos turns).countP fun pos => decide (ebdrCheckBitSet m pos ≠ 0) := by
  induction turns generalizing bitPos bitsSet with
  | zero => rfl
  | succ turns ih =>
    rw [countLoop, ih, List.range'_succ, List.countP_cons]
    by_cases hset : ebdrCheckBitSet m bitPos ≠ 0
    · rw [if_pos hset, if_pos (decide_eq_true hset)]
      omega
    · rw [if_neg hset, if_neg (by rwa [decide_eq_true_iff])]
      omega

/-- A self-inverse renumbering of the numbers below `n` does not change a count over them. -/
theorem countP_range_comp {f : Nat → Nat} {n : Nat} (hf : ∀ i, f (f i) = i)
    (hlt : ∀ i < n, f i < n) (q : Nat → Bool) :
    (List.range n).countP (fun i => q (f i)) = (List.range n).countP q := by
  have hinj : Function.Injective f := by
    intro i j heq
    rw [← hf i, heq, hf]
  have hperm : ((List.range n).map f).Perm (List.range n) := by
    refine (List.perm_ext_iff_of_nodup (List.nodup_range.map hinj) List.nodup_range).mpr ?_
    intro i
    rw [List.mem_map, List.mem_range]
    constructor
    · rintro ⟨j, hj, rfl⟩
      exact hlt j (List.mem_range.mp hj)
    · intro hi
      exact ⟨f i, List.mem_range.mpr (hlt i hi), hf i⟩
  calc (List.range n).countP (fun i => q (f i))
      = ((List.range n).map f).countP q := by rw [List.countP_map]; rfl
    _ = (List.range n).countP q := hperm.countP_eq q

/-- **The dirty count is the number of grains the client will copy.** -/
theorem getTotalBitsSet_eq (m : Mem) :
    getTotalBitsSet m =
      (List.range maxBitsLen).countP
        fun pos : Nat => decide (Client.isBitSet m (pos : Int) = some true) := by
  have hserver : getTotalBitsSet m =
      (List.range maxBitsLen).countP fun pos => bit m (mirrored pos) := by
    unfold getTotalBitsSet
    generalize hmax : maxBitsLen = n
    rw [countLoop_eq, Nat.zero_add, ← List.range_eq_range', ← hmax]
    apply List.countP_congr
    intro pos hpos
    rw [decide_eq_true_iff, ebdrCheckBitSet_ne_zero_iff (List.mem_range.mp hpos)]
  have hclient : ∀ pos ∈ List.range maxBitsLen,
      (decide (Client.isBitSet m (pos : Int) = some true) = true ↔ bit m pos = true) := by
    intro pos hpos
    rw [decide_eq_true_iff, isBitSet_eq_bit (List.mem_range.mp hpos), Option.some_inj]
  have hmirror : ∀ pos < maxBitsLen, mirrored pos < maxBitsLen := by
    intro pos hpos
    rw [show maxBitsLen = 8 * (4 * 4096) from rfl] at hpos ⊢
    exact mirrored_lt hpos
  rw [hserver, List.countP_congr hclient]
  exact countP_range_comp mirrored_mirrored hmirror (bit m)

end Ebdr
