import Mathlib.Data.Nat.Bitwise
import Mathlib.Tactic.Common

/-!
# Byte memory and bits

A memory is a function from byte addresses to bytes. Programs read and write it in little-endian
words of several sizes, and address single bits through such words; this file relates all of that
to one numbering of the bits, `bit m k` being bit `k % 8` of byte `k / 8`.

* `loadLE` / `storeLE` read and write the `n`-byte little-endian number at an address
  (`testBit_loadLE`, `bit_storeLE`).
* `copyWord` moves one word between two memories, `zeroWords` clears a range word by word,
  `copyBytes` copies a range byte by byte.
* `setBit w` is the read-modify-write of the `w`-byte word that holds a bit. Its effect does not
  depend on `w` (`bit_setBit`): on a little-endian machine a bit set through 8-byte words is read
  back at the same number through 4-byte words or bytes.
-/

namespace ByteMem

/-- A byte-addressed memory. -/
abbrev Mem := Nat → UInt8

/-- Bit `k` of a memory. -/
def bit (m : Mem) (k : Nat) : Bool := (m (k / 8)).toNat.testBit (k % 8)

/-- The `n`-byte little-endian number at address `a`. -/
def loadLE (m : Mem) (a : Nat) : Nat → Nat
  | 0 => 0
  | n + 1 => 256 * loadLE m (a + 1) n + (m a).toNat

/-- Write the low `n` bytes of `v` at address `a`, least significant first. -/
def storeLE (m : Mem) (a n v : Nat) : Mem := fun i =>
  if a ≤ i ∧ i < a + n then UInt8.ofNat (v >>> (8 * (i - a))) else m i

/-- Copy the `w`-byte word at `sa` in `src` to `da` in `dst`. -/
def copyWord (w : Nat) (dst : Mem) (da : Nat) (src : Mem) (sa : Nat) : Mem :=
  storeLE dst da w (loadLE src sa w)

/-- Copy `n` bytes from address `sa` in `src` to `da` in `dst`. -/
def copyBytes (dst : Mem) (da : Nat) (src : Mem) (sa n : Nat) : Mem := fun i =>
  if da ≤ i ∧ i < da + n then src (sa + (i - da)) else dst i

/-- Clear the first `count` words of `w` bytes from address `a`, in order. -/
def zeroWords (w : Nat) (m : Mem) (a : Nat) : Nat → Mem
  | 0 => m
  | count + 1 => storeLE (zeroWords w m a count) (a + w * count) w 0

/-- Store `v` in `count` words of `w` bytes from address `a`, in order. -/
def storeWords (w : Nat) (m : Mem) (a v : Nat) : Nat → Mem
  | 0 => m
  | count + 1 => storeLE (storeWords w m a v count) (a + w * count) w v

/-- Copy `count` words of `w` bytes from `sa` in `src` to `da` in `dst`, in order. -/
def copyWords (w : Nat) (dst : Mem) (da : Nat) (src : Mem) (sa : Nat) : Nat → Mem
  | 0 => dst
  | count + 1 =>
    copyWord w (copyWords w dst da src sa count) (da + w * count) src (sa + w * count)

/-- Set bit `i` counted from address `a`, through the `w`-byte word that holds it. -/
def setBit (w : Nat) (m : Mem) (a i : Nat) : Mem :=
  let word := a + w * (i / (8 * w))
  storeLE m word w (loadLE m word w ||| 1 <<< (i % (8 * w)))

/-- Clear bit `i` counted from address `a`, through the `w`-byte word that holds it. -/
def clearBit (w : Nat) (m : Mem) (a i : Nat) : Mem :=
  let word := a + w * (i / (8 * w))
  let mask := 2 ^ (8 * w) - 1 - 1 <<< (i % (8 * w))
  storeLE m word w (loadLE m word w &&& mask)

/-! ### Loads and stores, bit by bit -/

theorem testBit_loadLE (m : Mem) (a n j : Nat) :
    (loadLE m a n).testBit j = (decide (j < 8 * n) && bit m (8 * a + j)) := by
  induction n generalizing a j with
  | zero => simp [loadLE]
  | succ n ih =>
    have hb : (m a).toNat < 2 ^ 8 := (m a).toNat_lt
    rw [loadLE, show (256 : Nat) = 2 ^ 8 from rfl, Nat.testBit_two_pow_mul_add _ hb]
    by_cases hj : j < 8
    · have h1 : (8 * a + j) / 8 = a := by omega
      have h2 : (8 * a + j) % 8 = j := by omega
      have h3 : j < 8 * (n + 1) := by omega
      simp [hj, bit, h1, h2, h3]
    · have h1 : 8 * (a + 1) + (j - 8) = 8 * a + j := by omega
      have h2 : j - 8 < 8 * n ↔ j < 8 * (n + 1) := by omega
      rw [if_neg hj, ih, h1, decide_eq_decide.mpr h2]

theorem bit_storeLE (m : Mem) (a n v k : Nat) :
    bit (storeLE m a n v) k =
      if 8 * a ≤ k ∧ k < 8 * (a + n) then v.testBit (k - 8 * a) else bit m k := by
  by_cases h : 8 * a ≤ k ∧ k < 8 * (a + n)
  · have hin : a ≤ k / 8 ∧ k / 8 < a + n := by omega
    have hk : 8 * (k / 8 - a) + k % 8 = k - 8 * a := by omega
    have hlt : k % 8 < 8 := Nat.mod_lt _ (by decide)
    rw [if_pos h, bit, storeLE, if_pos hin, UInt8.toNat_ofNat', Nat.testBit_mod_two_pow,
      Nat.testBit_shiftRight, hk]
    simp [hlt]
  · have hout : ¬ (a ≤ k / 8 ∧ k / 8 < a + n) := by omega
    rw [if_neg h, bit, storeLE, if_neg hout, bit]

/-! ### Loads after stores -/

theorem loadLE_congr {m m' : Mem} {a n : Nat} (h : ∀ i < n, m (a + i) = m' (a + i)) :
    loadLE m a n = loadLE m' a n := by
  induction n generalizing a with
  | zero => rfl
  | succ n ih =>
    have hrest : loadLE m (a + 1) n = loadLE m' (a + 1) n := by
      apply ih
      intro i hi
      have hnext := h (1 + i) (by omega)
      rwa [← Nat.add_assoc] at hnext
    have hfirst : m a = m' a := h 0 (by omega)
    rw [loadLE, loadLE, hrest, hfirst]

theorem loadLE_storeLE (m : Mem) (a n v : Nat) : loadLE (storeLE m a n v) a n = v % 2 ^ (8 * n) := by
  apply Nat.eq_of_testBit_eq
  intro j
  rw [testBit_loadLE, Nat.testBit_mod_two_pow]
  by_cases hj : j < 8 * n
  · have hin : 8 * a ≤ 8 * a + j ∧ 8 * a + j < 8 * (a + n) := by omega
    have hsub : 8 * a + j - 8 * a = j := by omega
    rw [bit_storeLE, if_pos hin, hsub]
  · rw [decide_eq_false hj, Bool.false_and, Bool.false_and]

theorem loadLE_storeLE_of_disjoint {m : Mem} {a n v b k : Nat} (h : b + k ≤ a ∨ a + n ≤ b) :
    loadLE (storeLE m a n v) b k = loadLE m b k := by
  apply loadLE_congr
  intro i hi
  rw [storeLE, if_neg (by omega)]

theorem copyBytes_of_lt {dst src : Mem} {sa n i : Nat} (h : i < n) :
    copyBytes dst 0 src sa n i = src (sa + i) := by
  rw [copyBytes, if_pos (by omega), Nat.sub_zero]

/-- A memory is known by its bits. -/
theorem ext_bit {m m' : Mem} (h : ∀ k, bit m k = bit m' k) : m = m' := by
  funext a
  apply UInt8.toNat_inj.mp
  apply Nat.eq_of_testBit_eq
  intro j
  by_cases hj : j < 8
  · have hk := h (8 * a + j)
    have hdiv : (8 * a + j) / 8 = a := by omega
    have hmod : (8 * a + j) % 8 = j := by omega
    unfold bit at hk
    rwa [hdiv, hmod] at hk
  · have hpow : 2 ^ 8 ≤ 2 ^ j := Nat.pow_le_pow_right (by decide) (by omega)
    have hm : (m a).toNat < 2 ^ j := lt_of_lt_of_le (m a).toNat_lt hpow
    have hm' : (m' a).toNat < 2 ^ j := lt_of_lt_of_le (m' a).toNat_lt hpow
    rw [Nat.testBit_lt_two_pow hm, Nat.testBit_lt_two_pow hm']

/-! ### Words and single bits -/

theorem bit_copyWord (w : Nat) (dst : Mem) (da : Nat) (src : Mem) (sa k : Nat) :
    bit (copyWord w dst da src sa) k =
      if 8 * da ≤ k ∧ k < 8 * (da + w) then bit src (8 * sa + (k - 8 * da)) else bit dst k := by
  rw [copyWord, bit_storeLE]
  split
  · rename_i h
    have hlt : k - 8 * da < 8 * w := by omega
    rw [testBit_loadLE]
    simp [hlt]
  · rfl

/-- **Setting a bit sets that bit.** The word size does not show. -/
theorem bit_setBit {w : Nat} (hw : 0 < w) (m : Mem) (a i k : Nat) :
    bit (setBit w m a i) k = (decide (k = 8 * a + i) || bit m k) := by
  have hdm : 8 * w * (i / (8 * w)) + i % (8 * w) = i := Nat.div_add_mod i (8 * w)
  have hlt : i % (8 * w) < 8 * w := Nat.mod_lt _ (by omega)
  have hassoc : 8 * (w * (i / (8 * w))) = 8 * w * (i / (8 * w)) := (Nat.mul_assoc _ _ _).symm
  generalize hq : w * (i / (8 * w)) = q at *
  rw [setBit, bit_storeLE, hq]
  split
  · rename_i h
    have hk : 8 * (a + q) + (k - 8 * (a + q)) = k := by omega
    have hj : k - 8 * (a + q) < 8 * w := by omega
    have hiff : i % (8 * w) = k - 8 * (a + q) ↔ k = 8 * a + i := by omega
    rw [Nat.testBit_or, testBit_loadLE, hk, Nat.one_shiftLeft, Nat.testBit_two_pow,
      decide_eq_decide.mpr hiff, decide_eq_true hj, Bool.true_and, Bool.or_comm]
  · have hne : ¬ k = 8 * a + i := by omega
    simp [hne]

/-- **Clearing a bit clears that bit.** -/
theorem bit_clearBit {w : Nat} (hw : 0 < w) (m : Mem) (a i k : Nat) :
    bit (clearBit w m a i) k = (!decide (k = 8 * a + i) && bit m k) := by
  have hdm : 8 * w * (i / (8 * w)) + i % (8 * w) = i := Nat.div_add_mod i (8 * w)
  have hlt : i % (8 * w) < 8 * w := Nat.mod_lt _ (by omega)
  have hassoc : 8 * (w * (i / (8 * w))) = 8 * w * (i / (8 * w)) := (Nat.mul_assoc _ _ _).symm
  generalize hq : w * (i / (8 * w)) = q at *
  rw [clearBit, bit_storeLE, hq]
  split
  · rename_i h
    have hk : 8 * (a + q) + (k - 8 * (a + q)) = k := by omega
    have hj : k - 8 * (a + q) < 8 * w := by omega
    have hiff : i % (8 * w) = k - 8 * (a + q) ↔ k = 8 * a + i := by omega
    have hpow : 1 <<< (i % (8 * w)) < 2 ^ (8 * w) := by
      rw [Nat.one_shiftLeft]
      exact Nat.pow_lt_pow_right (by decide) hlt
    have hmask : 2 ^ (8 * w) - 1 - 1 <<< (i % (8 * w)) =
        2 ^ (8 * w) - (1 <<< (i % (8 * w)) + 1) := by omega
    rw [Nat.testBit_and, testBit_loadLE, hk, hmask, Nat.testBit_two_pow_sub_succ hpow,
      Nat.one_shiftLeft, Nat.testBit_two_pow, decide_eq_decide.mpr hiff, decide_eq_true hj,
      Bool.true_and, Bool.true_and, Bool.and_comm]
  · have hne : ¬ k = 8 * a + i := by omega
    simp [hne]

theorem bit_storeWords {w v : Nat} {c : Bool} (hv : ∀ j < 8 * w, v.testBit j = c) (m : Mem)
    (a count k : Nat) :
    bit (storeWords w m a v count) k =
      if 8 * a ≤ k ∧ k < 8 * (a + w * count) then c else bit m k := by
  induction count with
  | zero =>
    rw [storeWords, if_neg (by omega)]
  | succ count ih =>
    rw [storeWords, bit_storeLE, Nat.mul_succ]
    split
    · rename_i h
      rw [hv _ (by omega), if_pos (by omega)]
    · rename_i h
      rw [ih]
      congr 1
      exact propext (by omega)

theorem zeroWords_eq (w : Nat) (m : Mem) (a count : Nat) :
    zeroWords w m a count = storeWords w m a 0 count := by
  induction count with
  | zero => rfl
  | succ count ih => rw [zeroWords, storeWords, ih]

theorem bit_zeroWords (w : Nat) (m : Mem) (a count k : Nat) :
    bit (zeroWords w m a count) k =
      if 8 * a ≤ k ∧ k < 8 * (a + w * count) then false else bit m k := by
  rw [zeroWords_eq]
  exact bit_storeWords (fun j _ => Nat.zero_testBit j) m a count k

/-- Copying words is copying their bytes. -/
theorem copyWords_eq (w : Nat) (dst : Mem) (da : Nat) (src : Mem) (sa count : Nat) :
    copyWords w dst da src sa count = copyBytes dst da src sa (w * count) := by
  apply ext_bit
  intro k
  have hbytes : ∀ n, bit (copyBytes dst da src sa n) k =
      if 8 * da ≤ k ∧ k < 8 * (da + n) then bit src (8 * sa + (k - 8 * da)) else bit dst k := by
    intro n
    unfold bit copyBytes
    by_cases hin : 8 * da ≤ k ∧ k < 8 * (da + n)
    · have hdiv : (8 * sa + (k - 8 * da)) / 8 = sa + (k / 8 - da) := by omega
      have hmod : (8 * sa + (k - 8 * da)) % 8 = k % 8 := by omega
      rw [if_pos hin, if_pos (by omega), hdiv, hmod]
    · rw [if_neg hin, if_neg (by omega)]
  rw [hbytes]
  induction count with
  | zero => rw [copyWords, if_neg (by omega)]
  | succ count ih =>
    rw [copyWords, bit_copyWord, ih, Nat.mul_succ]
    by_cases hlast : 8 * (da + w * count) ≤ k ∧ k < 8 * (da + w * count + w)
    · have hk : 8 * (sa + w * count) + (k - 8 * (da + w * count)) = 8 * sa + (k - 8 * da) := by omega
      rw [if_pos hlast, if_pos (by omega), hk]
    · rw [if_neg hlast]
      congr 1
      exact propext (by omega)

theorem zeroWords_apply (w : Nat) (m : Mem) (a count i : Nat) :
    zeroWords w m a count i = if a ≤ i ∧ i < a + w * count then 0 else m i := by
  have hbytes : zeroWords w m a count =
      fun i => if a ≤ i ∧ i < a + w * count then 0 else m i := by
    apply ext_bit
    intro k
    rw [bit_zeroWords]
    unfold bit
    dsimp only
    by_cases hin : 8 * a ≤ k ∧ k < 8 * (a + w * count)
    · rw [if_pos hin, if_pos (by omega)]
      exact (Nat.zero_testBit _).symm
    · rw [if_neg hin, if_neg (by omega)]
  rw [hbytes]

/-- Setting a run of bits, one after the other from `i`. -/
def setBits (w : Nat) (m : Mem) (a i : Nat) : Nat → Mem
  | 0 => m
  | count + 1 => setBit w (setBits w m a i count) a (i + count)

theorem bit_setBits {w : Nat} (hw : 0 < w) (m : Mem) (a i count k : Nat) :
    bit (setBits w m a i count) k =
      (decide (8 * a + i ≤ k ∧ k < 8 * a + i + count) || bit m k) := by
  induction count with
  | zero =>
    have h : ¬ (8 * a + i ≤ k ∧ k < 8 * a + i + 0) := by omega
    rw [setBits, decide_eq_false h, Bool.false_or]
  | succ count ih =>
    rw [setBits, bit_setBit hw, ih, ← Bool.or_assoc, ← Bool.decide_or]
    congr 1
    exact decide_eq_decide.mpr (by omega)

end ByteMem
