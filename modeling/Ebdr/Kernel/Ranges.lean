import Ebdr.Kernel.Grains
import Mathlib.Data.Set.Basic

/-!
# Range operations on a half

`ebdr_bm_change_bits` sets or clears the bits of a range one by one, `ebdr_bm_set_bits` sets the whole
words of a longer range by pages, and `ebdr_clear_bmap_range` clears bytes. The first cuts a range at
the end of the half, the last refuses one that ends beyond it, and the words are checked against the
pages that `ebdr_get_page_ptr` has.

`Assigns` says what such an operation does: it gives the bits of a set one value and keeps everything
else. `ebdrBmSetBits_eq` is the agreement of the two setters, and `touchesOnly_iff` says when an
operation stays inside its range and its half.
-/

namespace Ebdr

open ByteMem CInt

/-- `BITS_PER_LONG`. -/
def bitsPerLong : Nat := 64

/-- `NUM_BITS_PER_PAGE`. -/
def numBitsPerPage : Nat := 1 <<< 15

/-- `NUM_WORDS_PER_PAGE`. -/
def numWordsPerPage : Nat := 4096 >>> 3

/-- `PLKT_MAX_KMALLOC_BYTES`. -/
def plktMaxKmallocBytes : Nat := 1 * 4 * 4096

/-- `BM_SET_BITS`. -/
def bmSetBits : Nat := 1

/-- `NEXT_LONG_BOUNDARY`; the mask is `~63`. -/
def nextLongBoundary (val : Nat) : Nat := ulong (val + bitsPerLong - 1) &&& (2 ^ 64 - bitsPerLong)

/-- `ebdr_get_page_ptr`, as an offset from the bitmap. -/
def ebdrGetPagePtr (pnum : Nat) : Option Nat :=
  let off := ulong (pnum * numBitsPerPage) / 8
  if plktMaxKmallocBytes < off then none else some off

/-- `ebdr_bm_bit_to_page`; the page number is returned as an `int`. -/
def ebdrBmBitToPage (bnum : Nat) : Int := toInt (bnum >>> (12 + 3))

/-- `ebdr_bm_set_bit2` or `ebdr_bm_clear_bit2` on the page at `page`; without one nothing happens, and
the error is not looked at. -/
def ebdrBmChangeBit2 (k : Kernel) (p : Ptr) (arg num : Nat) (page : Option Nat) : Option Kernel :=
  match page with
  | none => some k
  | some off =>
    if 8 * (p.off + off) + num < 8 * k.areaBytes p.area then
      let m := k.mem p.area
      some (k.setMem p.area
        (if arg = bmSetBits then setBit 8 m (p.off + off) num else clearBit 8 m (p.off + off) num))
    else none

/-- `lpage` and `paddr` of the loop: the page looked up last. -/
structure LastPage where
  lpage : Int
  paddr : Option Nat
  deriving DecidableEq, Repr

/-- The page of bit `i`: the last one again, or looked up. -/
def LastPage.next (c : LastPage) (i : Nat) : LastPage :=
  if c.lpage ≠ ebdrBmBitToPage i then
    ⟨ebdrBmBitToPage i, ebdrGetPagePtr (intToUlong (ebdrBmBitToPage i))⟩
  else c

/-- The loop of `ebdr_bm_change_bits` from bit `i` on, for a number of turns. -/
def changeLoop (p : Ptr) (arg : Nat) (c : LastPage) (i : Nat) (k : Kernel) : Nat → Option Kernel
  | 0 => some k
  | turns + 1 =>
    (ebdrBmChangeBit2 k p arg (i &&& (numBitsPerPage - 1)) (c.next i).paddr).bind fun k' =>
      changeLoop p arg (c.next i) (i + 1) k' turns

/-- The last bit of the range, cut at the end of the half. -/
def clampEnd (b : EbdrBitmap) (stop : Nat) : Nat :=
  if 0 < b.bitmapSize ∧ b.bitmapSize ≤ stop then b.bitmapSize - 1 else stop

/-- `ebdr_bm_change_bits`. -/
def ebdrBmChangeBits (b : EbdrBitmap) (start stop arg : Nat) (k : Kernel) : Option Kernel :=
  b.bitmapArea.bind fun p =>
    -- no `unsigned long` is greater than the largest one: the loop would not end
    if clampEnd b stop = 2 ^ 64 - 1 then none
    else changeLoop p arg ⟨-1, none⟩ start k (clampEnd b stop + 1 - start)

/-- `ebdr_bm_set_words`; the error of a page that is not there is not looked at. -/
def ebdrBmSetWords (p : Ptr) (pno start stop : Nat) (k : Kernel) : Option Kernel :=
  match ebdrGetPagePtr pno with
  | none => some k
  | some off =>
    if stop ≤ start then some k
    else if p.off + off + 8 * stop ≤ k.areaBytes p.area then
      some (k.setMem p.area
        (storeWords 8 (k.mem p.area) (p.off + off + 8 * start) (2 ^ 64 - 1) (stop - start)))
    else none

/-- The loop of `ebdr_bm_set_bits` over the pages before the last one. -/
def setPages (p : Ptr) (pnum fword : Nat) (k : Kernel) : Nat → Option Kernel
  | 0 => some k
  | pages + 1 =>
    (ebdrBmSetWords p pnum fword numWordsPerPage k).bind fun k' => setPages p (pnum + 1) 0 k' pages

/-- `ebdr_bm_set_bits`. -/
def ebdrBmSetBits (b : EbdrBitmap) (start stop : Nat) (k : Kernel) : Option Kernel :=
  let b1 := nextLongBoundary start
  let e1 := ulong (stop + 1) &&& (2 ^ 64 - bitsPerLong)
  if ulong (stop + (2 ^ 64 - start)) ≤ 3 * bitsPerLong then ebdrBmChangeBits b start stop bmSetBits k
  else
    b.bitmapArea.bind fun p =>
      let fpage := b1 >>> (12 + 3)
      let lpage := e1 >>> (12 + 3)
      let fword := (b1 >>> 6) % numWordsPerPage
      let lword := (e1 >>> 6) % numWordsPerPage
      (if b1 ≠ 0 then ebdrBmChangeBits b start (b1 - 1) bmSetBits k else some k).bind fun k =>
      (setPages p fpage fword k (lpage - fpage)).bind fun k =>
      (if lword ≠ 0 then
          ebdrBmSetWords p lpage (if fpage < lpage then 0 else fword) lword k
        else some k).bind fun k =>
      if e1 ≤ stop then ebdrBmChangeBits b e1 stop bmSetBits k else some k

/-- `ebdr_clear_bmap_range`: the size goes through an `int`. -/
def ebdrClearBmapRange (b : EbdrBitmap) (start stop : Nat) (k : Kernel) : Option Kernel :=
  if intToUlong (toInt b.bitmapSize) ≤ stop then some k
  else
    b.bitmapArea.bind fun p =>
      if stop / 8 < start / 8 then some k
      else if p.off + stop / 8 < k.areaBytes p.area then
        some (k.setMem p.area
          (storeWords 1 (k.mem p.area) (p.off + start / 8) 0 (stop / 8 + 1 - start / 8)))
      else none

/-! ### What an operation assigns -/

/-- The bits of the area that have a number in `S` when they are counted from `p`. -/
def Ptr.bits (p : Ptr) (S : Set Nat) : Set Nat := {x | ∃ t ∈ S, x = 8 * p.off + t}

/-- The operation gives the value `v` to the bits in `S`, counted from `p`, and changes nothing else;
it is defined if these bits lie in the area. -/
structure Assigns (f : Kernel → Option Kernel) (p : Ptr) (S : Set Nat) (v : Bool) : Prop where
  defined : ∀ k, (∃ k', f k = some k') ↔ ∀ x ∈ p.bits S, x < 8 * k.areaBytes p.area
  effect : ∀ k k', f k = some k' → ∃ m, k' = k.setMem p.area m ∧
    ∀ x, (x ∈ p.bits S → bit m x = v) ∧ (x ∉ p.bits S → bit m x = bit (k.mem p.area) x)

section

variable {f g : Kernel → Option Kernel} {p : Ptr} {S T : Set Nat} {v : Bool}

theorem Ptr.bits_union (p : Ptr) (S T : Set Nat) : p.bits (S ∪ T) = p.bits S ∪ p.bits T := by
  ext x
  constructor
  · rintro ⟨t, ht | ht, rfl⟩
    · exact Or.inl ⟨t, ht, rfl⟩
    · exact Or.inr ⟨t, ht, rfl⟩
  · rintro (⟨t, ht, rfl⟩ | ⟨t, ht, rfl⟩)
    · exact ⟨t, Or.inl ht, rfl⟩
    · exact ⟨t, Or.inr ht, rfl⟩

theorem Kernel.setMem_self (k : Kernel) (a : Nat) : k.setMem a (k.mem a) = k := by
  simp [Kernel.setMem]

theorem Kernel.setMem_setMem (k : Kernel) (a : Nat) (m m' : Mem) :
    (k.setMem a m).setMem a m' = k.setMem a m' := by
  simp [Kernel.setMem]

@[simp] theorem Kernel.mem_setMem (k : Kernel) (a : Nat) (m : Mem) : (k.setMem a m).mem a = m :=
  Function.update_self _ _ _

theorem Assigns.nothing (p : Ptr) (v : Bool) : Assigns some p ∅ v where
  defined k := by
    refine iff_of_true ⟨k, rfl⟩ ?_
    rintro x ⟨t, ht, -⟩
    exact ht.elim
  effect k k' h := by
    refine ⟨k.mem p.area, ?_, fun x => ⟨?_, fun _ => rfl⟩⟩
    · rw [← Option.some.inj h, k.setMem_self]
    · rintro ⟨t, ht, -⟩
      exact ht.elim

/-- **One after the other.** -/
theorem Assigns.bind (hf : Assigns f p S v) (hg : Assigns g p T v) :
    Assigns (fun k => (f k).bind g) p (S ∪ T) v := by
  constructor
  · intro k
    rw [p.bits_union]
    constructor
    · rintro ⟨k2, h⟩
      obtain ⟨k1, h1, h2⟩ := Option.bind_eq_some_iff.mp h
      obtain ⟨m, rfl, -⟩ := hf.effect k k1 h1
      have hS := (hf.defined k).mp ⟨_, h1⟩
      have hT := (hg.defined (k.setMem p.area m)).mp ⟨_, h2⟩
      rintro x (hx | hx)
      · exact hS x hx
      · exact hT x hx
    · intro hin
      obtain ⟨k1, h1⟩ := (hf.defined k).mpr fun x hx => hin x (Or.inl hx)
      obtain ⟨m, rfl, -⟩ := hf.effect k k1 h1
      obtain ⟨k2, h2⟩ := (hg.defined (k.setMem p.area m)).mpr fun x hx => hin x (Or.inr hx)
      exact ⟨k2, Option.bind_eq_some_iff.mpr ⟨_, h1, h2⟩⟩
  · intro k k2 h
    obtain ⟨k1, h1, h2⟩ := Option.bind_eq_some_iff.mp h
    obtain ⟨m, rfl, hm⟩ := hf.effect k k1 h1
    obtain ⟨m', rfl, hm'⟩ := hg.effect _ k2 h2
    refine ⟨m', k.setMem_setMem .., fun x => ?_⟩
    rw [p.bits_union]
    rw [Kernel.mem_setMem] at hm'
    constructor
    · rintro (hx | hx)
      · by_cases hT : x ∈ p.bits T
        · exact (hm' x).1 hT
        · rw [(hm' x).2 hT]
          exact (hm x).1 hx
      · exact (hm' x).1 hx
    · intro hx
      rw [(hm' x).2 fun hT => hx (Or.inr hT)]
      exact (hm x).2 fun hS => hx (Or.inl hS)

theorem Assigns.eq (hf : Assigns f p S v) (hg : Assigns g p S v) (k : Kernel) : f k = g k := by
  by_cases hin : ∀ x ∈ p.bits S, x < 8 * k.areaBytes p.area
  · obtain ⟨k1, h1⟩ := (hf.defined k).mpr hin
    obtain ⟨k2, h2⟩ := (hg.defined k).mpr hin
    obtain ⟨m, rfl, hm⟩ := hf.effect k k1 h1
    obtain ⟨m', rfl, hm'⟩ := hg.effect k k2 h2
    have hsame : m = m' := by
      apply ext_bit
      intro x
      by_cases hx : x ∈ p.bits S
      · rw [(hm x).1 hx, (hm' x).1 hx]
      · rw [(hm x).2 hx, (hm' x).2 hx]
    rw [h1, h2, hsame]
  · have h1 : f k = none := by
      by_contra hne
      exact hin ((hf.defined k).mp (Option.ne_none_iff_exists'.mp hne))
    have h2 : g k = none := by
      by_contra hne
      exact hin ((hg.defined k).mp (Option.ne_none_iff_exists'.mp hne))
    rw [h1, h2]

theorem Assigns.store (store : Mem → Mem) (ok : Kernel → Prop) [DecidablePred ok]
    (hok : ∀ k, ok k ↔ ∀ x ∈ p.bits S, x < 8 * k.areaBytes p.area)
    (hstore : ∀ m x, (x ∈ p.bits S → bit (store m) x = v) ∧
      (x ∉ p.bits S → bit (store m) x = bit m x)) :
    Assigns (fun k => if ok k then some (k.setMem p.area (store (k.mem p.area))) else none) p S v where
  defined k := by
    rw [← hok k]
    constructor
    · rintro ⟨k', h⟩
      exact (Option.ite_none_right_eq_some.mp h).1
    · intro h
      exact ⟨_, if_pos h⟩
  effect k k' h := by
    obtain ⟨-, heq⟩ := Option.ite_none_right_eq_some.mp h
    exact ⟨_, (Option.some.inj heq).symm, hstore (k.mem p.area)⟩

theorem Assigns.of_eq (h : Assigns f p S v) (heq : S = T) : Assigns f p T v := by
  rw [← heq]
  exact h

end

/-! ### Pages -/

/-- The bits of the pages that `ebdr_get_page_ptr` has; its test lets a fifth page through. -/
def pageBits : Nat := 5 * numBitsPerPage

theorem ebdrGetPagePtr_of_lt {pnum : Nat} (h : pnum < 2 ^ 49) :
    ebdrGetPagePtr pnum = if pnum < 5 then some (4096 * pnum) else none := by
  have hoff : ulong (pnum * numBitsPerPage) / 8 = 4096 * pnum := by
    unfold ulong numBitsPerPage
    omega
  unfold ebdrGetPagePtr plktMaxKmallocBytes
  dsimp only
  rw [hoff]
  by_cases hlt : pnum < 5
  · rw [if_pos hlt, if_neg (by omega)]
  · rw [if_neg hlt, if_pos (by omega)]

theorem ebdrGetPagePtr_of_neg {pnum : Nat} (h1 : 2 ^ 64 - 2 ^ 31 ≤ pnum) (h2 : pnum < 2 ^ 64) :
    ebdrGetPagePtr pnum = none := by
  unfold ebdrGetPagePtr plktMaxKmallocBytes ulong numBitsPerPage
  dsimp only
  rw [if_pos (by omega)]

/-- Where `ebdr_bm_change_bits` has bit `i`. -/
def bitTarget (i : Nat) : Option Nat :=
  (ebdrGetPagePtr (intToUlong (ebdrBmBitToPage i))).map fun off =>
    8 * off + (i &&& (numBitsPerPage - 1))

/-- The page number is cut to 32 bits, so the bits are counted modulo `2 ^ 47`. -/
theorem bitTarget_eq (i : Nat) :
    bitTarget i = if i % 2 ^ 47 < pageBits then some (i % 2 ^ 47) else none := by
  have hmask : i &&& (numBitsPerPage - 1) = i % 2 ^ 15 := Nat.and_two_pow_sub_one_eq_mod i 15
  have hshift : i >>> (12 + 3) = i / 2 ^ 15 := Nat.shiftRight_eq_div_pow i 15
  unfold bitTarget ebdrBmBitToPage pageBits numBitsPerPage at *
  rw [hmask, hshift]
  have hsplit : i % 2 ^ 47 = i / 2 ^ 15 % 2 ^ 32 * 2 ^ 15 + i % 2 ^ 15 := by omega
  have hbmod : toInt (i / 2 ^ 15) = if i / 2 ^ 15 % 2 ^ 32 < 2 ^ 31 then
      ((i / 2 ^ 15 % 2 ^ 32 : Nat) : Int) else ((i / 2 ^ 15 % 2 ^ 32 : Nat) : Int) - 2 ^ 32 := by
    unfold toInt
    rw [Int.bmod_def]
    omega
  rw [hbmod]
  by_cases hlow : i / 2 ^ 15 % 2 ^ 32 < 2 ^ 31
  · rw [if_pos hlow, intToUlong_ofNat (by omega), ebdrGetPagePtr_of_lt (by omega)]
    by_cases hpage : i / 2 ^ 15 % 2 ^ 32 < 5
    · rw [if_pos hpage, if_pos (by omega), Option.map_some, Option.some_inj]
      omega
    · rw [if_neg hpage, if_neg (by omega), Option.map_none]
  · have hneg : intToUlong (((i / 2 ^ 15 % 2 ^ 32 : Nat) : Int) - 2 ^ 32) =
        2 ^ 64 - 2 ^ 32 + i / 2 ^ 15 % 2 ^ 32 := by
      unfold intToUlong
      omega
    rw [if_neg hlow, hneg, ebdrGetPagePtr_of_neg (by omega) (by omega), if_neg (by omega),
      Option.map_none]

/-! ### What each operation assigns -/

theorem assigns_changeBit2 (p : Ptr) (arg num : Nat) (page : Option Nat) :
    Assigns (fun k => ebdrBmChangeBit2 k p arg num page) p
      {t | page.map (fun off => 8 * off + num) = some t} (decide (arg = bmSetBits)) := by
  cases page with
  | none =>
    refine (Assigns.nothing p _).of_eq ?_
    ext t
    exact iff_of_false id nofun
  | some off =>
    have hbits : ∀ x, x ∈ p.bits {t | (some off).map (fun off => 8 * off + num) = some t} ↔
        x = 8 * (p.off + off) + num := by
      intro x
      constructor
      · rintro ⟨t, ht, rfl⟩
        have ht' : 8 * off + num = t := Option.some.inj ht
        omega
      · rintro rfl
        exact ⟨8 * off + num, rfl, by omega⟩
    refine Assigns.store
      (fun m => if arg = bmSetBits then setBit 8 m (p.off + off) num
        else clearBit 8 m (p.off + off) num)
      (fun k => 8 * (p.off + off) + num < 8 * k.areaBytes p.area) ?_ ?_
    · intro k
      constructor
      · intro hin x hx
        rwa [(hbits x).mp hx]
      · intro hall
        exact hall _ ((hbits _).mpr rfl)
    · intro m x
      rw [hbits]
      by_cases harg : arg = bmSetBits
      · rw [if_pos harg, bit_setBit (by decide), decide_eq_true harg]
        constructor
        · intro hx
          rw [decide_eq_true hx, Bool.true_or]
        · intro hx
          rw [decide_eq_false hx, Bool.false_or]
      · rw [if_neg harg, bit_clearBit (by decide), decide_eq_false harg]
        constructor
        · intro hx
          rw [decide_eq_true hx, Bool.not_true, Bool.false_and]
        · intro hx
          rw [decide_eq_false hx, Bool.not_false, Bool.true_and]

/-- The page looked up last is the one of its number. -/
def LastPage.Ok (c : LastPage) : Prop := c.paddr = ebdrGetPagePtr (intToUlong c.lpage)

theorem LastPage.Ok.next {c : LastPage} (h : c.Ok) (i : Nat) :
    (c.next i).Ok ∧ (c.next i).paddr = ebdrGetPagePtr (intToUlong (ebdrBmBitToPage i)) := by
  by_cases hsame : c.lpage = ebdrBmBitToPage i
  · have hnext : c.next i = c := if_neg (not_not.mpr hsame)
    rw [hnext, ← hsame]
    exact ⟨h, h⟩
  · have hnext : c.next i =
        ⟨ebdrBmBitToPage i, ebdrGetPagePtr (intToUlong (ebdrBmBitToPage i))⟩ := if_pos hsame
    rw [hnext]
    unfold LastPage.Ok
    dsimp only
    exact ⟨rfl, rfl⟩

theorem LastPage.ok_start : LastPage.Ok ⟨-1, none⟩ := by
  have hneg : intToUlong (-1) = 2 ^ 64 - 1 := by decide
  unfold LastPage.Ok
  dsimp only
  rw [hneg, ebdrGetPagePtr_of_neg (by omega) (by omega)]

theorem assigns_changeLoop (p : Ptr) (arg : Nat) {c : LastPage} (hc : c.Ok) (i turns : Nat) :
    Assigns (fun k => changeLoop p arg c i k turns) p
      {t | ∃ j, i ≤ j ∧ j < i + turns ∧ bitTarget j = some t} (decide (arg = bmSetBits)) := by
  induction turns generalizing i c with
  | zero =>
    refine (Assigns.nothing p _).of_eq ?_
    ext t
    refine iff_of_false id ?_
    rintro ⟨j, h1, h2, -⟩
    omega
  | succ turns ih =>
    obtain ⟨hok, hpage⟩ := hc.next i
    refine ((assigns_changeBit2 p arg (i &&& (numBitsPerPage - 1)) (c.next i).paddr).bind
      (ih hok (i + 1))).of_eq ?_
    ext t
    rw [hpage]
    constructor
    · rintro (ht | ⟨j, h1, h2, ht⟩)
      · exact ⟨i, le_refl _, by omega, ht⟩
      · exact ⟨j, by omega, by omega, ht⟩
    · rintro ⟨j, h1, h2, ht⟩
      rcases Nat.eq_or_lt_of_le h1 with rfl | hlt
      · exact Or.inl ht
      · exact Or.inr ⟨j, hlt, by omega, ht⟩

/-- The bits that `ebdr_bm_change_bits` changes for the bits from `first` up to `stop`. -/
def changed (first stop : Nat) : Set Nat :=
  {t | ∃ j, first ≤ j ∧ j < stop ∧ j % 2 ^ 47 < pageBits ∧ j % 2 ^ 47 = t}

/-- The end of a range of bits, cut at the end of the half. -/
def cutEnd (b : EbdrBitmap) (stop : Nat) : Nat :=
  if 0 < b.bitmapSize then min b.bitmapSize stop else stop

theorem clampEnd_succ (b : EbdrBitmap) (stop : Nat) : clampEnd b stop + 1 = cutEnd b (stop + 1) := by
  unfold clampEnd cutEnd
  split <;> split <;> omega

theorem cutEnd_le (b : EbdrBitmap) (stop : Nat) : cutEnd b stop ≤ stop := by
  unfold cutEnd
  split <;> omega

theorem assigns_changeBits {b : EbdrBitmap} {p : Ptr} (hp : b.bitmapArea = some p)
    (start stop arg : Nat) (hend : clampEnd b stop ≠ 2 ^ 64 - 1) :
    Assigns (ebdrBmChangeBits b start stop arg) p (changed start (cutEnd b (stop + 1)))
      (decide (arg = bmSetBits)) := by
  have hloop := assigns_changeLoop p arg LastPage.ok_start start (clampEnd b stop + 1 - start)
  have hfun : ebdrBmChangeBits b start stop arg =
      fun k => changeLoop p arg ⟨-1, none⟩ start k (clampEnd b stop + 1 - start) := by
    funext k
    unfold ebdrBmChangeBits
    rw [hp, Option.bind_some, if_neg hend]
  rw [hfun, ← clampEnd_succ]
  refine hloop.of_eq ?_
  ext t
  constructor
  · rintro ⟨j, h1, h2, ht⟩
    rw [bitTarget_eq, Option.ite_none_right_eq_some] at ht
    exact ⟨j, h1, by omega, ht.1, Option.some.inj ht.2⟩
  · rintro ⟨j, h1, h2, hlt, rfl⟩
    exact ⟨j, h1, by omega, by rw [bitTarget_eq, if_pos hlt]⟩

/-- The bits of the pages from `first` up to `stop`. -/
def pageRange (first stop : Nat) : Set Nat := {t | first ≤ t ∧ t < stop ∧ t < pageBits}

theorem assigns_setWords (p : Ptr) {pno start stop : Nat} (hpno : pno < 2 ^ 49)
    (hstop : stop ≤ numWordsPerPage) :
    Assigns (ebdrBmSetWords p pno start stop) p
      (pageRange (numBitsPerPage * pno + 64 * start) (numBitsPerPage * pno + 64 * stop)) true := by
  have hwords : numWordsPerPage = 512 := rfl
  have hlimit : pageBits = 163840 := rfl
  rw [show numBitsPerPage = 32768 from rfl]
  by_cases hpage : pno < 5 ∧ start < stop
  · obtain ⟨hpage, hlt⟩ := hpage
    have hbits : ∀ x, x ∈ p.bits (pageRange (32768 * pno + 64 * start) (32768 * pno + 64 * stop)) ↔
        8 * (p.off + 4096 * pno + 8 * start) ≤ x ∧
          x < 8 * (p.off + 4096 * pno + 8 * start + 8 * (stop - start)) := by
      intro x
      constructor
      · rintro ⟨t, ⟨h1, h2, h3⟩, rfl⟩
        omega
      · rintro ⟨h1, h2⟩
        refine ⟨x - 8 * p.off, ⟨?_, ?_, ?_⟩, ?_⟩ <;> omega
    have hfun : ebdrBmSetWords p pno start stop = fun k =>
        if p.off + 4096 * pno + 8 * stop ≤ k.areaBytes p.area then
          some (k.setMem p.area (storeWords 8 (k.mem p.area) (p.off + 4096 * pno + 8 * start)
            (2 ^ 64 - 1) (stop - start)))
        else none := by
      funext k
      unfold ebdrBmSetWords
      rw [ebdrGetPagePtr_of_lt hpno, if_pos hpage]
      dsimp only
      rw [if_neg (by omega)]
    rw [hfun]
    refine Assigns.store
      (fun m => storeWords 8 m (p.off + 4096 * pno + 8 * start) (2 ^ 64 - 1) (stop - start))
      (fun k => p.off + 4096 * pno + 8 * stop ≤ k.areaBytes p.area) ?_ ?_
    · intro k
      constructor
      · intro hin x hx
        have := (hbits x).mp hx
        omega
      · intro hall
        have := hall (8 * (p.off + 4096 * pno + 8 * stop) - 1) ((hbits _).mpr (by omega))
        omega
    · intro m x
      have hones : ∀ j < 8 * 8, (2 ^ 64 - 1).testBit j = true := by
        intro j hj
        rw [Nat.testBit_two_pow_sub_one, decide_eq_true hj]
      rw [hbits, bit_storeWords hones]
      exact ⟨fun hx => if_pos hx, fun hx => if_neg hx⟩
  · have hfun : ebdrBmSetWords p pno start stop = some := by
      funext k
      unfold ebdrBmSetWords
      rw [ebdrGetPagePtr_of_lt hpno]
      by_cases h5 : pno < 5
      · rw [if_pos h5]
        dsimp only
        rw [if_pos (by omega)]
      · rw [if_neg h5]
    rw [hfun]
    refine (Assigns.nothing p _).of_eq ?_
    ext t
    refine iff_of_false id ?_
    rintro ⟨h1, h2, h3⟩
    omega

theorem assigns_setPages (p : Ptr) (pages : Nat) {pnum fword : Nat}
    (hpages : pnum + pages ≤ 2 ^ 49) (hfword : fword ≤ numWordsPerPage) :
    Assigns (fun k => setPages p pnum fword k pages) p
      (if pages = 0 then ∅ else
        pageRange (numBitsPerPage * pnum + 64 * fword) (numBitsPerPage * (pnum + pages))) true := by
  generalize hsize : numBitsPerPage = size
  have hsize' : size = 32768 := hsize.symm
  induction pages generalizing pnum fword with
  | zero => exact Assigns.nothing p _
  | succ pages ih =>
    have hfirst := @assigns_setWords p pnum fword numWordsPerPage (by omega) (le_refl _)
    rw [hsize, show numWordsPerPage = 512 from rfl] at hfirst
    refine (hfirst.bind (@ih (pnum + 1) 0 (by omega) (Nat.zero_le _))).of_eq ?_
    rw [if_neg (Nat.succ_ne_zero pages)]
    rw [show numWordsPerPage = 512 from rfl] at hfword
    subst hsize'
    ext t
    constructor
    · rintro (⟨h1, h2, h3⟩ | ht)
      · exact ⟨h1, by omega, h3⟩
      · split at ht
        · exact ht.elim
        · obtain ⟨h1, h2, h3⟩ := ht
          have hlow : 32768 * pnum + 64 * fword ≤ t := by omega
          have hhigh : t < 32768 * (pnum + (pages + 1)) := by omega
          exact ⟨hlow, hhigh, h3⟩
    · rintro ⟨h1, h2, h3⟩
      by_cases hfirst : t < 32768 * pnum + 64 * 512
      · exact Or.inl ⟨h1, hfirst, h3⟩
      · refine Or.inr ?_
        rw [if_neg (by omega)]
        have hlow : 32768 * (pnum + 1) + 64 * 0 ≤ t := by omega
        have hhigh : t < 32768 * (pnum + 1 + pages) := by omega
        exact ⟨hlow, hhigh, h3⟩

/-! ### `ebdr_bm_set_bits` -/

theorem and_wordMask {x : Nat} (h : x < 2 ^ 64) : x &&& (2 ^ 64 - bitsPerLong) = x / 64 * 64 := by
  have hmask : 2 ^ 64 - bitsPerLong = (2 ^ 58 - 1) <<< 6 := by decide
  rw [hmask, show (64 : Nat) = 2 ^ 6 from rfl]
  apply Nat.eq_of_testBit_eq
  intro j
  rw [Nat.testBit_and, Nat.testBit_shiftLeft, Nat.testBit_two_pow_sub_one,
    Nat.testBit_mul_two_pow, Nat.testBit_div_two_pow]
  by_cases hj : 6 ≤ j
  · have hback : j - 6 + 6 = j := by omega
    rw [decide_eq_true hj, Bool.true_and, Bool.true_and, hback]
    by_cases hj' : j < 64
    · rw [decide_eq_true (by omega), Bool.and_true]
    · have hpow : 2 ^ 64 ≤ 2 ^ j := Nat.pow_le_pow_right (by decide) (by omega)
      rw [Nat.testBit_lt_two_pow (lt_of_lt_of_le h hpow), Bool.false_and]
  · rw [decide_eq_false hj, Bool.false_and, Bool.false_and, Bool.and_false]

/-- The first word boundary from `start` on. -/
def firstWord (start : Nat) : Nat := (start + 63) / 64 * 64

/-- The last word boundary up to the bit after `stop`; there is none after the last number. -/
def lastWord (stop : Nat) : Nat := ulong (stop + 1) / 64 * 64

theorem nextLongBoundary_eq {start : Nat} (h : start + 63 < 2 ^ 64) :
    nextLongBoundary start = firstWord start := by
  unfold nextLongBoundary firstWord
  have hsum : ulong (start + bitsPerLong - 1) = start + 63 := by
    unfold ulong bitsPerLong
    omega
  rw [hsum, and_wordMask h]

theorem Assigns.ite_some {f : Kernel → Option Kernel} {p : Ptr} {S : Set Nat} {v : Bool} {c : Prop}
    [Decidable c] (h : c → Assigns f p S v) (hnot : ¬ c → S = ∅) :
    Assigns (fun k => if c then f k else some k) p S v := by
  by_cases hc : c
  · have hfun : (fun k => if c then f k else some k) = f := by
      funext k
      exact if_pos hc
    rw [hfun]
    exact h hc
  · have hfun : (fun k => if c then f k else some k) = some := by
      funext k
      exact if_neg hc
    rw [hfun, hnot hc]
    exact Assigns.nothing p v

theorem assigns_wholeWords (p : Ptr) {first stop : Nat} (hfirst : first % 64 = 0)
    (hstop : stop % 64 = 0) (hlt : first < 2 ^ 64) (hlt' : stop < 2 ^ 64)
    (hle : first ≤ stop ∨ stop = 0) :
    Assigns (fun k => (setPages p (first >>> (12 + 3)) ((first >>> 6) % numWordsPerPage) k
        (stop >>> (12 + 3) - first >>> (12 + 3))).bind fun k =>
      if (stop >>> 6) % numWordsPerPage ≠ 0 then
        ebdrBmSetWords p (stop >>> (12 + 3))
          (if first >>> (12 + 3) < stop >>> (12 + 3) then 0 else (first >>> 6) % numWordsPerPage)
          ((stop >>> 6) % numWordsPerPage) k
      else some k) p (pageRange first stop) true := by
  simp only [Nat.shiftRight_eq_div_pow, show numWordsPerPage = 512 from rfl,
    show (2 : Nat) ^ (12 + 3) = 32768 from rfl, show (2 : Nat) ^ 6 = 64 from rfl]
  have hpages := @assigns_setPages p (stop / 32768 - first / 32768) (first / 32768)
    (first / 64 % 512) (by omega) (by unfold numWordsPerPage; omega)
  have hlast : Assigns (fun k => if stop / 64 % 512 ≠ 0 then
      ebdrBmSetWords p (stop / 32768) (if first / 32768 < stop / 32768 then 0 else first / 64 % 512)
        (stop / 64 % 512) k
      else some k) p
      (pageRange (32768 * (stop / 32768) +
        64 * (if first / 32768 < stop / 32768 then 0 else first / 64 % 512)) stop) true := by
    refine Assigns.ite_some (fun hword => ?_) (fun hword => ?_)
    · refine (assigns_setWords p (by omega) (by unfold numWordsPerPage; omega)).of_eq ?_
      rw [show numBitsPerPage = 32768 from rfl]
      congr 1
      omega
    · ext t
      refine iff_of_false ?_ id
      rintro ⟨h1, h2, h3⟩
      omega
  refine (hpages.bind hlast).of_eq ?_
  rw [show numBitsPerPage = 32768 from rfl]
  have hstart : 32768 * (first / 32768) + 64 * (first / 64 % 512) = first := by omega
  rw [hstart]
  ext t
  by_cases hmore : first / 32768 < stop / 32768
  · have hpagesEnd : first / 32768 + (stop / 32768 - first / 32768) = stop / 32768 := by omega
    rw [if_neg (by omega), if_pos hmore, hpagesEnd]
    constructor
    · rintro (⟨h1, h2, h3⟩ | ⟨h1, h2, h3⟩)
      · exact ⟨h1, by omega, h3⟩
      · exact ⟨by omega, h2, h3⟩
    · rintro ⟨h1, h2, h3⟩
      by_cases hlow : t < 32768 * (stop / 32768)
      · exact Or.inl ⟨h1, hlow, h3⟩
      · exact Or.inr ⟨by omega, h2, h3⟩
  · rw [if_pos (by omega), if_neg hmore]
    constructor
    · rintro (h | ⟨h1, h2, h3⟩)
      · exact h.elim
      · exact ⟨by omega, h2, h3⟩
    · rintro ⟨h1, h2, h3⟩
      exact Or.inr ⟨by omega, h2, h3⟩

/-- **What the fast setter assigns** for a range of more than three words. -/
theorem assigns_setBits {b : EbdrBitmap} {p : Ptr} (hp : b.bitmapArea = some p) {start stop : Nat}
    (hsize : b.bitmapSize < 2 ^ 64) (hstop : stop < 2 ^ 64) (hlong : start + 192 < stop)
    (hend : clampEnd b stop ≠ 2 ^ 64 - 1) :
    Assigns (ebdrBmSetBits b start stop) p
      (changed start (cutEnd b (firstWord start)) ∪ (pageRange (firstWord start) (lastWord stop) ∪
        changed (lastWord stop) (cutEnd b (stop + 1)))) true := by
  have hb1 : firstWord start < 2 ^ 64 := by unfold firstWord; omega
  have hhead : Assigns (fun k => if firstWord start ≠ 0 then
      ebdrBmChangeBits b start (firstWord start - 1) bmSetBits k else some k) p
      (changed start (cutEnd b (firstWord start))) true := by
    refine Assigns.ite_some (fun hne => ?_) (fun hzero => ?_)
    · have hbefore : firstWord start - 1 + 1 = firstWord start := by omega
      have hlt : clampEnd b (firstWord start - 1) ≠ 2 ^ 64 - 1 := by
        unfold clampEnd
        split <;> omega
      have := assigns_changeBits hp start (firstWord start - 1) bmSetBits hlt
      rwa [hbefore] at this
    · rw [not_not] at hzero
      have hcut := cutEnd_le b (firstWord start)
      ext t
      refine iff_of_false ?_ id
      rintro ⟨j, h1, h2, -⟩
      omega
  have hwords := @assigns_wholeWords p (firstWord start) (lastWord stop)
    (by unfold firstWord; omega) (by unfold lastWord; omega) hb1
    (by unfold lastWord ulong; omega) (by unfold firstWord lastWord ulong; omega)
  have htail : Assigns (fun k => if lastWord stop ≤ stop then
      ebdrBmChangeBits b (lastWord stop) stop bmSetBits k else some k) p
      (changed (lastWord stop) (cutEnd b (stop + 1))) true := by
    refine Assigns.ite_some (fun _ => ?_) (fun hgt => ?_)
    · exact assigns_changeBits hp (lastWord stop) stop bmSetBits hend
    · have hcut := cutEnd_le b (stop + 1)
      ext t
      refine iff_of_false ?_ id
      rintro ⟨j, h1, h2, -⟩
      omega
  have hfun : ebdrBmSetBits b start stop = fun k =>
      (if firstWord start ≠ 0 then ebdrBmChangeBits b start (firstWord start - 1) bmSetBits k
        else some k).bind fun k =>
      ((setPages p (firstWord start >>> (12 + 3)) ((firstWord start >>> 6) % numWordsPerPage) k
          (lastWord stop >>> (12 + 3) - firstWord start >>> (12 + 3))).bind fun k =>
        if (lastWord stop >>> 6) % numWordsPerPage ≠ 0 then
          ebdrBmSetWords p (lastWord stop >>> (12 + 3))
            (if firstWord start >>> (12 + 3) < lastWord stop >>> (12 + 3) then 0
              else (firstWord start >>> 6) % numWordsPerPage)
            ((lastWord stop >>> 6) % numWordsPerPage) k
        else some k).bind fun k =>
      if lastWord stop ≤ stop then ebdrBmChangeBits b (lastWord stop) stop bmSetBits k
      else some k := by
    funext k
    have hdelta : ¬ ulong (stop + (2 ^ 64 - start)) ≤ 3 * bitsPerLong := by
      unfold ulong bitsPerLong
      omega
    have he1 : ulong (stop + 1) &&& (2 ^ 64 - bitsPerLong) = lastWord stop :=
      and_wordMask (by unfold ulong; omega)
    unfold ebdrBmSetBits
    dsimp only
    rw [if_neg hdelta, hp, Option.bind_some, he1, nextLongBoundary_eq (by omega)]
    congr 1
    funext k
    exact (Option.bind_assoc ..).symm
  rw [hfun]
  exact hhead.bind (hwords.bind htail)

/-! ### The two setters agree -/

/-- `ebdr_get_page_ptr` has a page for every bit of the bitmap. -/
def WithinPages (b : EbdrBitmap) : Prop :=
  ∀ i < b.bitmapSize, (ebdrGetPagePtr (i / numBitsPerPage)).isSome

theorem withinPages_iff {b : EbdrBitmap} : WithinPages b ↔ b.bitmapSize ≤ pageBits := by
  have hlimit : pageBits = 163840 := rfl
  have hpage : numBitsPerPage = 32768 := rfl
  unfold WithinPages
  rw [hlimit, hpage]
  constructor
  · intro h
    by_contra hgt
    have hbad := h 163840 (by omega)
    rw [ebdrGetPagePtr_of_lt (by omega), if_neg (by omega)] at hbad
    exact absurd hbad (by decide)
  · intro h i hi
    rw [ebdrGetPagePtr_of_lt (by omega), if_pos (by omega)]
    rfl

/-- The bits from `start` to `stop`. -/
def bitRange (start stop : Nat) : Set Nat := {t | start ≤ t ∧ t ≤ stop}

theorem changed_eq {first stop : Nat} (h : stop ≤ pageBits) :
    changed first stop = {t | first ≤ t ∧ t < stop} := by
  have hlimit : pageBits = 163840 := rfl
  ext t
  constructor
  · rintro ⟨j, h1, h2, h3, rfl⟩
    rw [Nat.mod_eq_of_lt (by omega)]
    exact ⟨h1, h2⟩
  · rintro ⟨h1, h2⟩
    have hmod : t % 2 ^ 47 = t := Nat.mod_eq_of_lt (by omega)
    exact ⟨t, h1, h2, by omega, hmod⟩

section

variable {b : EbdrBitmap} {p : Ptr} {start stop : Nat}

theorem changeBits_inside (hp : b.bitmapArea = some p) (hpages : WithinPages b)
    (hlt : stop < b.bitmapSize) (arg : Nat) :
    Assigns (ebdrBmChangeBits b start stop arg) p (bitRange start stop)
      (decide (arg = bmSetBits)) := by
  have hfit := withinPages_iff.mp hpages
  have hlimit : pageBits = 163840 := rfl
  have hcut : cutEnd b (stop + 1) = stop + 1 := by
    unfold cutEnd
    split <;> omega
  have hclamp := clampEnd_succ b stop
  refine (assigns_changeBits hp start stop arg (by omega)).of_eq ?_
  rw [hcut, changed_eq (by omega)]
  ext t
  exact and_congr_right fun _ => Nat.lt_succ_iff

theorem setBits_inside (hp : b.bitmapArea = some p) (hpages : WithinPages b)
    (hle : start ≤ stop) (hlt : stop < b.bitmapSize) :
    Assigns (ebdrBmSetBits b start stop) p (bitRange start stop) true := by
  have hfit := withinPages_iff.mp hpages
  have hlimit : pageBits = 163840 := rfl
  by_cases hlong : start + 192 < stop
  · have hcut : ∀ e, e ≤ stop + 1 → cutEnd b e = e := by
      intro e he
      unfold cutEnd
      split <;> omega
    have hclamp := clampEnd_succ b stop
    have h1 : start ≤ firstWord start := by unfold firstWord; omega
    have h2 : firstWord start ≤ lastWord stop := by unfold firstWord lastWord ulong; omega
    have h3 : lastWord stop ≤ stop + 1 := by unfold lastWord ulong; omega
    rw [hcut _ (le_refl _)] at hclamp
    refine (assigns_setBits hp (by omega) (by omega) hlong (by omega)).of_eq ?_
    rw [hcut _ (by omega), hcut _ (le_refl _), changed_eq (by omega), changed_eq (by omega)]
    -- the head, the words and the tail follow one another
    ext t
    constructor
    · rintro (⟨h4, h5⟩ | ⟨h4, h5, -⟩ | ⟨h4, h5⟩)
      · exact ⟨h4, by omega⟩
      · exact ⟨by omega, by omega⟩
      · exact ⟨by omega, by omega⟩
    · rintro ⟨h4, h5⟩
      by_cases hhead : t < firstWord start
      · exact Or.inl ⟨h4, hhead⟩
      · by_cases hwords : t < lastWord stop
        · exact Or.inr (Or.inl ⟨by omega, hwords, by omega⟩)
        · exact Or.inr (Or.inr ⟨by omega, by omega⟩)
  · have hfun : ebdrBmSetBits b start stop = ebdrBmChangeBits b start stop bmSetBits := by
      funext k
      unfold ebdrBmSetBits
      dsimp only
      rw [if_pos (by unfold ulong bitsPerLong; omega)]
    rw [hfun]
    exact changeBits_inside hp hpages hlt bmSetBits

/-- **The word-at-a-time setter is the bit-at-a-time one**: inside the bitmap both set the bits of the
range and keep the others. -/
theorem ebdrBmSetBits_eq {k : Kernel} (hp : b.bitmapArea = some p) (hin : HalfIn k b p)
    (hpages : WithinPages b) (hle : start ≤ stop) (hlt : stop < b.bitmapSize) :
    ∃ k', ebdrBmSetBits b start stop k = some k' ∧
      ebdrBmChangeBits b start stop bmSetBits k = some k' ∧
      ∃ m, k' = k.setMem p.area m ∧ ∀ x, bit m x =
        (decide (8 * p.off + start ≤ x ∧ x ≤ 8 * p.off + stop) || bit (k.mem p.area) x) := by
  have hset := setBits_inside hp hpages hle hlt
  have hchange := @changeBits_inside b p start stop hp hpages hlt bmSetBits
  obtain ⟨k', hk'⟩ := (hset.defined k).mpr (by
    rintro x ⟨t, ⟨-, ht⟩, rfl⟩
    have hroom : 8 * p.off + b.bitmapSize ≤ 8 * k.areaBytes p.area := hin
    omega)
  obtain ⟨m, hm, hbits⟩ := hset.effect k k' hk'
  refine ⟨k', hk', ?_, m, hm, fun x => ?_⟩
  · rw [← hk']
    exact (hset.eq hchange k).symm
  · by_cases hx : 8 * p.off + start ≤ x ∧ x ≤ 8 * p.off + stop
    · rw [decide_eq_true hx, Bool.true_or]
      exact (hbits x).1 ⟨x - 8 * p.off, ⟨by omega, by omega⟩, by omega⟩
    · rw [decide_eq_false hx, Bool.false_or]
      refine (hbits x).2 ?_
      rintro ⟨t, ⟨h1, h2⟩, rfl⟩
      omega

end

/-- A bitmap of one page at the start of its area. -/
def pageBitmap : EbdrBitmap := ⟨some ⟨0, 0⟩, 32768, 4096, .kernel⟩

theorem ebdrBmSetBits_eq_pageBitmap :
    ∃ k', ebdrBmSetBits pageBitmap 10 400 (clearKernel pageBitmap ⟨0, 0⟩) = some k' ∧
      ebdrBmChangeBits pageBitmap 10 400 bmSetBits (clearKernel pageBitmap ⟨0, 0⟩) = some k' ∧
      ∃ m, k' = (clearKernel pageBitmap ⟨0, 0⟩).setMem 0 m ∧ ∀ x, bit m x =
        (decide (8 * 0 + 10 ≤ x ∧ x ≤ 8 * 0 + 400) ||
          bit ((clearKernel pageBitmap ⟨0, 0⟩).mem 0) x) :=
  @ebdrBmSetBits_eq pageBitmap ⟨0, 0⟩ 10 400 _ rfl (halfIn_clearKernel _ _)
    (withinPages_iff.mpr (by decide)) (by decide) (by decide)

/-! ### What lies outside the range -/

/-- The range operations on a half. -/
inductive RangeOp where
  | setBits
  | changeBits (arg : Nat)
  | clearBmapRange
  deriving DecidableEq, Repr

def RangeOp.run (b : EbdrBitmap) (start stop : Nat) : RangeOp → Kernel → Option Kernel
  | setBits => ebdrBmSetBits b start stop
  | changeBits arg => ebdrBmChangeBits b start stop arg
  | clearBmapRange => ebdrClearBmapRange b start stop

/-- The operation returns, and every bit it changes is a bit of the half at `p` and of the range. -/
def TouchesOnly (f : Kernel → Option Kernel) (b : EbdrBitmap) (p : Ptr) (start stop : Nat)
    (k : Kernel) : Prop :=
  ∃ m, f k = some (k.setMem p.area m) ∧ ∀ x, bit m x ≠ bit (k.mem p.area) x →
    ∃ t, x = 8 * p.off + t ∧ start ≤ t ∧ t ≤ stop ∧ t < b.bitmapSize

/-- A kernel whose bits all are `v`, with room for `bytes` bytes at `p`. -/
def uniformKernel (b : EbdrBitmap) (p : Ptr) (v : Bool) (bytes : Nat) : Kernel :=
  { clearKernel b p with
    areaBytes := fun _ => p.off + bytes
    mem := fun _ _ => if v then 255 else 0 }

theorem bit_uniformKernel (b : EbdrBitmap) (p : Ptr) (v : Bool) (bytes a x : Nat) :
    bit ((uniformKernel b p v bytes).mem a) x = v := by
  have hlt : x % 8 < 8 := Nat.mod_lt _ (by decide)
  unfold bit uniformKernel
  cases v with
  | false => exact Nat.zero_testBit _
  | true =>
    show (2 ^ 8 - 1).testBit (x % 8) = true
    rw [Nat.testBit_two_pow_sub_one, decide_eq_true hlt]

section

variable {f : Kernel → Option Kernel} {b : EbdrBitmap} {p : Ptr} {S : Set Nat} {v : Bool}
  {start stop : Nat}

/-- On a kernel whose bits are the other value, every bit assigned is a bit changed. -/
theorem Assigns.inside_of_touchesOnly (h : Assigns f p S v) {bytes : Nat}
    (ht : TouchesOnly f b p start stop (uniformKernel b p (!v) bytes)) :
    ∀ t ∈ S, start ≤ t ∧ t ≤ stop ∧ t < b.bitmapSize := by
  intro t hS
  obtain ⟨m, hm, hout⟩ := ht
  obtain ⟨m', heq, hbits⟩ := h.effect _ _ hm
  have hsame : m = m' := by
    have := congrArg (fun k => Kernel.mem k p.area) heq
    simpa only [Kernel.mem_setMem] using this
  have hset : bit m (8 * p.off + t) = v := by
    rw [hsame]
    exact (hbits _).1 ⟨t, hS, rfl⟩
  obtain ⟨t', htt, hrange⟩ := hout (8 * p.off + t) (by
    rw [hset, bit_uniformKernel]
    cases v <;> decide)
  obtain rfl : t = t' := by omega
  exact hrange

theorem Assigns.touches_iff (h : Assigns f p S v) :
    (∀ k, HalfIn k b p → TouchesOnly f b p start stop k) ↔
      ∀ t ∈ S, start ≤ t ∧ t ≤ stop ∧ t < b.bitmapSize := by
  constructor
  · intro hall
    refine h.inside_of_touchesOnly (hall (uniformKernel b p (!v) b.bitmapSize) ?_)
    show 8 * p.off + b.bitmapSize ≤ 8 * (p.off + b.bitmapSize)
    omega
  · intro hS k hin
    have hroom : 8 * p.off + b.bitmapSize ≤ 8 * k.areaBytes p.area := hin
    obtain ⟨k', hk'⟩ := (h.defined k).mpr (by
      rintro x ⟨t, ht, rfl⟩
      have := hS t ht
      omega)
    obtain ⟨m, rfl, hbits⟩ := h.effect k k' hk'
    refine ⟨m, hk', fun x hne => ?_⟩
    by_cases hx : x ∈ p.bits S
    · obtain ⟨t, ht, rfl⟩ := hx
      exact ⟨t, rfl, hS t ht⟩
    · exact absurd ((hbits x).2 hx) hne

/-- The bits from `first` up to `stop`, cut to the bits that `ebdr_bm_change_bits` has a page for, are
bits of the half from `start` on. -/
def StaysIn (b : EbdrBitmap) (start first stop : Nat) : Prop :=
  ∀ i, first ≤ i → i < stop → i % 2 ^ 47 < pageBits → start ≤ i % 2 ^ 47 ∧ i % 2 ^ 47 < b.bitmapSize

/-- The loop over the bits ends, and its bits are bits of the half from `start` on. -/
def ChangeOk (b : EbdrBitmap) (start stop : Nat) : Prop :=
  (b.bitmapSize = 0 → stop ≠ 2 ^ 64 - 1) ∧ StaysIn b start start (cutEnd b (stop + 1))

/-- The same for the head and the tail of a range of more than three words; no whole word of the
range that has a page lies beyond the half. -/
def SetOk (b : EbdrBitmap) (start stop : Nat) : Prop :=
  (b.bitmapSize = 0 → stop ≠ 2 ^ 64 - 1) ∧ StaysIn b start start (cutEnd b (firstWord start)) ∧
    min (lastWord stop) pageBits ≤ max (firstWord start) b.bitmapSize ∧
    StaysIn b start (lastWord stop) (cutEnd b (stop + 1))

/-- The range is refused, or it consists of whole bytes of the half. -/
def ClearOk (b : EbdrBitmap) (start stop : Nat) : Prop :=
  intToUlong (toInt b.bitmapSize) ≤ stop ∨
    (start % 8 = 0 ∧ stop % 8 = 7 ∧ stop < b.bitmapSize)

/-- When an operation changes bits of its range and its half only. -/
def RangeOp.Ok (b : EbdrBitmap) (start stop : Nat) : RangeOp → Prop
  | setBits => if start + 192 < stop then SetOk b start stop else ChangeOk b start stop
  | changeBits _ => ChangeOk b start stop
  | clearBmapRange => ClearOk b start stop

theorem changed_inside_iff {first e : Nat} (he : e ≤ stop + 1) :
    (∀ t ∈ changed first e, start ≤ t ∧ t ≤ stop ∧ t < b.bitmapSize) ↔ StaysIn b start first e := by
  constructor
  · intro h i h1 h2 h3
    obtain ⟨h4, -, h5⟩ := h (i % 2 ^ 47) ⟨i, h1, h2, h3, rfl⟩
    exact ⟨h4, h5⟩
  · rintro h t ⟨j, h1, h2, h3, rfl⟩
    obtain ⟨h4, h5⟩ := h j h1 h2 h3
    have hle : j % 2 ^ 47 ≤ j := Nat.mod_le _ _
    exact ⟨h4, by omega, h5⟩

/-- Up to 16 TiB of bits the bit-at-a-time operation always keeps to its range. -/
theorem changeOk_of_size (h0 : 0 < b.bitmapSize) (h1 : b.bitmapSize ≤ 2 ^ 47) :
    ChangeOk b start stop := by
  refine ⟨fun h => absurd h (by omega), fun i h2 h3 h4 => ?_⟩
  have hlt : i < b.bitmapSize := by
    unfold cutEnd at h3
    rw [if_pos h0] at h3
    omega
  rw [Nat.mod_eq_of_lt (by omega)]
  exact ⟨h2, hlt⟩

theorem clampEnd_eq_last (hsize : b.bitmapSize < 2 ^ 64) :
    clampEnd b stop = 2 ^ 64 - 1 ↔ b.bitmapSize = 0 ∧ stop = 2 ^ 64 - 1 := by
  unfold clampEnd
  constructor
  · intro h
    split at h <;> omega
  · rintro ⟨h0, hstop⟩
    rw [h0, hstop, if_neg (by omega)]

/-- Without an end the loop does not return. -/
theorem ebdrBmChangeBits_endless (hp : b.bitmapArea = some p) (h : clampEnd b stop = 2 ^ 64 - 1)
    (arg : Nat) (k : Kernel) : ebdrBmChangeBits b start stop arg k = none := by
  unfold ebdrBmChangeBits
  rw [hp, Option.bind_some, if_pos h]

theorem not_touchesOnly_of_none (h : ∀ k, f k = none) :
    ¬ ∀ k, HalfIn k b p → TouchesOnly f b p start stop k := by
  intro hall
  obtain ⟨m, hm, -⟩ := hall (clearKernel b p) (halfIn_clearKernel b p)
  rw [h] at hm
  cases hm

theorem changeBits_touchesOnly_iff (hp : b.bitmapArea = some p) (hsize : b.bitmapSize < 2 ^ 64)
    (arg : Nat) :
    (∀ k, HalfIn k b p → TouchesOnly (ebdrBmChangeBits b start stop arg) b p start stop k) ↔
      ChangeOk b start stop := by
  by_cases hend : clampEnd b stop = 2 ^ 64 - 1
  · have hlast := (clampEnd_eq_last hsize).mp hend
    refine iff_of_false (not_touchesOnly_of_none (ebdrBmChangeBits_endless hp hend arg)) ?_
    rintro ⟨h, -⟩
    exact h hlast.1 hlast.2
  · have hends : b.bitmapSize = 0 → stop ≠ 2 ^ 64 - 1 :=
      fun h0 hstop => hend ((clampEnd_eq_last hsize).mpr ⟨h0, hstop⟩)
    rw [(assigns_changeBits hp start stop arg hend).touches_iff,
      changed_inside_iff (cutEnd_le b _)]
    exact (and_iff_right hends).symm

theorem setBits_endless (hp : b.bitmapArea = some p) (hsize : b.bitmapSize < 2 ^ 64)
    (hlong : start + 192 < stop) (hend : clampEnd b stop = 2 ^ 64 - 1) (k : Kernel) :
    ebdrBmSetBits b start stop k = none := by
  obtain ⟨-, hstop⟩ := (clampEnd_eq_last hsize).mp hend
  have hdelta : ¬ ulong (stop + (2 ^ 64 - start)) ≤ 3 * bitsPerLong := by
    unfold ulong bitsPerLong
    omega
  have he1 : ulong (stop + 1) &&& (2 ^ 64 - bitsPerLong) = 0 := by
    rw [hstop]
    exact Nat.zero_and _
  unfold ebdrBmSetBits
  dsimp only
  rw [if_neg hdelta, he1, hp, Option.bind_some]
  have htail : ∀ k, (if 0 ≤ stop then ebdrBmChangeBits b 0 stop bmSetBits k else some k) = none := by
    intro k
    rw [if_pos (Nat.zero_le _), ebdrBmChangeBits_endless hp hend]
  simp only [htail, Option.bind_fun_none]

theorem setBits_touchesOnly_iff (hp : b.bitmapArea = some p) (hsize : b.bitmapSize < 2 ^ 64)
    (hstop : stop < 2 ^ 64) (hlong : start + 192 < stop) :
    (∀ k, HalfIn k b p → TouchesOnly (ebdrBmSetBits b start stop) b p start stop k) ↔
      SetOk b start stop := by
  by_cases hend : clampEnd b stop = 2 ^ 64 - 1
  · have hlast := (clampEnd_eq_last hsize).mp hend
    refine iff_of_false (not_touchesOnly_of_none (setBits_endless hp hsize hlong hend)) ?_
    rintro ⟨h, -⟩
    exact h hlast.1 hlast.2
  · have hends : b.bitmapSize = 0 → stop ≠ 2 ^ 64 - 1 :=
      fun h0 hlast => hend ((clampEnd_eq_last hsize).mpr ⟨h0, hlast⟩)
    have hb1 : start ≤ firstWord start ∧ firstWord start ≤ stop := by unfold firstWord; omega
    have he1 : lastWord stop ≤ stop + 1 := by unfold lastWord ulong; omega
    have hcut := cutEnd_le b (firstWord start)
    rw [(assigns_setBits hp hsize hstop hlong hend).touches_iff]
    constructor
    · intro h
      refine ⟨hends, ?_, ?_, ?_⟩
      · exact (changed_inside_iff (by omega)).mp fun t ht => h t (Or.inl ht)
      · -- the last bit of the words that have a page
        by_contra hgt
        have hlast := h (min (lastWord stop) pageBits - 1)
          (Or.inr (Or.inl ⟨by omega, by omega, by omega⟩))
        omega
      · exact (changed_inside_iff (cutEnd_le b _)).mp fun t ht => h t (Or.inr (Or.inr ht))
    · rintro ⟨-, hhead, hwords, htail⟩ t (ht | ⟨h1, h2, h3⟩ | ht)
      · exact (changed_inside_iff (by omega)).mpr hhead t ht
      · exact ⟨by omega, by omega, by omega⟩
      · exact (changed_inside_iff (cutEnd_le b _)).mpr htail t ht

theorem assigns_clearRange (hp : b.bitmapArea = some p) (hle : start ≤ stop)
    (hacc : ¬ intToUlong (toInt b.bitmapSize) ≤ stop) :
    Assigns (ebdrClearBmapRange b start stop) p
      {t | start / 8 * 8 ≤ t ∧ t < (stop / 8 + 1) * 8} false := by
  have hbits : ∀ x, x ∈ p.bits {t | start / 8 * 8 ≤ t ∧ t < (stop / 8 + 1) * 8} ↔
      8 * (p.off + start / 8) ≤ x ∧
        x < 8 * (p.off + start / 8 + 1 * (stop / 8 + 1 - start / 8)) := by
    intro x
    constructor
    · rintro ⟨t, ⟨h1, h2⟩, rfl⟩
      omega
    · rintro ⟨h1, h2⟩
      exact ⟨x - 8 * p.off, ⟨by omega, by omega⟩, by omega⟩
  have hfun : ebdrClearBmapRange b start stop = fun k =>
      if p.off + stop / 8 < k.areaBytes p.area then
        some (k.setMem p.area
          (storeWords 1 (k.mem p.area) (p.off + start / 8) 0 (stop / 8 + 1 - start / 8)))
      else none := by
    funext k
    unfold ebdrClearBmapRange
    rw [if_neg hacc, hp, Option.bind_some, if_neg (by omega)]
  rw [hfun]
  refine Assigns.store
    (fun m => storeWords 1 m (p.off + start / 8) 0 (stop / 8 + 1 - start / 8))
    (fun k => p.off + stop / 8 < k.areaBytes p.area) ?_ ?_
  · intro k
    constructor
    · intro hin x hx
      have := (hbits x).mp hx
      omega
    · intro hall
      have := hall (8 * (p.off + stop / 8)) ((hbits _).mpr (by omega))
      omega
  · intro m x
    rw [hbits, bit_storeWords fun j _ => Nat.zero_testBit j]
    exact ⟨fun hx => if_pos hx, fun hx => if_neg hx⟩

theorem clearRange_touchesOnly_iff (hp : b.bitmapArea = some p) (hle : start ≤ stop) :
    (∀ k, HalfIn k b p → TouchesOnly (ebdrClearBmapRange b start stop) b p start stop k) ↔
      ClearOk b start stop := by
  by_cases hacc : intToUlong (toInt b.bitmapSize) ≤ stop
  · refine iff_of_true (fun k _ => ⟨k.mem p.area, ?_, fun x hne => absurd rfl hne⟩) (Or.inl hacc)
    rw [k.setMem_self]
    exact if_pos hacc
  · rw [(assigns_clearRange hp hle hacc).touches_iff]
    constructor
    · intro h
      have hfirst := h (start / 8 * 8) ⟨le_refl _, by omega⟩
      have hlast := h (stop / 8 * 8 + 7) ⟨by omega, by omega⟩
      exact Or.inr ⟨by omega, by omega, by omega⟩
    · rintro (h | ⟨h1, h2, h3⟩)
      · exact absurd h hacc
      · rintro t ⟨h4, h5⟩
        exact ⟨by omega, by omega, by omega⟩

/-- **When a range operation keeps to its range and its half.** -/
theorem RangeOp.touchesOnly_iff (op : RangeOp) (hp : b.bitmapArea = some p)
    (hsize : b.bitmapSize < 2 ^ 64) (hle : start ≤ stop) (hstop : stop < 2 ^ 64) :
    (∀ k, HalfIn k b p → TouchesOnly (op.run b start stop) b p start stop k) ↔
      op.Ok b start stop := by
  cases op with
  | setBits =>
    unfold RangeOp.Ok RangeOp.run
    dsimp only
    by_cases hlong : start + 192 < stop
    · rw [if_pos hlong]
      exact setBits_touchesOnly_iff hp hsize hstop hlong
    · have hfun : ebdrBmSetBits b start stop = ebdrBmChangeBits b start stop bmSetBits := by
        funext k
        exact if_pos (by unfold ulong bitsPerLong; omega)
      rw [if_neg hlong, hfun]
      exact changeBits_touchesOnly_iff hp hsize bmSetBits
  | changeBits arg => exact changeBits_touchesOnly_iff hp hsize arg
  | clearBmapRange => exact clearRange_touchesOnly_iff hp hle

end

/-- A half of one word at the start of its area. -/
def wordHalf : EbdrBitmap := ⟨some ⟨0, 0⟩, 64, 4096, .kernel⟩

theorem RangeOp.touchesOnly_iff_wordHalf :
    (∀ k, HalfIn k wordHalf ⟨0, 0⟩ →
      TouchesOnly (RangeOp.clearBmapRange.run wordHalf 8 15) wordHalf ⟨0, 0⟩ 8 15 k) ↔
      RangeOp.clearBmapRange.Ok wordHalf 8 15 :=
  @RangeOp.touchesOnly_iff wordHalf ⟨0, 0⟩ 8 15 .clearBmapRange rfl (by decide) (by decide)
    (by decide)

/-- Clearing bit 3 clears its byte, and setting bits 0 to 255 sets the 192 bits behind the half. -/
theorem touchesOnly_wordHalf_fails :
    (HalfIn (uniformKernel wordHalf ⟨0, 0⟩ true 64) wordHalf ⟨0, 0⟩ ∧
      ¬ TouchesOnly (RangeOp.clearBmapRange.run wordHalf 3 3) wordHalf ⟨0, 0⟩ 3 3
        (uniformKernel wordHalf ⟨0, 0⟩ true 64)) ∧
    (HalfIn (uniformKernel wordHalf ⟨0, 0⟩ false 64) wordHalf ⟨0, 0⟩ ∧
      ¬ TouchesOnly (RangeOp.setBits.run wordHalf 0 255) wordHalf ⟨0, 0⟩ 0 255
        (uniformKernel wordHalf ⟨0, 0⟩ false 64)) := by
  refine ⟨⟨by unfold HalfIn; decide, fun h => ?_⟩, by unfold HalfIn; decide, fun h => ?_⟩
  · have hclear := @assigns_clearRange wordHalf ⟨0, 0⟩ 3 3 rfl (by decide) (by decide)
    have hbit := hclear.inside_of_touchesOnly h 0 ⟨by decide, by decide⟩
    omega
  · have hset := @assigns_setBits wordHalf ⟨0, 0⟩ rfl 0 255 (by decide) (by decide) (by decide)
      (by decide)
    have hbit := hset.inside_of_touchesOnly h 64
      (Or.inr (Or.inl ⟨by decide, by decide, by decide⟩))
    exact absurd hbit.2.2 (by decide)

end Ebdr
