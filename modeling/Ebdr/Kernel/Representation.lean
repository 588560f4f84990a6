import Ebdr.Kernel.Ioctl
import Mathlib.Tactic.Basic

/-!
# The bitmap representation invariant of the kernel module
-/

namespace Ebdr

open ByteMem CInt Lts

namespace Kernel

/-- Where a half of device `i` begins in its area. -/
def halfOff (k : Kernel) (i : Nat) : Half → Nat
  | .first => 0
  | .second => k.vmallocAreaSz i

/-- **One device's representation.** `a` is its struct and `r` its area of two halves. -/
structure DeviceOk (k : Kernel) (i a r : Nat) : Prop where
  bitmap : (k.device i).bitmap = some a
  area : k.vmallocArea i = some r
  bitmap_lt : a < k.fresh
  area_lt : r < k.fresh
  bytes : k.areaBytes r = 2 * k.vmallocAreaSz i
  pos : 0 < k.vmallocAreaSz i
  small : 8 * k.vmallocAreaSz i < 2 ^ 31
  ptr : (k.bitmaps a).bitmapArea = some ⟨r, k.halfOff i (k.bitmaps a).bmapUser.half⟩
  size_pos : 0 < (k.bitmaps a).bitmapSize
  size_le : (k.bitmaps a).bitmapSize ≤ 8 * k.vmallocAreaSz i

/-- No two of the created devices have the same address in `f`. -/
def Unshared (k : Kernel) (f : Nat → Option Nat) : Prop :=
  ∀ i j a, k.Created i → k.Created j → f i = some a → f j = some a → i = j

/-- Every created device is represented, and no two share a struct or an area. -/
structure Inv (k : Kernel) : Prop where
  minor_pos : 1 ≤ k.minor
  minor_le : k.minor ≤ maxMinor
  device : ∀ i, k.Created i → ∃ a r, DeviceOk k i a r
  bitmap_inj : k.Unshared fun i => (k.device i).bitmap
  area_inj : k.Unshared k.vmallocArea

theorem inv_init : Inv init where
  minor_pos := le_refl 1
  minor_le := by decide
  device := by
    rintro i ⟨h1, h2⟩
    exact absurd h2 (Nat.not_lt.mpr h1)
  bitmap_inj := by
    rintro i j a ⟨h1, h2⟩
    exact absurd h2 (Nat.not_lt.mpr h1)
  area_inj := by
    rintro i j r ⟨h1, h2⟩
    exact absurd h2 (Nat.not_lt.mpr h1)

theorem Inv.created_lt {k : Kernel} (hk : Inv k) {i : Nat} (hi : k.Created i) : i < maxMinor :=
  lt_of_lt_of_le hi.2 hk.minor_le

theorem DeviceOk.bitmapOf {k : Kernel} {i a r : Nat} (h : DeviceOk k i a r) (hi : i < maxMinor) :
    k.bitmapOf i = some (k.bitmaps a) := by
  rw [Kernel.bitmapOf, if_pos hi, h.bitmap, Option.map_some]

theorem halfOff_congr {k k' : Kernel} {i : Nat} (hs : k'.vmallocAreaSz i = k.vmallocAreaSz i)
    (h : Half) : k'.halfOff i h = k.halfOff i h := by
  cases h with
  | first => rfl
  | second => exact hs

theorem halfOff_le (k : Kernel) (i : Nat) (h : Half) : k.halfOff i h ≤ k.vmallocAreaSz i := by
  cases h with
  | first => exact Nat.zero_le _
  | second => exact le_refl _

/-- A device's representation depends on its own table entries, struct and area size. -/
theorem DeviceOk.congr {k k' : Kernel} {i a r : Nat} (h : DeviceOk k i a r)
    (hd : (k'.device i).bitmap = (k.device i).bitmap) (hv : k'.vmallocArea i = k.vmallocArea i)
    (hs : k'.vmallocAreaSz i = k.vmallocAreaSz i) (hb : k'.bitmaps a = k.bitmaps a)
    (hr : k'.areaBytes r = k.areaBytes r) (hf : k.fresh ≤ k'.fresh) : DeviceOk k' i a r where
  bitmap := hd.trans h.bitmap
  area := hv.trans h.area
  bitmap_lt := lt_of_lt_of_le h.bitmap_lt hf
  area_lt := lt_of_lt_of_le h.area_lt hf
  bytes := by rw [hr, hs, h.bytes]
  pos := by rw [hs]; exact h.pos
  small := by rw [hs]; exact h.small
  ptr := by rw [hb, halfOff_congr hs]; exact h.ptr
  size_pos := by rw [hb]; exact h.size_pos
  size_le := by rw [hb, hs]; exact h.size_le

/-! ### What each command does -/

/-- What `EBDRCTL_DEV_CREATE` leaves alone: the entries of every other minor, and all that had been
allocated before. -/
structure CreateFrame (k k' : Kernel) : Prop where
  device : ∀ i, i ≠ k.minor → k'.device i = k.device i
  vmallocArea : ∀ i, i ≠ k.minor → k'.vmallocArea i = k.vmallocArea i
  vmallocAreaSz : ∀ i, i ≠ k.minor → k'.vmallocAreaSz i = k.vmallocAreaSz i
  bitmaps : ∀ a, a < k.fresh → k'.bitmaps a = k.bitmaps a
  areaBytes : ∀ r, r < k.fresh → k'.areaBytes r = k.areaBytes r
  mem : ∀ r, r < k.fresh → k'.mem r = k.mem r
  fresh_le : k.fresh ≤ k'.fresh

theorem ebdrClearBmap_cases {k k' : Kernel} {b : EbdrBitmap} {r : Nat}
    (hb : b.bitmapArea = some ⟨r, 0⟩) (h : ebdrClearBmap k b = some k') :
    ∃ m, k' = k.setMem r m := by
  simp only [ebdrClearBmap] at h
  split at h
  · refine ⟨k.mem r, ?_⟩
    cases h
    simp [Kernel.setMem]
  · rw [hb, Option.bind_some] at h
    split at h
    · cases h
      exact ⟨_, rfl⟩
    · cases h

theorem ebdrInitBmap_cases {k k' : Kernel} {m g r : Nat} (hr : k.vmallocArea m = some r)
    (h : ebdrInitBmap k m g true = some k') :
    ∃ mem', k' = { k with
      bitmap := some k.fresh
      bitmaps := Function.update k.bitmaps k.fresh
        ⟨some ⟨r, 0⟩, ulong (k.vmallocAreaSz m * 8), g, .kernel⟩
      device := Function.update k.device m { k.device m with bitmap := some k.fresh }
      fresh := k.fresh + 1
      mem := Function.update k.mem r mem' } := by
  rw [ebdrInitBmap, if_pos rfl, hr] at h
  obtain ⟨mem', rfl⟩ := ebdrClearBmap_cases rfl h
  exact ⟨mem', rfl⟩

/-- **`EBDRCTL_DEV_CREATE`**, for a size whose bits fit an `int`. Either the attempt fails and the
device count stays, or device `minor` is made, with a struct and an area of its own. -/
theorem devCreate_cases {k k' : Kernel} {o : Ioctl} {env : CreateEnv} {rc : Nat}
    (hz : env.kzalloc = true) (hsz : 8 * o.uBitmapSize < 2 ^ 31)
    (h : k.devCreate o env = some (k', rc)) :
    CreateFrame k k' ∧
      (k'.minor = k.minor ∨
        (k'.minor = k.minor + 1 ∧ k.minor < maxMinor ∧
          ∃ a r, DeviceOk k' k.minor a r ∧ k.fresh ≤ a ∧ k.fresh ≤ r)) := by
  simp only [devCreate] at h
  split at h
  · cases h
  rename_i hlt
  have hminor : k.minor < maxMinor := Nat.lt_of_not_le hlt
  have hbytes : ulong (2 * o.uBitmapSize) = 2 * o.uBitmapSize := ulong_of_lt (by omega)
  simp only [ebdrAllocMemoryMmap, Function.update_self, hbytes] at h
  split at h
  · rename_i hok
    rw [if_neg (by simp)] at h
    split at h
    · -- no class: the area stays allocated, the count stays
      cases h
      refine ⟨?_, Or.inl rfl⟩
      constructor
      case fresh_le => exact Nat.le_succ _
      all_goals
        intro i hi
        simp (disch := omega) [Function.update_of_ne]
    · rw [hz] at h
      obtain ⟨k2, hk2, h⟩ := Option.bind_eq_some_iff.mp h
      obtain ⟨mem', rfl⟩ := ebdrInitBmap_cases (r := k.fresh) (by simp) hk2
      simp only [Function.update_self, Function.update_idem] at h
      split at h
      · -- no backing device: the area is freed, the count stays
        cases h
        refine ⟨?_, Or.inl rfl⟩
        constructor
        case fresh_le => exact Nat.le_add_right _ 2
        all_goals
          intro i hi
          simp (disch := omega) [Function.update_of_ne]
      · rw [Option.bind_some] at h
        cases h
        refine ⟨?_, Or.inr ⟨rfl, hminor, k.fresh + 1, k.fresh, ?_, Nat.le_succ _, le_refl _⟩⟩
        · constructor
          case fresh_le => exact Nat.le_add_right _ 2
          all_goals
            intro i hi
            simp (disch := omega) [Function.update_of_ne]
        · have h8 : ulong (o.uBitmapSize * 8) = o.uBitmapSize * 8 := ulong_of_lt (by omega)
          constructor <;> simp [h8, BmapUser.half, halfOff] <;> omega
  · -- no memory
    cases h
    refine ⟨?_, Or.inl rfl⟩
    constructor
    case fresh_le => exact le_refl _
    all_goals
      intro i hi
      simp (disch := omega) [Function.update_of_ne]

/-- The names of all minors and the device count are as before. -/
def SameNames (k k' : Kernel) : Prop :=
  k'.minor = k.minor ∧ ∀ i, (k'.device i).diskName = (k.device i).diskName

theorem ebdrAllocMemoryMmap_names (k : Kernel) (m : Nat) (ok : Bool) :
    SameNames k (k.ebdrAllocMemoryMmap m ok).1 := by
  unfold ebdrAllocMemoryMmap
  dsimp only
  split <;> exact ⟨rfl, fun _ => rfl⟩

theorem ebdrClearBmap_names {k k' : Kernel} {b : EbdrBitmap} (h : ebdrClearBmap k b = some k') :
    SameNames k k' := by
  simp only [ebdrClearBmap] at h
  split at h
  · cases h
    exact ⟨rfl, fun _ => rfl⟩
  · obtain ⟨p, -, h⟩ := Option.bind_eq_some_iff.mp h
    rw [Option.ite_none_right_eq_some] at h
    rw [← Option.some.inj h.2]
    exact ⟨rfl, fun _ => rfl⟩

theorem ebdrInitBmap_names {k k' : Kernel} {m g : Nat} {ok : Bool}
    (h : ebdrInitBmap k m g ok = some k') : SameNames k k' := by
  unfold ebdrInitBmap at h
  split at h
  · obtain ⟨hminor, hnames⟩ := ebdrClearBmap_names h
    refine ⟨hminor, fun i => (hnames i).trans ?_⟩
    dsimp only
    by_cases hi : i = m
    · rw [hi, Function.update_self]
    · rw [Function.update_of_ne hi]
  · cases h
    exact ⟨rfl, fun _ => rfl⟩

theorem devCreate_lt {k k' : Kernel} {o : Ioctl} {env : CreateEnv} {rc : Nat}
    (h : k.devCreate o env = some (k', rc)) : k.minor < maxMinor := by
  unfold devCreate at h
  dsimp only at h
  rw [Option.ite_none_left_eq_some] at h
  exact Nat.lt_of_not_le h.1

/-- `EBDRCTL_DEV_CREATE` names device `minor` after `src_disk` and steps `minor` when it returns 0,
and changes neither names nor `minor` when it returns `MEMCTL_DEV_REG_ERROR`. -/
theorem devCreate_names {k k' : Kernel} {o : Ioctl} {env : CreateEnv} {rc : Nat}
    (h : k.devCreate o env = some (k', rc)) :
    (rc = 0 ∧ k'.minor = k.minor + 1 ∧ (k'.device k.minor).diskName = o.srcDisk.take 64 ∧
        ∀ i, i ≠ k.minor → (k'.device i).diskName = (k.device i).diskName) ∨
      (rc = memctlDevRegError ∧ SameNames k k') := by
  unfold devCreate at h
  dsimp only at h
  rw [Option.ite_none_left_eq_some] at h
  obtain ⟨-, h⟩ := h
  have halloc := ebdrAllocMemoryMmap_names
    { k with vmallocAreaSz := Function.update k.vmallocAreaSz k.minor o.uBitmapSize } k.minor
    env.vmalloc
  generalize ebdrAllocMemoryMmap _ k.minor env.vmalloc = q at h halloc
  obtain ⟨k1, mapped⟩ := q
  obtain ⟨hminor1, hnames1⟩ := halloc
  dsimp only at h hminor1 hnames1
  split at h
  · cases h
    exact Or.inr ⟨rfl, hminor1, hnames1⟩
  · split at h
    · cases h
      exact Or.inr ⟨rfl, hminor1, hnames1⟩
    · obtain ⟨k2, hinit, h⟩ := Option.bind_eq_some_iff.mp h
      obtain ⟨hminor2, hnames2⟩ := ebdrInitBmap_names hinit
      split at h
      · cases h
        exact Or.inr ⟨rfl, hminor2.trans hminor1, fun i => (hnames2 i).trans (hnames1 i)⟩
      · obtain ⟨a, -, h⟩ := Option.bind_eq_some_iff.mp h
        cases h
        refine Or.inl ⟨rfl, rfl, ?_, ?_⟩
        · dsimp only
          rw [Function.update_self]
        · intro i hi
          dsimp only
          rw [Function.update_of_ne hi]
          exact (hnames2 i).trans (hnames1 i)

theorem setGrainSize_cases {k k' : Kernel} {o : Ioctl} (h : k.setGrainSize o = some k') :
    ∃ a, k.bitmap = some a ∧
      k' = { k with
        vmallocAreaSz := Function.update k.vmallocAreaSz k.minor o.uBitmapSize
        bitmaps := Function.update k.bitmaps a
          { k.bitmaps a with grainSize := o.uGrainSize, bitmapSize := ulong (o.uBitmapSize * 8) } } := by
  obtain ⟨_, _, h⟩ := Option.bind_eq_some_iff.mp h
  obtain ⟨a, ha, h⟩ := Option.bind_eq_some_iff.mp h
  split at h
  · exact ⟨a, ha, (Option.some.inj h).symm⟩
  · cases h

/-- **`EBDR_FLIP_BITMAP_AREA`** on a represented device moves `bitmap_area` to the other half. -/
theorem flipBitmap_of_ok {k : Kernel} {i a r : Nat} (h : DeviceOk k i a r) :
    flipBitmap (k.vmallocArea i) (k.vmallocAreaSz i) (k.bitmaps a) =
      { k.bitmaps a with
        bitmapArea := some ⟨r, k.halfOff i (k.bitmaps a).bmapUser.half.other⟩
        bmapUser := (k.bitmaps a).bmapUser.other } := by
  have hptr := h.ptr
  unfold flipBitmap
  cases hu : (k.bitmaps a).bmapUser with
  | user => simp [BmapUser.other, BmapUser.half, Half.other, halfOff, h.area]
  | kernel =>
    rw [hu] at hptr
    simp [BmapUser.other, BmapUser.half, Half.other, halfOff, hptr]

/-- The struct of a represented device after a flip. -/
def flipped (k : Kernel) (i a r : Nat) : EbdrBitmap :=
  { k.bitmaps a with
    bitmapArea := some ⟨r, k.halfOff i (k.bitmaps a).bmapUser.half.other⟩
    bmapUser := (k.bitmaps a).bmapUser.other }

theorem flipBitmapArea_spec {k : Kernel} {i a r : Nat} (hk : Inv k) (hi : k.Created i)
    (h : DeviceOk k i a r) : k.flipBitmapArea i = some (k.setBitmap a (k.flipped i a r)) := by
  rw [flipBitmapArea, if_pos (hk.created_lt hi), h.bitmap, Option.map_some, flipBitmap_of_ok h,
    flipped]

theorem ebdrMakeRequest_spec {k : Kernel} {i a r : Nat} (hk : Inv k) (hi : k.Created i)
    (h : DeviceOk k i a r) {bio : Bio} (hw : bio.isWrite = true) :
    ∃ m, ebdrMakeRequest k i bio = some (k.setMem r m) ∧
      ∀ x, bit m x =
        (decide (8 * (k.halfOff i (k.bitmaps a).bmapUser.half : Int) + firstBit (k.bitmaps a) bio ≤ x ∧
          (x : Int) ≤ 8 * k.halfOff i (k.bitmaps a).bmapUser.half + lastBit (k.bitmaps a) bio) ||
          bit (k.mem r) x) := by
  have hle := h.size_le
  have hsmall := h.small
  have hbytes := h.bytes
  have hoff := halfOff_le k i (k.bitmaps a).bmapUser.half
  have hf := firstBit_mem h.size_pos (by omega) bio
  have hl := lastBit_mem h.size_pos (by omega) bio
  have hlast : lastBit (k.bitmaps a) bio < 2 ^ 31 - 1 := by omega
  have hin : 8 * (k.halfOff i (k.bitmaps a).bmapUser.half : Int) + lastBit (k.bitmaps a) bio <
      8 * (k.areaBytes r : Int) := by omega
  obtain ⟨m, hm, hbit⟩ := ebdrSetBits_spec h.ptr hf.1 hlast hin
  refine ⟨m, ?_, hbit⟩
  rw [ebdrMakeRequest, if_pos hi, h.bitmapOf (hk.created_lt hi), Option.bind_some, if_pos hw]
  exact hm

theorem ebdrMakeRequest_cases {k k' : Kernel} {i : Nat} {bio : Bio}
    (h : ebdrMakeRequest k i bio = some k') : ∃ r m, k' = k.setMem r m := by
  have hsame : k = k.setMem 0 (k.mem 0) := by simp [Kernel.setMem]
  rw [ebdrMakeRequest] at h
  split at h
  · obtain ⟨b, -, h⟩ := Option.bind_eq_some_iff.mp h
    split at h
    · rw [ebdrSetBitmap, ebdrSetBits] at h
      split at h
      · exact ⟨0, _, (Option.some.inj h).symm.trans hsame⟩
      · obtain ⟨p, -, h⟩ := Option.bind_eq_some_iff.mp h
        split at h
        · exact ⟨p.area, _, (Option.some.inj h).symm⟩
        · cases h
    · exact ⟨0, _, (Option.some.inj h).symm.trans hsame⟩
  · cases h

/-! ### The invariant along runs -/

theorem Inv.setMem {k : Kernel} (hk : Inv k) (r : Nat) (m : Mem) : Inv (k.setMem r m) where
  minor_pos := hk.minor_pos
  minor_le := hk.minor_le
  device := by
    intro i hi
    obtain ⟨a, r', h⟩ := hk.device i hi
    exact ⟨a, r', h.congr rfl rfl rfl rfl rfl (le_refl _)⟩
  bitmap_inj := hk.bitmap_inj
  area_inj := hk.area_inj

theorem Inv.setBitmap {k : Kernel} (hk : Inv k) {i a r : Nat} (hi : k.Created i)
    (h : DeviceOk k i a r) {b : EbdrBitmap}
    (hptr : b.bitmapArea = some ⟨r, k.halfOff i b.bmapUser.half⟩)
    (hpos : 0 < b.bitmapSize) (hle : b.bitmapSize ≤ 8 * k.vmallocAreaSz i) :
    Inv (k.setBitmap a b) where
  minor_pos := hk.minor_pos
  minor_le := hk.minor_le
  device := by
    intro j hj
    by_cases hij : j = i
    · subst hij
      have hb : (k.setBitmap a b).bitmaps a = b := Function.update_self _ _ _
      refine ⟨a, r, h.bitmap, h.area, h.bitmap_lt, h.area_lt, h.bytes, h.pos, h.small, ?_, ?_, ?_⟩
      · rw [hb]
        exact hptr
      · rw [hb]
        exact hpos
      · rw [hb]
        exact hle
    · obtain ⟨a', r', h'⟩ := hk.device j hj
      have hne : a' ≠ a := by
        rintro rfl
        exact hij (hk.bitmap_inj j i a' hj hi h'.bitmap h.bitmap)
      exact ⟨a', r', h'.congr rfl rfl rfl (Function.update_of_ne hne _ _) rfl (le_refl _)⟩
  bitmap_inj := hk.bitmap_inj
  area_inj := hk.area_inj

theorem Unshared.congr {k k' : Kernel} {f f' : Nat → Option Nat} (h : k.Unshared f)
    (hc : ∀ i, k'.Created i → k.Created i) (hf : ∀ i, k'.Created i → f' i = f i) :
    k'.Unshared f' := by
  intro i j a hi hj hia hja
  rw [hf i hi] at hia
  rw [hf j hj] at hja
  exact h i j a (hc i hi) (hc j hj) hia hja

theorem Inv.flip {k : Kernel} (hk : Inv k) {i a r : Nat} (hi : k.Created i)
    (h : DeviceOk k i a r) : Inv (k.setBitmap a (k.flipped i a r)) :=
  hk.setBitmap hi h (by rw [flipped, BmapUser.half_other]) h.size_pos h.size_le

theorem Unshared.create {k k' : Kernel} {f f' : Nat → Option Nat} (h : k.Unshared f)
    (hm : k'.minor = k.minor + 1) (hf : ∀ i, i ≠ k.minor → f' i = f i)
    (hold : ∀ i a, k.Created i → f i = some a → a < k.fresh)
    (hnew : ∀ a, f' k.minor = some a → k.fresh ≤ a) : k'.Unshared f' := by
  have hc : ∀ i, k'.Created i → i ≠ k.minor → k.Created i := by
    rintro i ⟨h1, h2⟩ hne
    exact ⟨h1, by omega⟩
  intro i j a hi hj hia hja
  by_cases hie : i = k.minor
  · by_cases hje : j = k.minor
    · rw [hie, hje]
    · rw [hf j hje] at hja
      have h1 := hold j a (hc j hj hje) hja
      have h2 := hnew a (hie ▸ hia)
      omega
  · by_cases hje : j = k.minor
    · rw [hf i hie] at hia
      have h1 := hold i a (hc i hi hie) hia
      have h2 := hnew a (hje ▸ hja)
      omega
    · rw [hf i hie] at hia
      rw [hf j hje] at hja
      exact h i j a (hc i hi hie) (hc j hj hje) hia hja

theorem Inv.devCreate {k k' : Kernel} (hk : Inv k) {o : Ioctl} {env : CreateEnv} {rc : Nat}
    (hz : env.kzalloc = true) (hsz : 8 * o.uBitmapSize < 2 ^ 31)
    (h : k.devCreate o env = some (k', rc)) : Inv k' := by
  obtain ⟨hfr, hcase⟩ := devCreate_cases hz hsz h
  have hold : ∀ i, k.Created i → ∀ a r, DeviceOk k i a r → DeviceOk k' i a r := by
    intro i hi a r hd
    have hne : i ≠ k.minor := Nat.ne_of_lt hi.2
    exact hd.congr (by rw [hfr.device i hne]) (hfr.vmallocArea i hne) (hfr.vmallocAreaSz i hne)
      (hfr.bitmaps a hd.bitmap_lt) (hfr.areaBytes r hd.area_lt) hfr.fresh_le
  have hdev : ∀ i, i ≠ k.minor → (k'.device i).bitmap = (k.device i).bitmap := by
    intro i hne
    rw [hfr.device i hne]
  rcases hcase with hm | ⟨hm, hlt, a0, r0, h0, ha0, hr0⟩
  · have hc : ∀ i, k'.Created i → k.Created i := fun i hi => ⟨hi.1, hm ▸ hi.2⟩
    refine ⟨hm ▸ hk.minor_pos, hm ▸ hk.minor_le, ?_, ?_, ?_⟩
    · intro i hi
      obtain ⟨a, r, hd⟩ := hk.device i (hc i hi)
      exact ⟨a, r, hold i (hc i hi) a r hd⟩
    · exact hk.bitmap_inj.congr hc fun i hi => hdev i (Nat.ne_of_lt (hc i hi).2)
    · exact hk.area_inj.congr hc fun i hi => hfr.vmallocArea i (Nat.ne_of_lt (hc i hi).2)
  · refine ⟨by omega, by omega, ?_, ?_, ?_⟩
    · rintro i ⟨h1, h2⟩
      by_cases hie : i = k.minor
      · exact ⟨a0, r0, hie ▸ h0⟩
      · have hi : k.Created i := ⟨h1, by omega⟩
        obtain ⟨a, r, hd⟩ := hk.device i hi
        exact ⟨a, r, hold i hi a r hd⟩
    · refine hk.bitmap_inj.create hm hdev ?_ ?_
      · intro i a hi ha
        obtain ⟨a', r, hd⟩ := hk.device i hi
        exact Option.some.inj (hd.bitmap.symm.trans ha) ▸ hd.bitmap_lt
      · intro a ha
        exact Option.some.inj (h0.bitmap.symm.trans ha) ▸ ha0
    · refine hk.area_inj.create hm hfr.vmallocArea ?_ ?_
      · intro i r hi hr
        obtain ⟨a, r', hd⟩ := hk.device i hi
        exact Option.some.inj (hd.area.symm.trans hr) ▸ hd.area_lt
      · intro r hr
        exact Option.some.inj (h0.area.symm.trans hr) ▸ hr0

/-! ### The condition of the runs -/

/-- The half size allocated for a device when it was created. -/
def halfBytes (k : Kernel) (i : Nat) : Nat :=
  match k.vmallocArea i with
  | none => 0
  | some r => k.areaBytes r / 2

theorem DeviceOk.halfBytes {k : Kernel} {i a r : Nat} (h : DeviceOk k i a r) :
    k.halfBytes i = k.vmallocAreaSz i := by
  have := h.bytes
  rw [Kernel.halfBytes, h.area]
  dsimp only
  omega

/-- The commands that name a device name a created one. -/
def NamesCreated (k : Kernel) : Event → Prop
  | .setGrainSize o => k.Created o.index
  | .flipBitmapArea index => k.Created index
  | _ => True

/-- A new half has fewer than `2 ^ 31` bits and its struct is allocated; a resize names the device
whose struct is the global `bitmap`, for at least one byte and at most the half it has. -/
def FitsOwn (k : Kernel) : Event → Prop
  | .devCreate o env => 8 * o.uBitmapSize < 2 ^ 31 ∧ env.kzalloc = true
  | .setGrainSize o => (k.device o.index).bitmap = k.bitmap ∧ 0 < o.uBitmapSize ∧
      o.uBitmapSize ≤ k.halfBytes o.index
  | _ => True

instance (k : Kernel) : (e : Event) → Decidable (NamesCreated k e)
  | .setGrainSize o => inferInstanceAs (Decidable (k.Created o.index))
  | .flipBitmapArea index => inferInstanceAs (Decidable (k.Created index))
  | .devCreate _ _ => isTrue trivial
  | .makeRequest _ _ => isTrue trivial

instance (k : Kernel) : (e : Event) → Decidable (FitsOwn k e)
  | .setGrainSize o => inferInstanceAs (Decidable
      ((k.device o.index).bitmap = k.bitmap ∧ 0 < o.uBitmapSize ∧ _ ≤ _))
  | .devCreate o env => inferInstanceAs (Decidable (8 * o.uBitmapSize < 2 ^ 31 ∧ env.kzalloc = true))
  | .flipBitmapArea _ => isTrue trivial
  | .makeRequest _ _ => isTrue trivial

theorem setGrainSize_own {k k' : Kernel} {o : Ioctl} (hk : Inv k) (hc : k.Created o.index)
    (ho : FitsOwn k (.setGrainSize o)) (h : k.setGrainSize o = some k') :
    ∃ a r, DeviceOk k o.index a r ∧ o.uBitmapSize ≤ k.vmallocAreaSz o.index ∧
      k' = { k.setBitmap a { k.bitmaps a with
          grainSize := o.uGrainSize, bitmapSize := o.uBitmapSize * 8 } with
        vmallocAreaSz := Function.update k.vmallocAreaSz k.minor o.uBitmapSize } := by
  obtain ⟨a, r, hd⟩ := hk.device o.index hc
  obtain ⟨a', ha', rfl⟩ := setGrainSize_cases h
  obtain ⟨hsame, -, hle⟩ := ho
  rw [hd.halfBytes] at hle
  have hsmall := hd.small
  have haa : a' = a := Option.some.inj (ha'.symm.trans (hsame.symm.trans hd.bitmap))
  subst haa
  refine ⟨a', r, hd, hle, ?_⟩
  rw [ulong_of_lt (by omega : o.uBitmapSize * 8 < 2 ^ 64)]
  rfl

theorem Inv.setNextSize {k : Kernel} (hk : Inv k) (n : Nat) :
    Inv { k with vmallocAreaSz := Function.update k.vmallocAreaSz k.minor n } where
  minor_pos := hk.minor_pos
  minor_le := hk.minor_le
  device := by
    intro i hi
    obtain ⟨a, r, hd⟩ := hk.device i hi
    exact ⟨a, r, hd.congr rfl rfl (Function.update_of_ne (Nat.ne_of_lt hi.2) _ _) rfl rfl
      (le_refl _)⟩
  bitmap_inj := hk.bitmap_inj
  area_inj := hk.area_inj

/-- **Step lemma.** -/
theorem step_inv {k k' : Kernel} {e : Event} (hk : Inv k) (hc : NamesCreated k e)
    (ho : FitsOwn k e) (h : k.step e = some k') : Inv k' := by
  cases e with
  | devCreate o env =>
    obtain ⟨⟨k1, rc⟩, h1, rfl⟩ := Option.map_eq_some_iff.mp h
    exact hk.devCreate ho.2 ho.1 h1
  | setGrainSize o =>
    obtain ⟨a, r, hd, hle, rfl⟩ := setGrainSize_own hk hc ho h
    have hpos := ho.2.1
    have hle8 : o.uBitmapSize * 8 ≤ 8 * k.vmallocAreaSz o.index := by omega
    have hb : Inv (k.setBitmap a { k.bitmaps a with
        grainSize := o.uGrainSize, bitmapSize := o.uBitmapSize * 8 }) :=
      hk.setBitmap hc hd hd.ptr (Nat.mul_pos hpos (by decide)) hle8
    exact hb.setNextSize _
  | flipBitmapArea index =>
    obtain ⟨a, r, hd⟩ := hk.device index hc
    change k.flipBitmapArea index = some k' at h
    rw [flipBitmapArea_spec hk hc hd] at h
    cases h
    exact hk.flip hc hd
  | makeRequest i bio =>
    obtain ⟨r, m, rfl⟩ := ebdrMakeRequest_cases h
    exact hk.setMem r m

/-! ### What the invariant gives -/

/-- `bitmap_area` is the half that `bmap_user` names, and the bits of the bitmap, hence those that
`ebdr_set_bits` sets, lie in that half. -/
structure RepOk (k : Kernel) (i : Nat) (b : EbdrBitmap) (r : Nat) : Prop where
  bitmap : k.bitmapOf i = some b
  area : k.vmallocArea i = some r
  kernel : b.bmapUser = .kernel → b.bitmapArea = some ⟨r, 0⟩
  user : b.bmapUser = .user → b.bitmapArea = some ⟨r, k.halfBytes i⟩
  size : b.bitmapSize ≤ 8 * k.halfBytes i
  bits : ∀ (bio : Bio) (x : Int), firstBit b bio ≤ x → x ≤ lastBit b bio →
    0 ≤ x ∧ x < 8 * k.halfBytes i

theorem Inv.repOk {k : Kernel} (hk : Inv k) {i : Nat} (hi : k.Created i) :
    ∃ b r, RepOk k i b r := by
  obtain ⟨a, r, hd⟩ := hk.device i hi
  have hle := hd.size_le
  have hsmall := hd.small
  refine ⟨k.bitmaps a, r, hd.bitmapOf (hk.created_lt hi), hd.area, ?_, ?_, ?_, ?_⟩
  · intro hu
    rw [hd.ptr, hu, BmapUser.half, halfOff]
  · intro hu
    rw [hd.ptr, hu, BmapUser.half, halfOff, hd.halfBytes]
  · rw [hd.halfBytes]
    exact hle
  · intro bio x hx1 hx2
    have hf := firstBit_mem hd.size_pos (by omega) bio
    have hl := lastBit_mem hd.size_pos (by omega) bio
    rw [hd.halfBytes]
    omega

/-- A resize of device `i` sets the geometry of device `i` and leaves the others' structs alone. -/
def ResizeOk (k k' : Kernel) (o : Ioctl) : Prop :=
  (k'.bitmapOf o.index).map (fun b => (b.grainSize, b.bitmapSize)) =
      some (o.uGrainSize, ulong (o.uBitmapSize * 8)) ∧
    ∀ j, k.Created j → j ≠ o.index → k'.bitmapOf j = k.bitmapOf j

theorem Inv.resizeOk {k k' : Kernel} {o : Ioctl} (hk : Inv k) (hc : k.Created o.index)
    (ho : FitsOwn k (.setGrainSize o)) (h : k.setGrainSize o = some k') : ResizeOk k k' o := by
  obtain ⟨a, r, hd, hle, rfl⟩ := setGrainSize_own hk hc ho h
  have hsmall := hd.small
  constructor
  · rw [ulong_of_lt (by omega : o.uBitmapSize * 8 < 2 ^ 64)]
    simp [Kernel.bitmapOf, Kernel.setBitmap, hk.created_lt hc, hd.bitmap]
  · intro j hj hne
    obtain ⟨a', r', hd'⟩ := hk.device j hj
    have haa : a' ≠ a := by
      rintro rfl
      exact hne (hk.bitmap_inj j o.index a' hj hc hd'.bitmap hd.bitmap)
    simp [Kernel.bitmapOf, Kernel.setBitmap, hd'.bitmap, Function.update_of_ne haa]

/-- **The bitmap representation along runs.** In a run whose resizes name the device created last
and fit its half, every created device's `bitmap_area` is the half `bmap_user` names, its bits and
the bits every write sets lie in that half, and a resize changes the named device only. -/
theorem bitmap_representation {es : List Event} {k : Kernel}
    (hm : Meets step (fun k e => NamesCreated k e ∧ FitsOwn k e) init es)
    (hr : run step init es = some k) :
    (∀ i, k.Created i → ∃ b r, RepOk k i b r) ∧
      ∀ o k', NamesCreated k (.setGrainSize o) → FitsOwn k (.setGrainSize o) →
        k.setGrainSize o = some k' → ResizeOk k k' o := by
  have hk : Inv k :=
    run_inv (fun k e k' hk hok hs => step_inv hk hok.1 hok.2 hs) inv_init hm hr
  exact ⟨fun i hi => hk.repOk hi, fun o k' hc ho hs => hk.resizeOk hc ho hs⟩

/-- A device creation in which every call succeeds. -/
def createOk (name : List UInt8) (grain size : Nat) : Event :=
  .devCreate ⟨name, grain, size, .kernel, 0⟩ ⟨true, true, true, true⟩

/-- Two devices, a resize of the second within its half, a flip of the first and a write to it. -/
def sampleRun : List Event :=
  [createOk [1] 1024 16, createOk [2] 1024 16, .setGrainSize ⟨[2], 2048, 8, .kernel, 2⟩,
    .flipBitmapArea 1, .makeRequest 1 ⟨5, 4096, true⟩]

theorem bitmap_representation_sample :
    ∃ k, run step init sampleRun = some k ∧
      (∀ i, k.Created i → ∃ b r, RepOk k i b r) ∧
        ∀ o k', NamesCreated k (.setGrainSize o) → FitsOwn k (.setGrainSize o) →
          k.setGrainSize o = some k' → ResizeOk k k' o := by
  have hsome : (run step init sampleRun).isSome = true := by decide
  obtain ⟨k, hk⟩ := Option.isSome_iff_exists.mp hsome
  exact ⟨k, hk, bitmap_representation (by decide) hk⟩

/-- A resize of device 1 after device 2 was made: the struct of device 2 is given more bits than the
area of device 2 has. -/
theorem setGrainSize_other_device :
    ¬ ∀ es k, Meets step NamesCreated init es → run step init es = some k →
      (∀ i, k.Created i → ∃ b r, RepOk k i b r) ∧
        ∀ o k', NamesCreated k (.setGrainSize o) → k.setGrainSize o = some k' →
          ResizeOk k k' o := by
  intro h
  let es := [createOk [1] 1024 16, createOk [2] 1024 16,
    .setGrainSize ⟨[1], 2048, 32, .kernel, 1⟩]
  have hsome : (run step init es).isSome = true := by decide
  obtain ⟨k, hk⟩ := Option.isSome_iff_exists.mp hsome
  have hval : (run step init es).map (fun k => (k.minor, (k.bitmapOf 2).map (·.bitmapSize),
      k.halfBytes 2)) = some (3, some 256, 16) := by decide
  rw [hk, Option.map_some, Option.some.injEq, Prod.mk.injEq, Prod.mk.injEq] at hval
  obtain ⟨hminor, hsize, hhalf⟩ := hval
  obtain ⟨b, r, hrep⟩ := (h es k (by decide) hk).1 2 ⟨by omega, by omega⟩
  have hle := hrep.size
  rw [hrep.bitmap, Option.map_some, Option.some.injEq] at hsize
  omega

end Kernel

end Ebdr
