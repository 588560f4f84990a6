import Ebdr.Kernel.Device
import Ebdr.Lib.Lts

/-!
# The Windows filter: a tracked volume

`VOL_INFO` and `ATDR_BITMAP` of one volume, the pool blocks its bitmap is allocated from, and the
requests that use them: `ATDRCTL_DEV_CREATE`, `ATDR_FLIP_BITMAP_AREA`, `ATDRCTL_DEV_DESTROY` and
`atdrFltWrite`. The structures are not cleared when they are allocated, so a volume starts with any
values in their fields; tracking alone is off.

`live_bitmap` says exactly in which runs a tracked write stays inside a live bitmap.
-/

namespace Ebdr

namespace Windows

open ByteMem CInt Lts

/-- An address: nowhere in the pool, or at an offset in a block. -/
inductive PoolPtr where
  | wild
  | inside (block off : Nat)
  deriving DecidableEq, Repr

/-- How `MapBufferForUserModeUse` ends. -/
inductive Mapping where
  | done
  /-- `IoAllocateMdl` returns `NULL`. -/
  | noMdl
  /-- Locking or mapping the pages raises an exception. -/
  | exception
  deriving DecidableEq, Repr

/-- The volume, and the pool as far as its bitmap uses it. -/
structure Volume where
  bitmapArea : PoolPtr
  bitmapAreaStart : PoolPtr
  bitmapAreaBackup : PoolPtr
  bitmapSize : Nat
  grainSize : Nat
  totalNumBits : Nat
  bmapUser : BmapUser
  trackingEnabled : Bool
  /-- The size of each block that is allocated. -/
  pool : Nat → Option Nat
  mem : Nat → Mem
  /-- The next block. -/
  next : Nat
  /-- The blocks that were freed. This and the next field are no data of the driver. -/
  freed : List Nat
  /-- The bit indices passed to `atdr_set_bits`, each with the number of bits of a half. -/
  passed : List (Nat × Nat)

inductive Request where
  /-- `mapped` is false outside the requesting thread, where only the sizes are stored. -/
  | create (uBitmapSize uGrainSize : Nat) (mapped : Bool) (mapping : Mapping)
  | flip
  | destroy
  | write (byteOffset length : Nat)
  deriving DecidableEq, Repr

/-! ### The position search -/

/-- The loop of `atdr_find_pos` from `cur`, with `n` positions to go. -/
def findFrom (grainSize : Nat) (addr : Nat) : Nat → Nat → Nat
  | 0, cur => cur
  | n + 1, cur =>
    if addr < uint ((cur + 1) * (grainSize >>> 9)) then cur
    else findFrom grainSize addr n (cur + 1)

namespace Volume

/-- `atdr_find_pos`. -/
def atdrFindPos (v : Volume) (addr : Nat) : Nat := findFrom v.grainSize addr v.totalNumBits 0

/-! ### The requests -/

/-- `ExFreePoolWithTag`. -/
def exFreePool (v : Volume) : PoolPtr → Option Volume
  | .wild => none
  | .inside b _ =>
    some { v with pool := Function.update v.pool b none, freed := b :: v.freed }

/-- `MapBufferForUserModeUse`. -/
def mapBufferForUserModeUse (v : Volume) (mapping : Mapping) : Option Volume :=
  let b := v.next
  let v := { v with
    bitmapAreaStart := .inside b 0
    pool := Function.update v.pool b (some (2 * v.bitmapSize))
    mem := Function.update v.mem b fun _ => 0
    next := b + 1 }
  match mapping with
  | .noMdl => v.exFreePool v.bitmapAreaStart
  | .done | .exception =>
    let v := { v with
      bitmapArea := v.bitmapAreaStart
      bmapUser := .kernel
      bitmapAreaBackup := .inside b v.bitmapSize }
    if mapping = .exception then v.exFreePool v.bitmapAreaStart else some v

/-- `ATDRCTL_DEV_CREATE`. A volume that is tracked is mapped again, which leaves all this as it
is. -/
def create (v : Volume) (uBitmapSize uGrainSize : Nat) (mapped : Bool) (mapping : Mapping) :
    Option Volume :=
  let v := { v with
    bitmapSize := min (uint uBitmapSize) (4 * 4096)
    grainSize := uint uGrainSize
    totalNumBits := uint (uint uBitmapSize * 8) }
  if mapped = true ∧ v.trackingEnabled = false then
    { v with trackingEnabled := true }.mapBufferForUserModeUse mapping
  else some v

/-- `ATDR_FLIP_BITMAP_AREA`. -/
def flip (v : Volume) : Volume :=
  match v.bmapUser with
  | .user => { v with bitmapArea := v.bitmapAreaStart, bmapUser := .kernel }
  | .kernel => { v with bitmapArea := v.bitmapAreaBackup, bmapUser := .user }

/-- `ATDRCTL_DEV_DESTROY`. -/
def destroy (v : Volume) : Option Volume :=
  if v.trackingEnabled = true then v.exFreePool v.bitmapAreaStart else some v

/-- `atdr_set_bits`. The arguments are `int`s: from `2 ^ 31` on they are negative, and no bit of a
block is meant. With `last = INT_MAX` the loop's counter overflows. -/
def atdrSetBits (v : Volume) (first last : Nat) : Option Volume :=
  match v.bitmapArea with
  | .wild => none
  | .inside b off =>
    if last < 2 ^ 31 - 1 then
      some { v with
        mem := Function.update v.mem b (setBits 4 (v.mem b) off first (last + 1 - first)) }
    else if last = 2 ^ 31 - 1 then none
    else some v

/-- `atdrFltWrite`. -/
def atdrFltWrite (v : Volume) (byteOffset length : Nat) : Option Volume :=
  if v.trackingEnabled = true then
    let startAddr := byteOffset >>> 9
    let endAddr := (byteOffset + length) >>> 9
    let first := v.atdrFindPos startAddr
    let last := v.atdrFindPos endAddr
    let bits := 8 * v.bitmapSize
    { v with passed := (first, bits) :: (last, bits) :: v.passed }.atdrSetBits first last
  else some v

def step (v : Volume) : Request → Option Volume
  | .create uBitmapSize uGrainSize mapped mapping => v.create uBitmapSize uGrainSize mapped mapping
  | .flip => some v.flip
  | .destroy => v.destroy
  | .write byteOffset length => v.atdrFltWrite byteOffset length

/-- A volume after `atdrFltAddDevice`. -/
structure Fresh (v : Volume) : Prop where
  tracking : v.trackingEnabled = false
  pool : ∀ b, v.pool b = none
  freed : v.freed = []
  passed : v.passed = []

/-! ### The property and its condition -/

/-- While the volume is tracked, `bitmap_area` points to a half of a live block of at least two
bitmaps; every bit index passed was below the bits of a half; no block was freed twice. -/
structure Inside (v : Volume) : Prop where
  live : v.trackingEnabled = true → ∃ b off size, v.bitmapArea = .inside b off ∧
    v.pool b = some size ∧ 2 * v.bitmapSize ≤ size ∧ (off = 0 ∨ 2 * off = size)
  below : ∀ p ∈ v.passed, p.1 < p.2
  once : v.freed.Nodup

/-- The size of the block that the bitmap was allocated in. -/
def areaSize (v : Volume) : Nat :=
  match v.bitmapAreaStart with
  | .wild => 0
  | .inside b _ => (v.pool b).getD 0

/-- The write ends before the end of a grain with a bit in the half (in the driver's 32-bit sectors),
or the number of bits, reduced to 32 bits, is less than the half has. -/
def EndsInside (v : Volume) (byteOffset length : Nat) : Prop :=
  v.totalNumBits < 8 * v.bitmapSize ∨
    ∃ k < 8 * v.bitmapSize, (byteOffset + length) >>> 9 < uint ((k + 1) * (v.grainSize >>> 9))

/-- The first create maps the bitmap, a later one does not ask for more than was allocated, the
volume is not destroyed once it is tracked, and a tracked write ends inside the bitmap. -/
def Kept (v : Volume) : Request → Prop
  | .create uBitmapSize _ mapped mapping =>
    if v.trackingEnabled = true then 2 * min (uint uBitmapSize) (4 * 4096) ≤ v.areaSize
    else mapped = true → mapping = .done
  | .flip => True
  | .destroy => v.trackingEnabled = false
  | .write byteOffset length => v.trackingEnabled = true → v.EndsInside byteOffset length

instance (v : Volume) (e : Request) : Decidable (v.Kept e) := by
  unfold Kept EndsInside
  split <;> infer_instance

/-! ### The position search, as a number -/

/-- The search stops at the first position whose end is beyond `addr`, or after the last one. -/
theorem findFrom_spec (grainSize addr n cur : Nat) :
    cur ≤ findFrom grainSize addr n cur ∧ findFrom grainSize addr n cur ≤ cur + n ∧
      (∀ k, cur ≤ k → k < findFrom grainSize addr n cur →
        ¬ addr < uint ((k + 1) * (grainSize >>> 9))) ∧
      (findFrom grainSize addr n cur < cur + n →
        addr < uint ((findFrom grainSize addr n cur + 1) * (grainSize >>> 9))) := by
  induction n generalizing cur with
  | zero =>
    refine ⟨le_refl _, le_refl _, ?_, ?_⟩
    · intro k h1 h2
      exact absurd h2 (Nat.not_lt.mpr h1)
    · intro h
      exact absurd h (lt_irrefl _)
  | succ n ih =>
    rw [findFrom]
    split
    · rename_i h
      refine ⟨le_refl _, Nat.le_add_right _ _, ?_, fun _ => h⟩
      intro k h1 h2
      exact absurd h2 (Nat.not_lt.mpr h1)
    · rename_i h
      obtain ⟨h1, h2, h3, h4⟩ := ih (cur + 1)
      refine ⟨by omega, by omega, ?_, ?_⟩
      · intro k hk hlt
        rcases Nat.eq_or_lt_of_le hk with rfl | hk
        · exact h
        · exact h3 k hk hlt
      · intro hlt
        exact h4 (by omega)

/-- The position is below `m` when the positions end below `m`, or one of them before `m` ends beyond
the address. -/
theorem atdrFindPos_lt_iff (v : Volume) (addr m : Nat) :
    v.atdrFindPos addr < m ↔
      v.totalNumBits < m ∨ ∃ k < m, addr < uint ((k + 1) * (v.grainSize >>> 9)) := by
  obtain ⟨-, hle, hnot, hfound⟩ := findFrom_spec v.grainSize addr v.totalNumBits 0
  rw [Nat.zero_add] at hle hfound
  show findFrom v.grainSize addr v.totalNumBits 0 < m ↔ _
  constructor
  · intro hlt
    rcases Nat.lt_or_eq_of_le hle with h | h
    · exact Or.inr ⟨_, hlt, hfound h⟩
    · rw [h] at hlt
      exact Or.inl hlt
  · rintro (h | ⟨k, hk, h⟩)
    · exact lt_of_le_of_lt hle h
    · by_contra hge
      exact hnot k (Nat.zero_le _) (by omega) h

theorem atdrFindPos_mono (v : Volume) {addr addr' : Nat} (h : addr ≤ addr') :
    v.atdrFindPos addr ≤ v.atdrFindPos addr' := by
  apply Nat.le_of_lt_succ
  have hself := (v.atdrFindPos_lt_iff addr' (v.atdrFindPos addr' + 1)).mp (Nat.lt_succ_self _)
  apply (v.atdrFindPos_lt_iff addr (v.atdrFindPos addr' + 1)).mpr
  rcases hself with hlt | ⟨k, hk, hlt⟩
  · exact Or.inl hlt
  · exact Or.inr ⟨k, hk, lt_of_le_of_lt h hlt⟩

/-! ### The invariant -/

/-- The bitmap of a tracked volume: one live block, `bitmap_area` at the half that `bmap_user`
names. -/
structure Area (v : Volume) (b half : Nat) : Prop where
  start : v.bitmapAreaStart = .inside b 0
  backup : v.bitmapAreaBackup = .inside b half
  area : v.bitmapArea = match v.bmapUser with
    | .kernel => .inside b 0
    | .user => .inside b half
  pool : v.pool b = some (2 * half)
  size : v.bitmapSize ≤ half

structure Inv (v : Volume) : Prop where
  area : v.trackingEnabled = true → ∃ b half, v.Area b half
  untracked : v.trackingEnabled = false → ∀ b, v.pool b = none
  freed : v.freed = []
  below : ∀ p ∈ v.passed, p.1 < p.2

theorem Fresh.inv {v : Volume} (h : v.Fresh) : v.Inv where
  area := by
    intro ht
    rw [h.tracking] at ht
    cases ht
  untracked := fun _ => h.pool
  freed := h.freed
  below := by
    intro p hp
    rw [h.passed] at hp
    cases hp

theorem Area.inside {v : Volume} {b half : Nat} (h : v.Area b half) :
    ∃ off, v.bitmapArea = .inside b off ∧ (off = 0 ∨ off = half) := by
  have harea := h.area
  cases hu : v.bmapUser with
  | kernel =>
    rw [hu] at harea
    exact ⟨0, harea, Or.inl rfl⟩
  | user =>
    rw [hu] at harea
    exact ⟨half, harea, Or.inr rfl⟩

theorem Inv.inside {v : Volume} (hi : v.Inv) : v.Inside where
  live := by
    intro ht
    obtain ⟨b, half, harea⟩ := hi.area ht
    obtain ⟨off, hoff, hor⟩ := harea.inside
    have hsize := harea.size
    exact ⟨b, off, 2 * half, hoff, harea.pool, by omega, by omega⟩
  below := hi.below
  once := by
    rw [hi.freed]
    exact List.nodup_nil

theorem Area.areaSize {v : Volume} {b half : Nat} (h : v.Area b half) : v.areaSize = 2 * half := by
  rw [Volume.areaSize, h.start]
  dsimp only
  rw [h.pool, Option.getD_some]

theorem not_inside_of_dead {v : Volume} (ht : v.trackingEnabled = true)
    (hpool : ∀ b, v.pool b = none) : ¬ v.Inside := by
  intro h
  obtain ⟨b, off, size, -, hlive, -⟩ := h.live ht
  rw [hpool] at hlive
  cases hlive

/-! ### One request -/

/-- A create of a volume that is tracked changes the sizes only. -/
theorem kept_recreate {v v' : Volume} {u g : Nat} {mapped : Bool} {mapping : Mapping} (hi : v.Inv)
    (ht : v.trackingEnabled = true) (h : v.create u g mapped mapping = some v') :
    (v.Kept (.create u g mapped mapping) → v'.Inv) ∧
      (v'.Inside → v.Kept (.create u g mapped mapping)) := by
  obtain ⟨b, half, harea⟩ := hi.area ht
  have hkept : v.Kept (.create u g mapped mapping) ↔
      2 * min (uint u) (4 * 4096) ≤ 2 * half := by
    show (if v.trackingEnabled = true then 2 * min (uint u) (4 * 4096) ≤ v.areaSize
      else mapped = true → mapping = .done) ↔ _
    rw [if_pos ht, harea.areaSize]
  unfold create at h
  dsimp only at h
  rw [if_neg (by simp [ht])] at h
  cases h
  rw [hkept]
  refine ⟨?_, ?_⟩
  · intro hle
    have hsize : min (uint u) (4 * 4096) ≤ half := by omega
    refine ⟨fun _ => ⟨b, half, harea.start, harea.backup, harea.area, harea.pool, hsize⟩, ?_,
      hi.freed, hi.below⟩
    intro hf
    rw [show v.trackingEnabled = false from hf] at ht
    cases ht
  · intro hin
    obtain ⟨off, hoff, -⟩ := harea.inside
    obtain ⟨b', off', size, hbm, hpool, hle, -⟩ := hin.live ht
    cases hoff.symm.trans hbm
    cases harea.pool.symm.trans hpool
    exact hle

theorem kept_firstCreate {v v' : Volume} {u g : Nat} {mapped : Bool} {mapping : Mapping}
    (hi : v.Inv) (ht : v.trackingEnabled = false) (h : v.create u g mapped mapping = some v') :
    (v.Kept (.create u g mapped mapping) → v'.Inv) ∧
      (v'.Inside → v.Kept (.create u g mapped mapping)) := by
  have hkept : v.Kept (.create u g mapped mapping) ↔ (mapped = true → mapping = .done) := by
    show (if v.trackingEnabled = true then 2 * min (uint u) (4 * 4096) ≤ v.areaSize
      else mapped = true → mapping = .done) ↔ _
    rw [if_neg (by simp [ht])]
  have hfree : ∀ b x, Function.update (Function.update v.pool v.next x) v.next none b = none := by
    intro b x
    by_cases hb : b = v.next
    · rw [hb, Function.update_self]
    · rw [Function.update_of_ne hb, Function.update_of_ne hb]
      exact hi.untracked ht b
  rw [hkept]
  unfold create at h
  dsimp only at h
  cases mapped with
  | false =>
    rw [if_neg (by simp)] at h
    cases h
    refine ⟨fun _ => ⟨?_, hi.untracked, hi.freed, hi.below⟩, fun _ => nofun⟩
    intro htrue
    rw [show v.trackingEnabled = true from htrue] at ht
    cases ht
  | true =>
    rw [if_pos ⟨rfl, ht⟩] at h
    cases mapping with
    | noMdl =>
      cases h
      refine ⟨fun hdone => (nomatch hdone rfl), fun hin => ?_⟩
      exact absurd hin (not_inside_of_dead rfl fun b => hfree b _)
    | exception =>
      cases h
      refine ⟨fun hdone => (nomatch hdone rfl), fun hin => ?_⟩
      exact absurd hin (not_inside_of_dead rfl fun b => hfree b _)
    | done =>
      cases h
      refine ⟨fun _ => ⟨fun _ => ?_, nofun, hi.freed, hi.below⟩, fun _ _ => rfl⟩
      exact ⟨v.next, min (uint u) (4 * 4096), rfl, rfl, rfl, Function.update_self _ _ _, le_refl _⟩

theorem kept_flip {v : Volume} (hi : v.Inv) : v.flip.Inv := by
  unfold flip
  split <;> rename_i hu
  · refine ⟨?_, hi.untracked, hi.freed, hi.below⟩
    intro ht
    obtain ⟨b, half, harea⟩ := hi.area ht
    exact ⟨b, half, harea.start, harea.backup, harea.start, harea.pool, harea.size⟩
  · refine ⟨?_, hi.untracked, hi.freed, hi.below⟩
    intro ht
    obtain ⟨b, half, harea⟩ := hi.area ht
    exact ⟨b, half, harea.start, harea.backup, harea.backup, harea.pool, harea.size⟩

theorem kept_destroy {v v' : Volume} (hi : v.Inv) (h : v.destroy = some v') :
    (v.Kept .destroy → v'.Inv) ∧ (v'.Inside → v.Kept .destroy) := by
  unfold destroy at h
  split at h
  · rename_i ht
    obtain ⟨b, half, harea⟩ := hi.area ht
    rw [harea.start] at h
    cases h
    refine ⟨fun hf => ?_, fun hin => ?_⟩
    · rw [show v.trackingEnabled = false from hf] at ht
      cases ht
    · obtain ⟨off, hoff, -⟩ := harea.inside
      obtain ⟨b', off', size, hbm, hpool, -⟩ := hin.live ht
      cases hoff.symm.trans hbm
      have hdead : Function.update v.pool b none b = some size := hpool
      rw [Function.update_self] at hdead
      cases hdead
  · rename_i ht
    cases h
    exact ⟨fun _ => hi, fun _ => (Bool.not_eq_true _).mp ht⟩

theorem kept_write {v v' : Volume} {byteOffset length : Nat} (hi : v.Inv)
    (h : v.atdrFltWrite byteOffset length = some v') :
    (v.Kept (.write byteOffset length) → v'.Inv) ∧
      (v'.Inside → v.Kept (.write byteOffset length)) := by
  unfold atdrFltWrite at h
  split at h
  case isFalse ht =>
    cases h
    exact ⟨fun _ => hi, fun _ htrue => absurd htrue ht⟩
  rename_i ht
  obtain ⟨b, half, harea⟩ := hi.area ht
  obtain ⟨off, hoff, hor⟩ := harea.inside
  -- whatever is written, only the memory and the indices passed change
  obtain ⟨m, hv⟩ : ∃ m, v' = { v with
      mem := m
      passed := (v.atdrFindPos (byteOffset >>> 9), 8 * v.bitmapSize) ::
        (v.atdrFindPos ((byteOffset + length) >>> 9), 8 * v.bitmapSize) :: v.passed } := by
    unfold atdrSetBits at h
    dsimp only at h
    split at h
    · rename_i hwild
      rw [hoff] at hwild
      cases hwild
    · split at h
      · exact ⟨_, (Option.some.inj h).symm⟩
      · split at h
        · cases h
        · exact ⟨_, (Option.some.inj h).symm⟩
  have hend : v.EndsInside byteOffset length ↔
      v.atdrFindPos ((byteOffset + length) >>> 9) < 8 * v.bitmapSize :=
    (v.atdrFindPos_lt_iff _ _).symm
  have hle : byteOffset >>> 9 ≤ (byteOffset + length) >>> 9 := by
    rw [Nat.shiftRight_eq_div_pow, Nat.shiftRight_eq_div_pow]
    exact Nat.div_le_div_right (Nat.le_add_right _ _)
  have hmono := v.atdrFindPos_mono hle
  rw [hv]
  refine ⟨fun hk => ?_, fun hin _ => ?_⟩
  · have hlast := hend.mp (hk ht)
    refine ⟨fun _ => ⟨b, half, harea.start, harea.backup, harea.area, harea.pool, harea.size⟩,
      hi.untracked, hi.freed, ?_⟩
    intro p hp
    rcases List.mem_cons.mp hp with rfl | hp
    · exact lt_of_le_of_lt hmono hlast
    · rcases List.mem_cons.mp hp with rfl | hp
      · exact hlast
      · exact hi.below p hp
  · apply hend.mpr
    exact hin.below (v.atdrFindPos ((byteOffset + length) >>> 9), 8 * v.bitmapSize) (by simp)

/-- **Step lemma.** A request that meets the condition keeps the invariant; one that does not leads
to a volume that is not inside. -/
theorem kept_step {v v' : Volume} {e : Request} (hi : v.Inv) (h : v.step e = some v') :
    (v.Kept e → v'.Inv) ∧ (v'.Inside → v.Kept e) := by
  cases e with
  | create u g mapped mapping =>
    cases ht : v.trackingEnabled with
    | true => exact kept_recreate hi ht h
    | false => exact kept_firstCreate hi ht h
  | flip =>
    cases h
    exact ⟨fun _ => kept_flip hi, fun _ => trivial⟩
  | destroy => exact kept_destroy hi h
  | write byteOffset length => exact kept_write hi h

/-- **Tracked writes stay inside a live bitmap**, in every state of a run, exactly when the first
create maps the bitmap, no later one asks for more than was allocated, the volume is not destroyed
once it is tracked, and every tracked write ends inside the bitmap. -/
theorem live_bitmap {v v' : Volume} {es : List Request} (h0 : v.Fresh)
    (hr : run step v es = some v') : Always step Inside v es ↔ Meets step Kept v es :=
  always_iff_meets (fun _ hi => hi.inside) (fun _ _ _ hi hs => kept_step hi hs) h0.inv hr

/-- A volume with all fields zero. -/
def zeroed : Volume :=
  ⟨.wild, .wild, .wild, 0, 0, 0, .kernel, false, fun _ => none, fun _ _ => 0, 0, [], []⟩

theorem fresh_zeroed : zeroed.Fresh := ⟨rfl, fun _ => rfl, rfl, rfl⟩

/-- One byte of bitmap for 8 grains of 512 bytes: a write of the first grain, a flip, another. -/
theorem live_bitmap_sample :
    ∃ v', run step zeroed [.create 1 512 true .done, .write 0 512, .flip, .write 1024 512] =
        some v' ∧
      Always step Inside zeroed
        [.create 1 512 true .done, .write 0 512, .flip, .write 1024 512] := by
  have hsome : (run step zeroed
      [.create 1 512 true .done, .write 0 512, .flip, .write 1024 512]).map
        (fun v => v.passed.length) = some 4 := by decide
  obtain ⟨v', hv, -⟩ := Option.map_eq_some_iff.mp hsome
  exact ⟨v', hv, (live_bitmap fresh_zeroed hv).mpr (by decide)⟩

/-- A write of the last grain: its end is searched for behind the bitmap, so bit 8 of 8 is passed. -/
theorem last_grain_escapes :
    ¬ ∀ (v v' : Volume) (es : List Request), v.Fresh → run step v es = some v' →
      Always step Inside v es := by
  intro h
  have hsome : (run step zeroed [.create 1 512 true .done, .write 3584 512]).map
      (fun v => v.passed) = some [(7, 8), (8, 8)] := by decide
  obtain ⟨v', hv, hpassed⟩ := Option.map_eq_some_iff.mp hsome
  have hin := h zeroed v' _ fresh_zeroed hv _ v' (List.prefix_refl _) hv
  have hlt := hin.below (8, 8) (by rw [hpassed]; simp)
  exact absurd hlt (by decide)

end Volume

end Windows

end Ebdr
