import Mathlib.Tactic.Common
import Mathlib.Tactic.Ring

/-!
# The Windows resync: the offsets of its transfers

On Windows `unsigned long` has 32 bits, so the sector `bit_pos * grain_size + chunk_id * chunk_size`
and its scaling by 512 are taken in 32 bits before `chunk_read_server` and `chunk_write_client` widen
the product. Both sides compute with the sizes that the server's header object holds: the negotiation
copies them, whatever they are. The bitmap of the client does not follow them: it has `BITMAP_SIZE`
bytes. `restartResync_ownBytes` says for which sizes and bitmaps every transfer of a resync has its own
bytes.
-/

namespace Ebdr

namespace Windows

/-- The sizes in a `struct replication_header`. -/
structure Sizes where
  bitmapSize : UInt32
  grainSize : UInt32
  chunkSize : UInt32
  deriving DecidableEq, Repr

/-- `replic_hdr_server_nego`: the sizes of the client are overwritten by those of the server's
object. -/
def replicHdrServerNego (server _client : Sizes) : Sizes := server

/-- `replic_hdr_client_nego`: the client takes the sizes of the answer. -/
def replicHdrClientNego (answer : Sizes) : Sizes := answer

/-- Where `SetFilePointer` moves to. -/
def setFilePointer (lowPart highPart : Nat) : Nat := highPart * 2 ^ 32 + lowPart

/-- The offset that `chunk_read_server` and `chunk_write_client` seek to. -/
def chunkOffset (startLba : UInt32) : Nat :=
  let loffset := (startLba * 512).toNat
  setFilePointer (loffset % 2 ^ 32) (loffset / 2 ^ 32)

/-- `start_lba`, in `get_data` and in `restart_resync`. -/
def startLba (s : Sizes) (bitPos chunkId : UInt32) : UInt32 :=
  bitPos * s.grainSize + chunkId * s.chunkSize

/-- `BUF_SIZE_IN_BYTES`. -/
def bufSizeInBytes : Nat := 4096

/-- One pass of the inner loop: the server reads and the client writes. -/
structure Transfer where
  bitPos : Nat
  chunkId : Nat
  readAt : Nat
  writeAt : Nat
  deriving DecidableEq, Repr

/-- `total_iterations`. With `chunk_size` 0 the division faults: no transfer is made. -/
def totalIterations (s : Sizes) : Nat := (s.grainSize / s.chunkSize).toNat

/-- The transfer of a chunk: the header carries the two positions to `get_data`. -/
def transfer (server client : Sizes) (bitPos chunkId : Nat) : Transfer where
  bitPos := bitPos
  chunkId := chunkId
  readAt := chunkOffset (startLba server (.ofNat bitPos) (.ofNat chunkId))
  writeAt := chunkOffset (startLba client (.ofNat bitPos) (.ofNat chunkId))

/-- `BITMAP_SIZE`, the `bitmap_size` that `bitmap_client_create` gives the client's bitmap. -/
def bitmapSize : Nat := 4 * 4096

/-- The transfers of `restart_resync` from `bitPos`, in order, when nothing stops it; `copied` tells
the bits that are set (all of them in the mode `FULL_RESYNC`). -/
def restartResync (server client : Sizes) (copied : Nat → Bool) (bitPos : Nat) : List Transfer :=
  ((List.range' bitPos (bitmapSize * 8 - bitPos)).filter copied).flatMap fun b =>
    (List.range (totalIterations client)).map fun c => transfer server client b c

/-- The transfers that run to the end after a negotiation. -/
def negotiatedResync (server client : Sizes) (copied : Nat → Bool) (bitPos : Nat) :
    List Transfer :=
  restartResync server (replicHdrClientNego (replicHdrServerNego server client)) copied bitPos

/-! ### The property and its condition -/

/-- The mathematical byte offset of a chunk. -/
def byteOffset (s : Sizes) (bitPos chunkId : Nat) : Nat :=
  512 * (bitPos * s.grainSize.toNat + chunkId * s.chunkSize.toNat)

/-- Two transfers' ranges of bytes have none in common. -/
def Apart (x y : Nat) : Prop := x + bufSizeInBytes ≤ y ∨ y + bufSizeInBytes ≤ x

/-- Every transfer is read and written at its own offset, and two of different positions at different
bytes. -/
structure OwnBytes (s : Sizes) (ts : List Transfer) : Prop where
  offset : ∀ t ∈ ts, t.readAt = byteOffset s t.bitPos t.chunkId ∧
    t.writeAt = byteOffset s t.bitPos t.chunkId
  apart : ∀ t ∈ ts, ∀ t' ∈ ts, (t.bitPos, t.chunkId) ≠ (t'.bitPos, t'.chunkId) →
    Apart t.readAt t'.readAt ∧ Apart t.writeAt t'.writeAt

/-- The grains that a resync from `bitPos` copies. -/
def Copies (copied : Nat → Bool) (bitPos b : Nat) : Prop :=
  bitPos ≤ b ∧ b < bitmapSize * 8 ∧ copied b = true

/-- The last chunk of each copied grain starts below 4 GiB, and the positions are at least the 8
sectors of a transfer apart: chunks where a grain has several, grains where it has one. -/
structure FitsBelow (s : Sizes) (copied : Nat → Bool) (bitPos : Nat) : Prop where
  below : ∀ b, Copies copied bitPos b → 1 ≤ totalIterations s →
    byteOffset s b (totalIterations s - 1) < 2 ^ 32
  chunks : ∀ b, Copies copied bitPos b → 2 ≤ totalIterations s → 8 ≤ s.chunkSize.toNat
  grains : ∀ b b', Copies copied bitPos b → Copies copied bitPos b' → b < b' →
    totalIterations s = 1 → 8 ≤ (b' - b) * s.grainSize.toNat

/-! ### The offset of one chunk -/

theorem chunkOffset_eq (lba : UInt32) : chunkOffset lba = lba.toNat * 512 % 2 ^ 32 := by
  unfold chunkOffset setFilePointer
  dsimp only
  rw [Nat.div_add_mod', UInt32.toNat_mul]
  rfl

/-- The seek goes to the offset of the chunk modulo `2 ^ 32`. -/
theorem chunkOffset_startLba (s : Sizes) (b c : Nat) :
    chunkOffset (startLba s (.ofNat b) (.ofNat c)) = byteOffset s b c % 2 ^ 32 := by
  rw [chunkOffset_eq]
  unfold startLba byteOffset
  simp only [UInt32.toNat_add, UInt32.toNat_mul, UInt32.toNat_ofNat', Nat.mod_mul_mod,
    Nat.mod_add_mod, Nat.add_mod_mod]
  congr 1
  ring

/-- **A chunk is sought at its own offset just below 4 GiB.** -/
theorem chunkOffset_exact (s : Sizes) (b c : Nat) :
    chunkOffset (startLba s (.ofNat b) (.ofNat c)) = byteOffset s b c ↔
      byteOffset s b c < 2 ^ 32 := by
  rw [chunkOffset_startLba]
  constructor
  · intro h
    rw [← h]
    exact Nat.mod_lt _ (by decide)
  · intro h
    exact Nat.mod_eq_of_lt h

/-! ### The transfers of a resync -/

section

variable {s : Sizes} {copied : Nat → Bool} {bitPos : Nat}

theorem mem_negotiatedResync {client : Sizes} {t : Transfer} :
    t ∈ negotiatedResync s client copied bitPos ↔
      ∃ b, Copies copied bitPos b ∧ ∃ c < totalIterations s, transfer s s b c = t := by
  have hrange : ∀ b, b ∈ List.range' bitPos (bitmapSize * 8 - bitPos) ↔
      bitPos ≤ b ∧ b < bitmapSize * 8 := by
    intro b
    rw [List.mem_range'_1]
    omega
  unfold negotiatedResync restartResync replicHdrClientNego replicHdrServerNego
  simp only [List.mem_flatMap, List.mem_filter, hrange, List.mem_map, List.mem_range, Copies,
    and_assoc]

theorem chunk_lt (s : Sizes) {c : Nat} (hc : c < totalIterations s) :
    c * s.chunkSize.toNat + s.chunkSize.toNat ≤ s.grainSize.toNat := by
  have hmul : (c + 1) * s.chunkSize.toNat ≤ totalIterations s * s.chunkSize.toNat :=
    Nat.mul_le_mul_right _ hc
  have hdiv : totalIterations s * s.chunkSize.toNat ≤ s.grainSize.toNat := by
    unfold totalIterations
    rw [UInt32.toNat_div]
    exact Nat.div_mul_le_self _ _
  rw [Nat.succ_mul] at hmul
  omega

theorem FitsBelow.offset_eq (h : FitsBelow s copied bitPos) {b c : Nat}
    (hb : Copies copied bitPos b) (hc : c < totalIterations s) :
    chunkOffset (startLba s (.ofNat b) (.ofNat c)) = byteOffset s b c := by
  apply (chunkOffset_exact s b c).mpr
  apply lt_of_le_of_lt _ (h.below b hb (by omega))
  have hmul : c * s.chunkSize.toNat ≤ (totalIterations s - 1) * s.chunkSize.toNat :=
    Nat.mul_le_mul_right _ (by omega)
  unfold byteOffset
  omega

/-- Where a resync fits, a chunk starts 8 sectors or more after any chunk before it. -/
theorem FitsBelow.eight_le (h : FitsBelow s copied bitPos) {b c b' c' : Nat}
    (hb : Copies copied bitPos b) (hc : c < totalIterations s)
    (hb' : Copies copied bitPos b') (hc' : c' < totalIterations s)
    (hlt : b < b' ∨ (b = b' ∧ c < c')) :
    byteOffset s b c + bufSizeInBytes ≤ byteOffset s b' c' := by
  unfold byteOffset bufSizeInBytes
  rcases hlt with hlt | ⟨rfl, hlt⟩
  · by_cases hone : totalIterations s = 1
    · have hc0 : c = 0 := by omega
      have hc0' : c' = 0 := by omega
      have height := h.grains b b' hb hb' hlt hone
      rw [Nat.sub_mul] at height
      rw [hc0, hc0']
      omega
    · have hchunk := h.chunks b hb (by omega)
      have hend := chunk_lt s hc
      have hmul : (b + 1) * s.grainSize.toNat ≤ b' * s.grainSize.toNat :=
        Nat.mul_le_mul_right _ hlt
      rw [Nat.succ_mul] at hmul
      omega
  · have hchunk := h.chunks b hb (by omega)
    have hmul : (c + 1) * s.chunkSize.toNat ≤ c' * s.chunkSize.toNat :=
      Nat.mul_le_mul_right _ hlt
    rw [Nat.succ_mul] at hmul
    omega

theorem FitsBelow.ownBytes (h : FitsBelow s copied bitPos) (client : Sizes) :
    OwnBytes s (negotiatedResync s client copied bitPos) where
  offset := by
    intro t ht
    obtain ⟨b, hb, c, hc, rfl⟩ := mem_negotiatedResync.mp ht
    exact ⟨h.offset_eq hb hc, h.offset_eq hb hc⟩
  apart := by
    intro t ht t' ht' hne
    obtain ⟨b, hb, c, hc, rfl⟩ := mem_negotiatedResync.mp ht
    obtain ⟨b', hb', c', hc', rfl⟩ := mem_negotiatedResync.mp ht'
    have hapart : Apart (chunkOffset (startLba s (.ofNat b) (.ofNat c)))
        (chunkOffset (startLba s (.ofNat b') (.ofNat c'))) := by
      rw [h.offset_eq hb hc, h.offset_eq hb' hc']
      have hne' : ¬ (b = b' ∧ c = c') := fun heq => hne (Prod.ext heq.1 heq.2)
      by_cases hlt : b < b' ∨ (b = b' ∧ c < c')
      · exact Or.inl (h.eight_le hb hc hb' hc' hlt)
      · exact Or.inr (h.eight_le hb' hc' hb hc (by omega))
    exact ⟨hapart, hapart⟩

theorem transfer_mem (client : Sizes) {b c : Nat} (hb : Copies copied bitPos b)
    (hc : c < totalIterations s) :
    transfer s s b c ∈ negotiatedResync s client copied bitPos :=
  mem_negotiatedResync.mpr ⟨b, hb, c, hc, rfl⟩

theorem OwnBytes.eight_le {client : Sizes}
    (h : OwnBytes s (negotiatedResync s client copied bitPos)) {b c b' c' : Nat}
    (hb : Copies copied bitPos b) (hc : c < totalIterations s)
    (hb' : Copies copied bitPos b') (hc' : c' < totalIterations s) (hne : (b, c) ≠ (b', c'))
    (hle : byteOffset s b c ≤ byteOffset s b' c') :
    byteOffset s b c + bufSizeInBytes ≤ byteOffset s b' c' := by
  have ht := transfer_mem client hb hc
  have ht' := transfer_mem client hb' hc'
  have hapart : Apart (transfer s s b c).readAt (transfer s s b' c').readAt :=
    (h.apart _ ht _ ht' hne).1
  rw [(h.offset _ ht).1, (h.offset _ ht').1] at hapart
  unfold Apart bufSizeInBytes at hapart
  unfold bufSizeInBytes
  have hread : byteOffset s (transfer s s b c).bitPos (transfer s s b c).chunkId =
    byteOffset s b c := rfl
  have hread' : byteOffset s (transfer s s b' c').bitPos (transfer s s b' c').chunkId =
    byteOffset s b' c' := rfl
  omega

theorem OwnBytes.fitsBelow {client : Sizes}
    (h : OwnBytes s (negotiatedResync s client copied bitPos)) :
    FitsBelow s copied bitPos where
  below := by
    intro b hb hone
    have ht := transfer_mem client hb (show totalIterations s - 1 < totalIterations s by
      omega)
    exact (chunkOffset_exact s b _).mp (h.offset _ ht).1
  chunks := by
    intro b hb htwo
    have hle : byteOffset s b 0 ≤ byteOffset s b 1 := by
      unfold byteOffset
      omega
    have height := h.eight_le hb (by omega) hb (by omega) (by simp) hle
    unfold byteOffset bufSizeInBytes at height
    omega
  grains := by
    intro b b' hb hb' hlt hone
    have hmul : b * s.grainSize.toNat ≤ b' * s.grainSize.toNat :=
      Nat.mul_le_mul_right _ (le_of_lt hlt)
    have hle : byteOffset s b 0 ≤ byteOffset s b' 0 := by
      unfold byteOffset
      omega
    have hne : (b, 0) ≠ (b', 0) := by
      intro heq
      have := (Prod.ext_iff.mp heq).1
      omega
    have height := h.eight_le hb (by omega) hb' (by omega) hne hle
    unfold byteOffset bufSizeInBytes at height
    rw [Nat.sub_mul]
    omega

end

/-- **For which sizes the transfers of a resync have their own bytes.** In every run, which is a first
part of the transfers, each is read and written at its mathematical offset and no two share a byte,
exactly when the last chunk of every copied grain starts below 4 GiB and the positions are at least a
transfer apart. A single chunk has its own offset just below 4 GiB. -/
theorem restartResync_ownBytes (server client : Sizes) (copied : Nat → Bool) (bitPos : Nat) :
    ((∀ run, run <+: negotiatedResync server client copied bitPos → OwnBytes server run) ↔
        FitsBelow server copied bitPos) ∧
      ∀ b c, chunkOffset (startLba server (.ofNat b) (.ofNat c)) = byteOffset server b c ↔
        byteOffset server b c < 2 ^ 32 := by
  constructor
  · constructor
    · intro hall
      exact (hall _ (List.prefix_refl _)).fitsBelow
    · intro hfits run hrun
      have hown := hfits.ownBytes client
      refine ⟨?_, ?_⟩
      · intro t ht
        exact hown.offset t (hrun.subset ht)
      · intro t ht t' ht'
        exact hown.apart t (hrun.subset ht) t' (hrun.subset ht')
  · exact chunkOffset_exact server

/-- Two grains of 8 GiB, the second copied: its chunk goes to the start of the disk. -/
theorem large_disk_wraps :
    ¬ ∀ (server client : Sizes) (copied : Nat → Bool) (bitPos : Nat),
      OwnBytes server (negotiatedResync server client copied bitPos) := by
  intro hall
  have hfits := (hall ⟨1, 2 ^ 24, 2 ^ 24⟩ ⟨1, 2 ^ 24, 2 ^ 24⟩ (fun b => b == 1) 0).fitsBelow
  have hbelow := hfits.below 1 ⟨by decide, by decide, by decide⟩ (by decide)
  revert hbelow
  decide

end Windows

end Ebdr
