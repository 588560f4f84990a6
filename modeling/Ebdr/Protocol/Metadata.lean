import Ebdr.Daemon.Objects
import Ebdr.Lib.ByteStream

/-!
# The metadata exchange

One `BITMAP_METADATA` request: the server copies a half of the mapped bitmap into the area it has
allocated and sends it, the client receives it. The number of bytes copied and sent is the
`bitmap_size` of the source disk, which the create command gave; the two allocations and the
client's receive have the constant `BITMAP_SIZE`. The socket calls transfer all the bytes asked for.
-/

namespace Ebdr.Metadata

open ByteMem CInt

/-! ### The server -/

/-- `bitmap_server_create`: the first `BITMAP_SIZE` bytes of the heap at the area are its own. -/
def bitmapServerCreate (heap : Mem) : Mem := copyBytes heap 0 (fun _ => 0) 0 bitmapSizeMax

/-- The first `n` passes of `ebdr_copy_mmaped_bitmap`. -/
def copyWords (dst src : Mem) : Nat → Mem
  | 0 => dst
  | n + 1 => copyWord 8 (copyWords dst src n) (8 * n) src (8 * n)

/-- What serving a request does. -/
structure Served where
  /-- The heap from the area on. -/
  area : Mem
  /-- The bytes of it that the copy has written. -/
  written : Nat
  /-- The length that `send` gets: `bitmap_size` as an `int`, and that as a `size_t`. -/
  length : Nat

/-- `get_bitmap`: the half is copied by `server_bitmap_load_from_memory`, and the area sent. -/
def getBitmap (heap half : Mem) (bitmapSize : Nat) : Served where
  area := copyWords (bitmapServerCreate heap) half (bitmapSize / 8)
  written := 8 * (bitmapSize / 8)
  length := intToUlong (toInt bitmapSize)

/-! ### The client -/

/-- `recv_data` for the bitmap; `none` while fewer bytes are there than it waits for. -/
def recvData (conn : Stream) (bitmapArea : Mem) : Option (Mem × Stream) :=
  if bitmapSizeMax ≤ conn.pending then
    some (conn.fill bitmapArea bitmapSizeMax, conn.take bitmapSizeMax)
  else none

/-! ### The exchange -/

/-- The whole bitmap is transferred and nothing else: the copy stays inside the server's area, the
client consumes exactly what is sent, its area is the half bit for bit, and whatever is sent next is
what it reads next. -/
structure Transferred (bitmapSize : Nat) (heap half bitmapArea : Mem) (conn : Stream) : Prop where
  inside : (getBitmap heap half bitmapSize).written ≤ bitmapSizeMax
  count : (getBitmap heap half bitmapSize).length = bitmapSizeMax
  received : ∃ area conn',
    recvData (conn.send (getBitmap heap half bitmapSize).area
      (getBitmap heap half bitmapSize).length) bitmapArea = some (area, conn') ∧
    (∀ b < 8 * bitmapSize, bit area b = bit half b) ∧
    ∀ reply n, (conn'.send reply n).Holds 0 reply n

theorem getBitmap_length (heap half : Mem) (bitmapSize : Nat) :
    (getBitmap heap half bitmapSize).length = intToUlong (toInt bitmapSize) := by
  simp only [getBitmap]

theorem getBitmap_written (heap half : Mem) (bitmapSize : Nat) :
    (getBitmap heap half bitmapSize).written = 8 * (bitmapSize / 8) := by
  simp only [getBitmap]

theorem bit_copyWords (dst src : Mem) (n k : Nat) :
    bit (copyWords dst src n) k = if k < 64 * n then bit src k else bit dst k := by
  induction n with
  | zero => rfl
  | succ n ih =>
    rw [copyWords, bit_copyWord, ih]
    by_cases hlast : 8 * (8 * n) ≤ k ∧ k < 8 * (8 * n + 8)
    · have hk : 8 * (8 * n) + (k - 8 * (8 * n)) = k := by omega
      rw [if_pos hlast, hk, if_pos (by omega)]
    · rw [if_neg hlast]
      by_cases hk : k < 64 * n
      · rw [if_pos hk, if_pos (by omega)]
      · rw [if_neg hk, if_neg (by omega)]

theorem transferred_of_eq {heap half bitmapArea : Mem} {conn : Stream} (hconn : conn.pending = 0) :
    Transferred bitmapSizeMax heap half bitmapArea conn := by
  have hlen : (getBitmap heap half bitmapSizeMax).length = bitmapSizeMax := by
    rw [getBitmap_length, toInt_of_lt (by decide), intToUlong_ofNat (by decide)]
  have hsent := Stream.holds_send conn (getBitmap heap half bitmapSizeMax).area bitmapSizeMax
  rw [hconn] at hsent
  refine ⟨by show 8 * (bitmapSizeMax / 8) ≤ bitmapSizeMax; decide, hlen, ?_⟩
  rw [hlen]
  have hpending : bitmapSizeMax ≤
      (conn.send (getBitmap heap half bitmapSizeMax).area bitmapSizeMax).pending :=
    Nat.le_add_left _ _
  refine ⟨_, _, if_pos hpending, ?_, ?_⟩
  · intro b hb
    have hbyte : (conn.send (getBitmap heap half bitmapSizeMax).area bitmapSizeMax).fill bitmapArea
        bitmapSizeMax (b / 8) = (getBitmap heap half bitmapSizeMax).area (b / 8) :=
      hsent.fill (b / 8) (by omega)
    have hword : b < 64 * (bitmapSizeMax / 8) := by
      have hmax : 64 * (bitmapSizeMax / 8) = 8 * bitmapSizeMax := by decide
      omega
    have hcopied := bit_copyWords (bitmapServerCreate heap) half (bitmapSizeMax / 8) b
    rw [if_pos hword] at hcopied
    rw [← hcopied, bit, hbyte]
    rfl
  · intro reply n
    have hnext := Stream.holds_send
      ((conn.send (getBitmap heap half bitmapSizeMax).area bitmapSizeMax).take bitmapSizeMax)
      reply n
    have hdrained : ((conn.send (getBitmap heap half bitmapSizeMax).area bitmapSizeMax).take
        bitmapSizeMax).pending = 0 := by
      show conn.pending + bitmapSizeMax - bitmapSizeMax = 0
      omega
    rwa [hdrained] at hnext

/-- **The whole bitmap and nothing else.** For every size given to the create command, every contents
of the half, of the heap and of the client's area, and every connection on which all earlier replies
have been received: the exchange is right exactly when the size is `BITMAP_SIZE`. -/
theorem metadata_transferred {bitmapSize : Nat} {heap half bitmapArea : Mem} {conn : Stream}
    (hconn : conn.pending = 0) :
    Transferred bitmapSize heap half bitmapArea conn ↔ bitmapSize = bitmapSizeMax := by
  constructor
  · intro h
    have hinside := h.inside
    have hcount := h.count
    rw [getBitmap_written] at hinside
    rw [getBitmap_length] at hcount
    -- what fits into the area is small enough for an `int`
    have hlt : bitmapSize < 2 ^ 31 := by
      unfold bitmapSizeMax at hinside
      omega
    rwa [toInt_of_lt hlt, intToUlong_ofNat (by omega)] at hcount
  · rintro rfl
    exact transferred_of_eq hconn

/-- On a fresh connection, with the size that the test scripts give. -/
theorem metadata_transferred_fresh :
    Transferred 16384 (fun _ => 255) (fun i => UInt8.ofNat i) (fun _ => 0) Stream.empty := by
  have hsize : 16384 = bitmapSizeMax := by decide
  have hconn : Stream.empty.pending = 0 := rfl
  exact (metadata_transferred hconn).mpr hsize

/-- Half the size: the client waits for bytes of a later reply. Twice the size: the copy writes past
the end of the server's area. -/
theorem other_sizes_fail :
    ¬ Transferred 8192 (fun _ => 0) (fun _ => 0) (fun _ => 0) Stream.empty ∧
      recvData (Stream.empty.send (getBitmap (fun _ => 0) (fun _ => 0) 8192).area
        (getBitmap (fun _ => 0) (fun _ => 0) 8192).length) (fun _ => 0) = none ∧
      ¬ Transferred 32768 (fun _ => 0) (fun _ => 0) (fun _ => 0) Stream.empty ∧
      bitmapSizeMax < (getBitmap (fun _ => 0) (fun _ => 0) 32768).written := by
  refine ⟨?_, ?_, ?_, by decide⟩
  · intro h
    have hsize : (8192 : Nat) = bitmapSizeMax := by
      have hcount := h.count
      rwa [getBitmap_length, toInt_of_lt (by decide), intToUlong_ofNat (by decide)] at hcount
    exact absurd hsize (by decide)
  · exact if_neg (by decide)
  · intro h
    exact absurd h.inside (by decide)

end Ebdr.Metadata
