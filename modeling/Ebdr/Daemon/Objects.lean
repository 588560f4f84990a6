import Ebdr.Lib.CInt

/-!
# What the two builds of the daemon share

The states of the objects, and the geometry of a replication header: `grain_size` and `chunk_size`
in sectors, from which both sides compute where a chunk lives.
-/

namespace Ebdr

open CInt

/-- `BITMAP_SIZE`, the bytes of a user bitmap. -/
def bitmapSizeMax : Nat := 4 * 4096

/-- `MAX_BITS_LEN`, the bits of a user bitmap. -/
def maxBitsLen : Nat := 4 * 4096 * 8

/-- `MAX_PARTNERS`, `MAX_RELATIONS` and `MAX_DISKS`. -/
def maxPartners : Nat := 2048

/-- `enum ebdr_conn_obj_state_t`. -/
inductive ConnObjState where
  | inUse
  | pause
  | resume
  | released
  deriving DecidableEq, Repr

/-- `enum partner_obj_state_t`. -/
inductive PartnerObjState where
  | free
  | inUse
  | released
  | pause
  | recovery
  | resume
  deriving DecidableEq, Repr

/-- `enum disk_obj_state_t`. -/
inductive DiskObjState where
  | free
  | inUse
  | pause
  | resume
  | released
  deriving DecidableEq, Repr

/-- `enum rel_obj_state_t`. -/
inductive RelationObjState where
  | free
  | inUse
  | released
  deriving DecidableEq, Repr

/-- `enum rep_state_t`. -/
inductive RepState where
  | inProgress
  | pause
  | resume
  | completed
  deriving DecidableEq, Repr

/-- `enum io_state_t`. -/
inductive IoObjState where
  | free
  | inUse
  | released
  deriving DecidableEq, Repr

/-- The sizes of a replication header, in sectors (`unsigned long`). -/
structure Geometry where
  grainSize : Nat
  chunkSize : Nat
  deriving DecidableEq, Repr

namespace Geometry

/-- `start_lba` of a chunk: `curr_pos * grain_size + chunk_pos * chunk_size`. -/
def startLba (g : Geometry) (currPos chunkPos : Nat) : Nat :=
  ulong (currPos * g.grainSize + chunkPos * g.chunkSize)

/-- `total_iterations`, the quotient as an `int`. -/
def totalIterations (g : Geometry) : Int := toInt (g.grainSize / g.chunkSize)

/-- The bound of the chunk loop, whose counter is an `unsigned long`. -/
def loopBound (g : Geometry) : Nat := intToUlong g.totalIterations

theorem loopBound_of_lt {g : Geometry} (h : g.grainSize / g.chunkSize < 2 ^ 31) :
    g.loopBound = g.grainSize / g.chunkSize := by
  unfold loopBound totalIterations
  rw [toInt_of_lt h, intToUlong_ofNat (by omega)]

end Geometry

end Ebdr
