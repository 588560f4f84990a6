import Ebdr.Daemon.Objects
import Ebdr.Kernel.Ioctl

/-!
# The server: metadata rounds

One `send_recv` thread serves each partner `p`. A `BITMAP_METADATA` request runs `get_bitmap`
(`bitmap_server_create`, `server_bitmap_load_from_memory`, the send), an `RPLC_TERMINATION` runs
`terminate` with its `bitmap_server_destroy`. Threads interleave between ioctls, stores to the shared
`ioctl_obj` and single words of the copy and of the clear, so a thread has a program counter
(`Phase`) and `run p` is its next step. Partner `p` is served from device `p + 1`, whose area the
daemon has mapped: `active_bitmap` is its first half, `active_bitmap_backup` its second.

The control thread runs the `create` and `set grain` commands, which store into the same
`ioctl_obj`. `restart` is a crash of the daemon and its start from the database: its memory is
rebuilt, the kernel and the areas stay.
-/

namespace Ebdr

open ByteMem

/-- `enum ebdr_bitmap_state`. -/
inductive UbitmapState where
  | init
  | updating
  | ready
  | completed
  | free
  deriving DecidableEq, Repr

/-- `struct ebdr_user_bitmap`, as `bitmap_server_obj[pid]`. -/
structure UserBitmap where
  bitmapArea : Mem
  bitmapSize : Nat
  bmapUser : BmapUser
  bitmapState : UbitmapState

/-- The mapped area of a source disk in `ebdr_disk_src_obj[pid]`. -/
structure SrcDisk where
  /-- The size of a half, in bytes. -/
  bitmapSize : Nat
  area : Nat
  deriving DecidableEq, Repr

/-- Where `active_bitmap` or `active_bitmap_backup` begins in the area. -/
def SrcDisk.off (d : SrcDisk) : Half → Nat
  | .first => 0
  | .second => d.bitmapSize

/-- The half that `ubitmap->bmap_user` marks for the copy and for the clear. -/
def BmapUser.marked (u : BmapUser) : Half := u.half.other

/-- The value of `ubitmap->bmap_user` that marks a half. -/
def Half.mark : Half → BmapUser
  | .first => .user
  | .second => .kernel

@[simp] theorem Half.marked_mark (h : Half) : h.mark.marked = h := by cases h <;> rfl

/-- Where the thread of a partner stands. -/
inductive Phase where
  | idle
  | created
  | indexed
  | gotUser (u : BmapUser)
  /-- `k` words of the half are copied; `flip` tells the two branches apart. -/
  | copying (half : Half) (k : Nat) (flip : Bool)
  | loaded
  | clearing (half : Half) (k : Nat)
  deriving DecidableEq, Repr

/-- The request has its index and has not taken its branch. -/
def Phase.beforeBranch : Phase → Bool
  | .indexed | .gotUser _ => true
  | _ => false

/-- Where the control thread stands. `is_disk_created` keeps its copy of `ioctl_obj` over the search. -/
inductive ControlPhase where
  | idle
  | createStored
  | saved (tmp : Ioctl)
  | searched (tmp : Ioctl) (found : Bool)
  | restored (found : Bool)
  | grainStored
  deriving DecidableEq, Repr

/-- The daemon's shared state, with the kernel under it. -/
structure Server where
  kernel : Kernel
  ioctlObj : Ioctl
  srcDisk : Nat → Option SrcDisk
  /-- `none` before the first `bitmap_server_create`: the operations are `NULL`. -/
  ubitmap : Nat → Option UserBitmap
  recoveryMode : Nat → Bool
  connState : Nat → ConnObjState
  partnerState : Nat → PartnerObjState
  phase : Nat → Phase
  dsCount : Nat
  control : ControlPhase

namespace Server

def setPhase (s : Server) (p : Nat) (ph : Phase) : Server :=
  { s with phase := Function.update s.phase p ph }

def setUbitmap (s : Server) (p : Nat) (ub : UserBitmap) : Server :=
  { s with ubitmap := Function.update s.ubitmap p (some ub) }

/-- The test of `server_bitmap_load_from_memory` for the branch with a flip. -/
def Normal (s : Server) (p : Nat) : Prop :=
  s.recoveryMode p = false ∧ s.connState p ≠ .resume

instance (s : Server) (p : Nat) : Decidable (s.Normal p) := inferInstanceAs (Decidable (_ ∧ _))

/-! ### Requests -/

/-- `bitmap_server_create`. -/
def bitmapServerCreate : UserBitmap :=
  { bitmapArea := fun _ => 0, bitmapSize := bitmapSizeMax, bmapUser := .kernel, bitmapState := .init }

/-- A `BITMAP_METADATA` header arrives: the start of `get_bitmap`. -/
def getBitmap (s : Server) (p : Nat) : Option Server :=
  if s.phase p = .idle then
    let st := if s.partnerState p = .released then .inUse else s.partnerState p
    some (({ s with partnerState := Function.update s.partnerState p st }.setUbitmap p
      bitmapServerCreate).setPhase p .created)
  else none

/-- An `RPLC_TERMINATION` header arrives: `terminate` up to the clear. -/
def terminate (s : Server) (p : Nat) : Option Server :=
  if s.phase p = .idle then
    if s.partnerState p = .released then some s
    else (s.ubitmap p).map fun ub => s.setPhase p (.clearing ub.bmapUser.marked 0)
  else none

/-! ### The steps of a request -/

/-- Choose the half to copy: record it in `ubitmap->bmap_user` and in `ioctl_obj.bmap_user`. -/
def chooseHalf (s : Server) (p : Nat) (ub : UserBitmap) (size : Nat) (h : Half) (flip : Bool) :
    Server :=
  ({ s with ioctlObj := { s.ioctlObj with bmapUser := h.mark } }.setUbitmap p
    { ub with bitmapSize := size, bmapUser := h.mark }).setPhase p (.copying h 0 flip)

/-- The half that the branch without a flip copies: the first one if its first word is not zero. -/
def reentryHalf (m : Mem) : Half := if loadLE m 0 8 ≠ 0 then .first else .second

/-- The branch of `server_bitmap_load_from_memory`. -/
def choose (s : Server) (p : Nat) (u : BmapUser) (ub : UserBitmap) (d : SrcDisk) : Server :=
  if s.Normal p then s.chooseHalf p ub d.bitmapSize u.half true
  else
    { s with connState := Function.update s.connState p .inUse }.chooseHalf p ub d.bitmapSize
      (reentryHalf (s.kernel.mem d.area)) false

/-- One word of `ebdr_copy_mmaped_bitmap`, and after the last one the flip. -/
def copyStep (s : Server) (p : Nat) (ub : UserBitmap) (d : SrcDisk) (h : Half) (k : Nat)
    (flip : Bool) : Option Server :=
  if k < ub.bitmapSize / 8 then
    -- `bitmap_area` has `BITMAP_SIZE` bytes
    if 8 * (k + 1) ≤ bitmapSizeMax then
      some ((s.setUbitmap p
        { ub with bitmapArea :=
            copyWord 8 ub.bitmapArea (8 * k) (s.kernel.mem d.area) (d.off h + 8 * k) }).setPhase p
        (.copying h (k + 1) flip))
    else none
  else if flip = true then
    (s.kernel.flipBitmapArea s.ioctlObj.index).map fun k' =>
      ({ s with kernel := k' }.setUbitmap p { ub with bitmapState := .ready }).setPhase p .loaded
  else some ((s.setUbitmap p { ub with bitmapState := .ready }).setPhase p .loaded)

/-- One word of `ebdr_clear_active_bitmap`, and after the last one the end of `terminate`. -/
def clearStep (s : Server) (p : Nat) (d : SrcDisk) (h : Half) (k : Nat) : Server :=
  if k < d.bitmapSize / 8 then
    let m := storeLE (s.kernel.mem d.area) (d.off h + 8 * k) 8 0
    { s with kernel := s.kernel.setMem d.area m }.setPhase p (.clearing h (k + 1))
  else
    { s with
      recoveryMode := Function.update s.recoveryMode p false
      partnerState := Function.update s.partnerState p .released }.setPhase p .idle

/-- The next step of the thread of partner `p`. -/
def runThread (s : Server) (p : Nat) : Option Server :=
  match s.phase p with
  | .idle => none
  | .created =>
    some ({ s with ioctlObj := { s.ioctlObj with index := p + 1 } }.setPhase p .indexed)
  | .indexed => (s.kernel.getUser s.ioctlObj.index).map fun u => s.setPhase p (.gotUser u)
  | .gotUser u => (s.ubitmap p).bind fun ub => (s.srcDisk p).map fun d => s.choose p u ub d
  | .copying h k flip =>
    (s.ubitmap p).bind fun ub => (s.srcDisk p).bind fun d => s.copyStep p ub d h k flip
  | .loaded =>
    -- `do_ebdr_conn_send` of `bitmap_area`
    some (s.setPhase p .idle)
  | .clearing h k => (s.srcDisk p).map fun d => s.clearStep p d h k

/-! ### The control thread -/

/-- Steps of the control thread: it reads a command, or goes on with the one it has. -/
inductive ControlEvent where
  | create (disk : List UInt8) (grainSize bitmapSize : Nat)
  | setGrain (grainSize bitmapSize : Nat)
  | next (env : CreateEnv)
  deriving DecidableEq, Repr

/-- The result of `EBDRCTL_BLKDEV_SEARCH`, an `int` over the first bytes of the record. -/
def storeFound (o : Ioctl) (found : Bool) : Ioctl :=
  { o with srcDisk := [if found then 1 else 0, 0, 0, 0] ++ o.srcDisk.drop 4 }

/-- `disk_source_create` with `disk_source_mmap` after a `EBDRCTL_DEV_CREATE`; a failed mapping stops
the daemon, and `memory_fd` has 5 entries. -/
def diskSourceCreate (s : Server) (k' : Kernel) : Option Server :=
  if s.dsCount < 5 then
    (k'.vmallocArea (s.dsCount + 1)).bind fun area =>
      if 2 * s.ioctlObj.uBitmapSize ≤ k'.areaBytes area then
        some { s with
          kernel := k'
          srcDisk := Function.update s.srcDisk s.dsCount (some ⟨s.ioctlObj.uBitmapSize, area⟩)
          dsCount := s.dsCount + 1
          control := .idle }
      else none
  else none

def runControl (s : Server) (e : ControlEvent) : Option Server :=
  match s.control, e with
  | .idle, .create disk g n =>
    some { s with
      ioctlObj := { s.ioctlObj with srcDisk := disk, uGrainSize := g, uBitmapSize := n }
      control := .createStored }
  | .idle, .setGrain g n =>
    some { s with
      ioctlObj := { s.ioctlObj with uGrainSize := g, uBitmapSize := n }
      control := .grainStored }
  | .createStored, .next _ => some { s with control := .saved s.ioctlObj }
  | .saved tmp, .next _ =>
    let found := s.kernel.blkdevSearch s.ioctlObj.srcDisk
    some { s with ioctlObj := storeFound s.ioctlObj found, control := .searched tmp found }
  | .searched tmp found, .next _ => some { s with ioctlObj := tmp, control := .restored found }
  | .restored found, .next env =>
    if found = true then some { s with control := .idle }
    else (s.kernel.devCreate s.ioctlObj env).bind fun r => s.diskSourceCreate r.1
  | .grainStored, .next _ =>
    (s.kernel.setGrainSize s.ioctlObj).map fun k' => { s with kernel := k', control := .idle }
  | _, _ => none

/-! ### The system -/

/-- The partner has a row that the `SELECT` of `retrieve_from_partner` returns. -/
def Live (s : Server) (p : Nat) : Prop := s.partnerState p ≠ .free ∧ s.partnerState p ≠ .released

instance (s : Server) (p : Nat) : Decidable (s.Live p) := inferInstanceAs (Decidable (_ ∧ _))

/-- The start of the daemon from the database: `recovery_mode` for every partner row that is not
released, a new user bitmap for every disk row. A start that finds a disk without such a partner
waits for its own lock (`ServerProcess.dbInit_cases`); the runs here have these starts too. In the
others every slot with a disk gets a live state, whichever row is read into it. -/
def restart (s : Server) : Server :=
  { s with
    ioctlObj := ⟨List.replicate 64 0, 0, 0, .kernel, 0⟩
    ubitmap := fun p => (s.srcDisk p).map fun _ => bitmapServerCreate
    recoveryMode := fun p => decide (s.Live p)
    connState := fun _ => .inUse
    partnerState := fun p => if s.Live p then s.partnerState p else .free
    phase := fun _ => .idle
    control := .idle }

/-- The daemon before its first command, on a fresh module. -/
def boot : Server where
  kernel := Kernel.init
  ioctlObj := ⟨List.replicate 64 0, 0, 0, .kernel, 0⟩
  srcDisk := fun _ => none
  ubitmap := fun _ => none
  recoveryMode := fun _ => false
  connState := fun _ => .inUse
  partnerState := fun _ => .free
  phase := fun _ => .idle
  dsCount := 0
  control := .idle

inductive Event where
  | write (i : Nat) (bio : Bio)
  | recvMetadata (p : Nat)
  | recvTerminate (p : Nat)
  | run (p : Nat)
  /-- A failed transfer on the data path pauses the connection. -/
  | connPause (p : Nat)
  /-- The accept loop binds a new connection to a paused slot. -/
  | connResume (p : Nat)
  /-- An accept loads a live row of the partner table into the slot `p`, whatever partner it names. -/
  | loadRow (p : Nat) (state : PartnerObjState)
  | control (e : ControlEvent)
  | restart
  deriving DecidableEq, Repr

def step (s : Server) : Event → Option Server
  | .write i bio => (ebdrMakeRequest s.kernel i bio).map fun k' => { s with kernel := k' }
  | .recvMetadata p => s.getBitmap p
  | .recvTerminate p => s.terminate p
  | .run p => s.runThread p
  | .connPause p =>
    if s.phase p = .idle then some { s with connState := Function.update s.connState p .pause }
    else none
  | .connResume p =>
    if s.connState p = .pause then
      some { s with connState := Function.update s.connState p .resume }
    else none
  | .loadRow p state =>
    if state = .released then none
    else some { s with partnerState := Function.update s.partnerState p state }
  | .control e => s.runControl e
  | .restart => some s.restart

end Server

end Ebdr
