import Ebdr.Daemon.Objects
import Ebdr.Lib.ByteMemory
import Mathlib

/-!
# The client: resync threads

The client side of one partner `pid`, after its relation was made: the control thread with the
commands `metadata`, `resync`, `pause` and `resume`, the recovery thread, and the resync threads they
start. A thread runs `restart_resync` over the bitmap received last; its program counter is a
`Phase`, and `run tid ok` is its next step, where `ok` is the result of the I/O call the step makes,
if it makes one.

`resync_tid[pid]` and `thread_params[pid]` have one entry for a partner, whatever the number of
threads. A cancelled thread ends at a cancellation point (`endCancelled`), at the latest where it
would send, receive or write.
-/

namespace Ebdr

open ByteMem CInt

/-- The opcodes the client puts into its header object. -/
inductive Opcode where
  | ack
  | bitmapMetadata
  | data
  | rplcTermination
  deriving DecidableEq, Repr

/-- The fields of `replic_hdr_client_obj[pid]` that change after the negotiation. -/
structure ClientHeader where
  opcode : Opcode
  currPos : Nat
  chunkPos : Nat
  deriving DecidableEq, Repr

/-- `bitmap_client_obj[pid].bitmap_area`; unallocated means that
`ebdr_disk_target_obj[pid].bitmap` is still `NULL`. -/
inductive BitmapArea where
  | unallocated
  | allocated (m : Mem)
  | freed

/-- Where a resync thread stands. -/
inductive ResyncPhase where
  | created
  /-- At the test of the `while` loop and `is_bit_set`. -/
  | test (pos : Nat)
  /-- At the test of the `for` loop. -/
  | chunk (pos chunkId : Nat)
  | send (pos chunkId : Nat)
  | recv (pos chunkId : Nat)
  | write (pos chunkId : Nat)
  /-- A send or receive failed, the socket is closed; sleeping. -/
  | connLost
  /-- Before `last_resynced_bit` is stored. -/
  | record (pos : Nat)
  /-- After the `while` loop. -/
  | loopEnd
  /-- In `replication_terminate`. -/
  | terminate
  | resetBit
  | sendTermination
  | release
  deriving DecidableEq, Repr

/-- A resync thread. -/
structure ResyncThread where
  phase : ResyncPhase
  /-- `pthread_cancel` was called on it. -/
  cancelled : Bool
  deriving DecidableEq, Repr

/-- What the client did since a bitmap was received. This is no data of the program. -/
structure History where
  /-- The bitmap received last. -/
  received : Mem
  /-- The `start_lba`s written since then. -/
  written : List Nat
  /-- `last_resynced_bit` was stored since then. -/
  recorded : Bool

/-- The client's state for one partner. -/
structure Client where
  header : ClientHeader
  bitmapArea : BitmapArea
  partnerState : PartnerObjState
  repState : RepState
  diskState : DiskObjState
  connState : ConnObjState
  ioState : IoObjState
  /-- `all_partner_clients[pid].socket_fd` is a connected socket. -/
  socketUp : Bool
  lastResyncedBit : Nat
  recoveryMode : Bool
  /-- `thread_params[pid].bit_pos`. -/
  bitPos : Nat
  /-- `resync_tid[pid]`. -/
  resyncTid : Nat
  thread : Nat → Option ResyncThread
  nextTid : Nat
  /-- The control thread waits for the bitmap. -/
  awaiting : Bool
  history : History

namespace Client

/-- `test_bit` of `atdr_bitmap_server.c`. -/
def testBit (nr : Nat) (addr : Mem) : Bool :=
  decide ((loadLE addr (4 * (nr >>> 5)) 4 >>> (nr &&& 31)) &&& 1 = 1)

/-- `is_bit_set`; `none` is a failed assertion. -/
def isBitSet (m : Mem) (pos : Int) : Option Bool :=
  if pos < maxBitsLen then some (testBit (intToUlong pos) m) else none

/-! ### Threads -/

def setPhase (s : Client) (tid : Nat) (ph : ResyncPhase) : Client :=
  { s with
    thread := Function.update s.thread tid
      ((s.thread tid).map fun th => { th with phase := ph }) }

def endThread (s : Client) (tid : Nat) : Client :=
  { s with thread := Function.update s.thread tid none }

/-- `pthread_cancel(resync_tid[pid])`. -/
def cancel (s : Client) : Client :=
  { s with
    thread := Function.update s.thread s.resyncTid
      ((s.thread s.resyncTid).map fun th => { th with cancelled := true }) }

/-- `resync_init`. -/
def resyncInit (s : Client) (bitPos : Nat) : Client :=
  { s with
    ioState := .inUse
    bitPos := bitPos
    resyncTid := s.nextTid
    thread := Function.update s.thread s.nextTid (some ⟨.created, false⟩)
    nextTid := s.nextTid + 1 }

/-! ### The steps of `restart_resync` -/

/-- The start of a thread: `resync_handler` reads its parameters, `restart_resync` begins. -/
def start (g : Geometry) (s : Client) (tid : Nat) : Option Client :=
  if g.chunkSize = 0 then none
  else
    let s := { s with header := { s.header with opcode := .data } }
    let s :=
      if s.recoveryMode = true then { s with recoveryMode := false }
      else if s.bitPos = 0 then { s with repState := .inProgress }
      else s
    some (s.setPhase tid (.test s.bitPos))

/-- The test of the `while` loop, and of the bit. -/
def testPos (s : Client) (tid pos : Nat) : Option Client :=
  if pos < bitmapSizeMax * 8 ∧ s.partnerState ≠ .pause then
    match s.bitmapArea with
    | .allocated m =>
      (isBitSet m (toInt pos)).map fun b =>
        s.setPhase tid (if b = true then .chunk pos 0 else .record pos)
    | .unallocated | .freed => none
  else
    match s.bitmapArea with
    | .unallocated => none
    | .allocated _ | .freed => some (s.setPhase tid .loopEnd)

/-- The test of the `for` loop, the header of the chunk, and the checks before it is sent. -/
def nextChunk (g : Geometry) (s : Client) (tid pos chunkId : Nat) : Client :=
  if chunkId < g.loopBound then
    let s := { s with header := ⟨.data, pos, chunkId⟩ }
    if s.partnerState = .pause then s.setPhase tid (.record pos)
    else if s.ioState = .released then s.endThread tid
    else s.setPhase tid (.send pos chunkId)
  else s.setPhase tid (.record pos)

/-- A send or a receive; one that fails closes the socket. -/
def transfer (s : Client) (tid : Nat) (ok : Bool) (next : ResyncPhase) : Option Client :=
  if ok = true then if s.socketUp = true then some (s.setPhase tid next) else none
  else some ({ s with socketUp := false }.setPhase tid .connLost)

/-- `chunk_write`; a failure pauses the disk and cancels the thread in `resync_tid[pid]`. -/
def writeChunk (g : Geometry) (s : Client) (tid pos chunkId : Nat) (ok : Bool) : Client :=
  if ok = true then
    let written := g.startLba pos chunkId :: s.history.written
    { s with history := { s.history with written := written } }.setPhase tid
      (.chunk pos (chunkId + 1))
  else ({ s with diskState := .pause } : Client).cancel.setPhase tid (.chunk pos (chunkId + 1))

/-- The end of `replication_terminate`. -/
def release (s : Client) (tid : Nat) : Option Client :=
  match s.bitmapArea with
  | .allocated _ =>
    some ({ s with
      partnerState := .released
      diskState := .released
      ioState := .released
      repState := .completed
      bitmapArea := .freed }.endThread tid)
  -- a second `free` of the area
  | .unallocated | .freed => none

/-- The next step of a thread. -/
def runThread (g : Geometry) (s : Client) (tid : Nat) (ok : Bool) : Option Client :=
  (s.thread tid).bind fun th =>
    match th.phase with
    | .created => s.start g tid
    | .test pos => s.testPos tid pos
    | .chunk pos chunkId => some (s.nextChunk g tid pos chunkId)
    | .send pos chunkId =>
      if th.cancelled = true then none else s.transfer tid ok (.recv pos chunkId)
    | .recv pos chunkId =>
      if th.cancelled = true then none else s.transfer tid ok (.write pos chunkId)
    | .write pos chunkId =>
      if th.cancelled = true then none else some (s.writeChunk g tid pos chunkId ok)
    | .connLost => some ({ s with connState := .pause }.endThread tid)
    | .record pos =>
      some ({ s with
        lastResyncedBit := pos
        history := { s.history with recorded := true } }.setPhase tid (.test (pos + 1)))
    | .loopEnd =>
      some ((if s.partnerState = .pause then s.cancel else s).setPhase tid .terminate)
    | .terminate =>
      if s.repState ≠ .completed then
        some ({ s with header := { s.header with opcode := .rplcTermination } }.setPhase tid
          .resetBit)
      else some (s.endThread tid)
    | .resetBit =>
      let last := if s.partnerState ≠ .pause then 0 else s.lastResyncedBit
      some ({ s with lastResyncedBit := last }.setPhase tid .sendTermination)
    | .sendTermination =>
      -- the result of this send is not looked at
      if th.cancelled = true then none else some (s.setPhase tid .release)
    | .release => s.release tid

/-- A cancelled thread ends. -/
def endCancelled (s : Client) (tid : Nat) : Option Client :=
  (s.thread tid).bind fun th => if th.cancelled = true then some (s.endThread tid) else none

/-! ### Commands and recovery -/

/-- The `metadata` command up to its receive: `request_server_for_metadata`. -/
def requestMetadata (s : Client) : Client :=
  let s :=
    if s.partnerState = .released then { s with partnerState := .inUse, diskState := .inUse }
    else s
  { s with
    bitmapArea := .allocated fun _ => 0
    header := { s.header with opcode := .bitmapMetadata }
    awaiting := true }

/-- The bitmap arrives: the contents of the area after the receive. -/
def receiveBitmap (s : Client) (m : Mem) : Option Client :=
  if s.awaiting = true then
    match s.bitmapArea with
    | .allocated _ =>
      some { s with bitmapArea := .allocated m, awaiting := false, history := ⟨m, [], false⟩ }
    | .unallocated | .freed => none
  else none

/-- The `pause` command. -/
def pauseCommand (s : Client) : Client :=
  if s.lastResyncedBit = 0 then s else { s with partnerState := .pause, repState := .pause }

/-- The `resume` command. -/
def resumeCommand (s : Client) : Client :=
  if s.repState = .completed then s
  else { s with partnerState := .resume, repState := .resume }.resyncInit s.lastResyncedBit

/-- `recovery_disk_client` with `restart_disk`. It opens the disk `i` of the target objects with an `i`
that was never set; here that is the partner's own disk, and it can be opened. -/
def recoveryDiskClient (s : Client) : Client :=
  if s.diskState = .pause then { s with diskState := .resume }.resyncInit s.lastResyncedBit else s

/-- `recovery_conn_client` with `restart_conn_client`. -/
def recoveryConnClient (s : Client) : Client :=
  if s.connState = .pause then
    { s with connState := .resume, socketUp := true }.resyncInit s.lastResyncedBit
  else s

/-! ### The system -/

/-- The client after the relation was made. -/
def boot : Client where
  header := ⟨.ack, 0, 0⟩
  bitmapArea := .unallocated
  partnerState := .inUse
  repState := .inProgress
  diskState := .inUse
  connState := .inUse
  ioState := .inUse
  socketUp := true
  lastResyncedBit := 0
  recoveryMode := false
  bitPos := 0
  resyncTid := 0
  thread := fun _ => none
  nextTid := 0
  awaiting := false
  history := ⟨fun _ => 0, [], false⟩

inductive Event where
  | metadata
  | bitmap (m : Mem)
  | resync
  | pause
  | resume
  | recoveryDisk
  | recoveryConn
  | run (tid : Nat) (ok : Bool)
  | endCancelled (tid : Nat)

/-- The control thread takes no command while it waits for a bitmap. -/
def command (s : Client) (s' : Client) : Option Client := if s.awaiting = true then none else some s'

def step (g : Geometry) (s : Client) : Event → Option Client
  | .metadata => s.command s.requestMetadata
  | .bitmap m => s.receiveBitmap m
  | .resync => s.command (s.resyncInit 0)
  | .pause => s.command s.pauseCommand
  | .resume => s.command s.resumeCommand
  | .recoveryDisk => some s.recoveryDiskClient
  | .recoveryConn => some s.recoveryConnClient
  | .run tid ok => s.runThread g tid ok
  | .endCancelled tid => s.endCancelled tid

/-- Where the event starts a thread. -/
def launches (s : Client) : Event → Option Nat
  | .resync => if s.awaiting = true then none else some 0
  | .resume =>
    if s.awaiting = true ∨ s.repState = .completed then none else some s.lastResyncedBit
  | .recoveryDisk => if s.diskState = .pause then some s.lastResyncedBit else none
  | .recoveryConn => if s.connState = .pause then some s.lastResyncedBit else none
  | .metadata | .bitmap _ | .pause | .run _ _ | .endCancelled _ => none

/-! ### Lemmas beside the definitions -/

/-- The bit that `is_bit_set` reads is the bit the kernel sets: the word size does not show. -/
theorem testBit_eq_bit (m : Mem) (nr : Nat) : testBit nr m = bit m nr := by
  have hand : nr &&& 31 = nr % 32 := Nat.and_two_pow_sub_one_eq_mod nr 5
  have hshift : nr >>> 5 = nr / 32 := Nat.shiftRight_eq_div_pow nr 5
  have hpos : 8 * (4 * (nr / 32)) + nr % 32 = nr := by omega
  have hlt : nr % 32 < 8 * 4 := by omega
  have hbit : testBit nr m = (loadLE m (4 * (nr / 32)) 4).testBit (nr % 32) := by
    rw [testBit, hand, hshift, Nat.testBit, Nat.and_one_is_mod, Nat.one_and_eq_mod_two]
    rcases Nat.mod_two_eq_zero_or_one (loadLE m (4 * (nr / 32)) 4 >>> (nr % 32)) with h | h <;>
      simp [h]
  rw [hbit, testBit_loadLE, hpos, decide_eq_true hlt, Bool.true_and]

theorem isBitSet_of_lt {m : Mem} {pos : Nat} (h : pos < bitmapSizeMax * 8) :
    isBitSet m (toInt pos) = some (bit m pos) := by
  unfold bitmapSizeMax at h
  have hmax : (pos : Int) < maxBitsLen := by
    unfold maxBitsLen
    omega
  rw [toInt_of_lt (by omega), isBitSet, if_pos hmax, intToUlong_ofNat (by omega), testBit_eq_bit]

@[simp] theorem setPhase_thread_self (s : Client) (tid : Nat) (ph : ResyncPhase) :
    (s.setPhase tid ph).thread tid = (s.thread tid).map fun th => { th with phase := ph } := by
  simp [setPhase]

/-! ### What a step can do -/

/-- What one step of the thread `tid` in a phase can do, with the values it reads; `x` says whether
the thread was cancelled. -/
inductive ThreadStep (g : Geometry) (s : Client) (tid : Nat) (ok x : Bool) :
    ResyncPhase → Client → Prop where
  | start (hg : g.chunkSize ≠ 0) {rec : Bool} {rep : RepState}
      (hrep : rep = s.repState ∨ rep = .inProgress) :
    ThreadStep g s tid ok x .created ({ s with
      header := { s.header with opcode := .data }
      recoveryMode := rec
      repState := rep }.setPhase tid (.test s.bitPos))
  | look {pos : Nat} (hpos : pos < bitmapSizeMax * 8) (hrun : s.partnerState ≠ .pause) {m : Mem}
      (harea : s.bitmapArea = .allocated m) :
    ThreadStep g s tid ok x (.test pos)
      (s.setPhase tid (if bit m pos = true then .chunk pos 0 else .record pos))
  | leave {pos : Nat} (hend : ¬ (pos < bitmapSizeMax * 8 ∧ s.partnerState ≠ .pause))
      (harea : s.bitmapArea ≠ .unallocated) :
    ThreadStep g s tid ok x (.test pos) (s.setPhase tid .loopEnd)
  | chunk {pos c : Nat} (hc : c < g.loopBound) (hrun : s.partnerState ≠ .pause)
      (hio : s.ioState ≠ .released) :
    ThreadStep g s tid ok x (.chunk pos c)
      ({ s with header := ⟨.data, pos, c⟩ }.setPhase tid (.send pos c))
  | chunkPaused {pos c : Nat} (hc : c < g.loopBound) (hpause : s.partnerState = .pause) :
    ThreadStep g s tid ok x (.chunk pos c)
      ({ s with header := ⟨.data, pos, c⟩ }.setPhase tid (.record pos))
  | chunkReleased {pos c : Nat} (hc : c < g.loopBound) (hrun : s.partnerState ≠ .pause)
      (hio : s.ioState = .released) :
    ThreadStep g s tid ok x (.chunk pos c) ({ s with header := ⟨.data, pos, c⟩ }.endThread tid)
  | chunkEnd {pos c : Nat} (hc : g.loopBound ≤ c) :
    ThreadStep g s tid ok x (.chunk pos c) (s.setPhase tid (.record pos))
  | sent {pos c : Nat} (hx : x = false) (hok : ok = true) (hup : s.socketUp = true) :
    ThreadStep g s tid ok x (.send pos c) (s.setPhase tid (.recv pos c))
  | received {pos c : Nat} (hx : x = false) (hok : ok = true) (hup : s.socketUp = true) :
    ThreadStep g s tid ok x (.recv pos c) (s.setPhase tid (.write pos c))
  | sendLost {pos c : Nat} (hx : x = false) (hok : ok = false) :
    ThreadStep g s tid ok x (.send pos c) ({ s with socketUp := false }.setPhase tid .connLost)
  | recvLost {pos c : Nat} (hx : x = false) (hok : ok = false) :
    ThreadStep g s tid ok x (.recv pos c) ({ s with socketUp := false }.setPhase tid .connLost)
  | written {pos c : Nat} (hx : x = false) (hok : ok = true) :
    ThreadStep g s tid ok x (.write pos c) ({ s with
      history := { s.history with
        written := g.startLba pos c :: s.history.written } }.setPhase tid (.chunk pos (c + 1)))
  | writeFailed {pos c : Nat} (hx : x = false) (hok : ok = false) :
    ThreadStep g s tid ok x (.write pos c)
      (({ s with diskState := .pause } : Client).cancel.setPhase tid (.chunk pos (c + 1)))
  | connLost : ThreadStep g s tid ok x .connLost ({ s with connState := .pause }.endThread tid)
  | record {pos : Nat} :
    ThreadStep g s tid ok x (.record pos) ({ s with
      lastResyncedBit := pos
      history := { s.history with recorded := true } }.setPhase tid (.test (pos + 1)))
  | loopPaused (hpause : s.partnerState = .pause) :
    ThreadStep g s tid ok x .loopEnd (s.cancel.setPhase tid .terminate)
  | loopEnd (hrun : s.partnerState ≠ .pause) :
    ThreadStep g s tid ok x .loopEnd (s.setPhase tid .terminate)
  | terminate (hrep : s.repState ≠ .completed) :
    ThreadStep g s tid ok x .terminate
      ({ s with header := { s.header with opcode := .rplcTermination } }.setPhase tid .resetBit)
  | completed (hrep : s.repState = .completed) :
    ThreadStep g s tid ok x .terminate (s.endThread tid)
  | resetBit {last : Nat} (hlast : last = 0 ∨ last = s.lastResyncedBit) :
    ThreadStep g s tid ok x .resetBit
      ({ s with lastResyncedBit := last }.setPhase tid .sendTermination)
  | sendTermination (hx : x = false) :
    ThreadStep g s tid ok x .sendTermination (s.setPhase tid .release)
  | release {m : Mem} (harea : s.bitmapArea = .allocated m) :
    ThreadStep g s tid ok x .release ({ s with
      partnerState := .released
      diskState := .released
      ioState := .released
      repState := .completed
      bitmapArea := .freed }.endThread tid)

/-- What one step of the client can do. A command or a recovery pass may find nothing to do. -/
inductive StepCase (g : Geometry) (s : Client) : Event → Client → Prop where
  | metadata (haw : s.awaiting = false) : StepCase g s .metadata s.requestMetadata
  | bitmap {m m' : Mem} (haw : s.awaiting = true) (harea : s.bitmapArea = .allocated m') :
    StepCase g s (.bitmap m)
      { s with bitmapArea := .allocated m, awaiting := false, history := ⟨m, [], false⟩ }
  | pause (haw : s.awaiting = false) (hbit : s.lastResyncedBit ≠ 0) :
    StepCase g s .pause { s with partnerState := .pause, repState := .pause }
  | launch {e : Event} {pos : Nat} (hl : s.launches e = some pos)
      (hpos : pos = 0 ∨ pos = s.lastResyncedBit) {partner : PartnerObjState} {rep : RepState}
      {disk : DiskObjState} {conn : ConnObjState} {up : Bool}
      (hup : up = s.socketUp ∨ e = .recoveryConn) :
    StepCase g s e ({ s with
      partnerState := partner
      repState := rep
      diskState := disk
      connState := conn
      socketUp := up }.resyncInit pos)
  | idle {e : Event} (he : e = .pause ∨ e = .resume ∨ e = .recoveryDisk ∨
      e = .recoveryConn ∧ s.connState ≠ .pause) : StepCase g s e s
  | run {tid : Nat} {ok : Bool} {s' : Client} (h : s.runThread g tid ok = some s') :
    StepCase g s (.run tid ok) s'
  | endCancelled {tid : Nat} {ph : ResyncPhase} (hth : s.thread tid = some ⟨ph, true⟩) :
    StepCase g s (.endCancelled tid) (s.endThread tid)

section

variable {g : Geometry} {s s' : Client} {tid : Nat} {ok x : Bool}

theorem threadStep_start (h : s.start g tid = some s') :
    ThreadStep g s tid ok x .created s' := by
  unfold start at h
  split at h
  · cases h
  · rename_i hg
    rw [← Option.some.inj h]
    split
    · exact .start hg (.inl rfl)
    · split
      · exact .start hg (.inr rfl)
      · exact .start hg (.inl rfl)

theorem threadStep_testPos {pos : Nat} (h : s.testPos tid pos = some s') :
    ThreadStep g s tid ok x (.test pos) s' := by
  unfold testPos at h
  split at h
  · rename_i hcond
    split at h
    · rename_i m harea
      rw [isBitSet_of_lt hcond.1, Option.map_some] at h
      rw [← Option.some.inj h]
      exact .look hcond.1 hcond.2 harea
    · cases h
    · cases h
  · rename_i hend
    split at h
    · cases h
    all_goals
      rename_i harea
      rw [← Option.some.inj h]
      exact .leave hend (by rw [harea]; simp)

theorem threadStep_nextChunk {pos c : Nat} :
    ThreadStep g s tid ok x (.chunk pos c) (s.nextChunk g tid pos c) := by
  unfold nextChunk
  split
  · rename_i hc
    dsimp only
    split
    · rename_i hpause
      exact .chunkPaused hc hpause
    · rename_i hrun
      split
      · rename_i hio
        exact .chunkReleased hc hrun hio
      · rename_i hio
        exact .chunk hc hrun hio
  · rename_i hc
    exact .chunkEnd (Nat.le_of_not_lt hc)

theorem transfer_cases {next : ResyncPhase} (h : s.transfer tid ok next = some s') :
    (ok = true ∧ s.socketUp = true ∧ s' = s.setPhase tid next) ∨
      (ok = false ∧ s' = { s with socketUp := false }.setPhase tid .connLost) := by
  unfold transfer at h
  cases ok with
  | true =>
    rw [if_pos rfl] at h
    split at h
    · rename_i hup
      exact .inl ⟨rfl, hup, (Option.some.inj h).symm⟩
    · cases h
  | false => exact .inr ⟨rfl, (Option.some.inj h).symm⟩

theorem threadStep_release (h : s.release tid = some s') :
    ThreadStep g s tid ok x .release s' := by
  unfold release at h
  split at h
  · rename_i m harea
    rw [← Option.some.inj h]
    exact .release harea
  · cases h
  · cases h

theorem threadStep_of_run {ph : ResyncPhase} (hth : s.thread tid = some ⟨ph, x⟩)
    (h : s.runThread g tid ok = some s') : ThreadStep g s tid ok x ph s' := by
  rw [runThread, hth, Option.bind_some] at h
  cases ph with
  | created => exact threadStep_start h
  | test pos => exact threadStep_testPos h
  | chunk pos c =>
    rw [← Option.some.inj h]
    exact threadStep_nextChunk
  | send pos c =>
    dsimp only at h
    split at h
    · cases h
    · rename_i hx
      rcases transfer_cases h with ⟨hok, hup, rfl⟩ | ⟨hok, rfl⟩
      · exact .sent (Bool.eq_false_of_not_eq_true hx) hok hup
      · exact .sendLost (Bool.eq_false_of_not_eq_true hx) hok
  | recv pos c =>
    dsimp only at h
    split at h
    · cases h
    · rename_i hx
      rcases transfer_cases h with ⟨hok, hup, rfl⟩ | ⟨hok, rfl⟩
      · exact .received (Bool.eq_false_of_not_eq_true hx) hok hup
      · exact .recvLost (Bool.eq_false_of_not_eq_true hx) hok
  | write pos c =>
    dsimp only at h
    split at h
    · cases h
    · rename_i hx
      rw [← Option.some.inj h]
      unfold writeChunk
      split
      · rename_i hok
        exact .written (Bool.eq_false_of_not_eq_true hx) hok
      · rename_i hok
        exact .writeFailed (Bool.eq_false_of_not_eq_true hx) (Bool.eq_false_of_not_eq_true hok)
  | connLost =>
    rw [← Option.some.inj h]
    exact .connLost
  | record pos =>
    rw [← Option.some.inj h]
    exact .record
  | loopEnd =>
    rw [← Option.some.inj h]
    split
    · rename_i hpause
      exact .loopPaused hpause
    · rename_i hrun
      exact .loopEnd hrun
  | terminate =>
    dsimp only at h
    split at h
    · rename_i hrep
      rw [← Option.some.inj h]
      exact .terminate hrep
    · rename_i hrep
      rw [← Option.some.inj h]
      exact .completed (not_not.mp hrep)
  | resetBit =>
    rw [← Option.some.inj h]
    refine .resetBit ?_
    split
    · exact .inl rfl
    · exact .inr rfl
  | sendTermination =>
    dsimp only at h
    split at h
    · cases h
    · rename_i hx
      rw [← Option.some.inj h]
      exact .sendTermination (Bool.eq_false_of_not_eq_true hx)
  | release => exact threadStep_release h

theorem command_eq_some {s1 : Client} (h : s.command s1 = some s') :
    s.awaiting = false ∧ s1 = s' := by
  unfold command at h
  split at h
  · cases h
  · rename_i haw
    exact ⟨Bool.eq_false_of_not_eq_true haw, Option.some.inj h⟩

theorem stepCase_of_step {e : Event} (h : s.step g e = some s') : StepCase g s e s' := by
  cases e with
  | metadata =>
    obtain ⟨haw, rfl⟩ := command_eq_some h
    exact .metadata haw
  | bitmap m =>
    rw [step, receiveBitmap] at h
    split at h
    · rename_i haw
      split at h
      · rename_i m' harea
        rw [← Option.some.inj h]
        exact .bitmap haw harea
      · cases h
      · cases h
    · cases h
  | resync =>
    obtain ⟨haw, rfl⟩ := command_eq_some h
    exact .launch (by simp [launches, haw]) (.inl rfl) (.inl rfl)
  | pause =>
    obtain ⟨haw, rfl⟩ := command_eq_some h
    unfold pauseCommand
    split
    · exact .idle (.inl rfl)
    · rename_i hbit
      exact .pause haw hbit
  | resume =>
    obtain ⟨haw, rfl⟩ := command_eq_some h
    unfold resumeCommand
    split
    · exact .idle (.inr (.inl rfl))
    · rename_i hrep
      exact .launch (by simp [launches, haw, hrep]) (.inr rfl) (.inl rfl)
  | recoveryDisk =>
    rw [← Option.some.inj h]
    unfold recoveryDiskClient
    split
    · rename_i hp
      exact .launch (by simp [launches, hp]) (.inr rfl) (.inl rfl)
    · exact .idle (.inr (.inr (.inl rfl)))
  | recoveryConn =>
    rw [← Option.some.inj h]
    unfold recoveryConnClient
    split
    · rename_i hp
      exact .launch (by simp [launches, hp]) (.inr rfl) (.inr rfl)
    · rename_i hp
      exact .idle (.inr (.inr (.inr ⟨rfl, hp⟩)))
  | run tid ok => exact .run h
  | endCancelled tid =>
    obtain ⟨⟨ph, x⟩, hth, h⟩ := Option.bind_eq_some_iff.mp h
    dsimp only at h
    split at h
    · rename_i hx
      rw [← Option.some.inj h]
      exact .endCancelled (hx ▸ hth)
    · cases h

end

/-! ### One thread at a time -/

/-- A thread is started when none is running. -/
def OneThread (s : Client) (e : Event) : Prop :=
  s.launches e ≠ none → ∀ t < s.nextTid, s.thread t = none

instance (s : Client) (e : Event) : Decidable (OneThread s e) := by
  unfold OneThread
  infer_instance

/-- The only thread there can be is the one in `resync_tid`. -/
structure Single (s : Client) : Prop where
  only : ∀ t, t ≠ s.resyncTid → s.thread t = none
  bound : ∀ th, s.thread s.resyncTid = some th → s.resyncTid < s.nextTid

theorem single_boot : Single boot where
  only := fun _ _ => rfl
  bound := by
    intro th h
    cases h

theorem Single.eq_slot {s : Client} (hs : Single s) {tid : Nat} {th : ResyncThread}
    (h : s.thread tid = some th) : tid = s.resyncTid := by
  by_contra hne
  rw [hs.only tid hne] at h
  cases h

/-- Fields of the threads that a step leaves as they are. -/
structure SameSlot (s s' : Client) : Prop where
  thread : s'.thread = s.thread
  slot : s'.resyncTid = s.resyncTid
  next : s'.nextTid = s.nextTid

theorem Single.same {s s' : Client} (hs : Single s) (h : SameSlot s s') : Single s' := by
  refine ⟨?_, ?_⟩
  · intro t ht
    rw [h.slot] at ht
    rw [h.thread]
    exact hs.only t ht
  · rw [h.slot, h.thread, h.next]
    exact hs.bound

theorem sameSlot_requestMetadata (s : Client) : SameSlot s s.requestMetadata := by
  unfold requestMetadata
  split <;> exact ⟨rfl, rfl, rfl⟩

theorem Single.none_of {s : Client} (hs : Single s) (h : ∀ t < s.nextTid, s.thread t = none)
    (t : Nat) : s.thread t = none := by
  by_cases ht : t = s.resyncTid
  · rw [ht]
    cases hslot : s.thread s.resyncTid with
    | none => rfl
    | some th => rw [← h _ (hs.bound th hslot), hslot]
  · exact hs.only t ht

theorem Single.launch {s : Client} {pos : Nat} (h : ∀ t, s.thread t = none) :
    Single (s.resyncInit pos) := by
  refine ⟨?_, fun _ _ => Nat.lt_succ_self s.nextTid⟩
  intro t ht
  have ht' : t ≠ s.nextTid := ht
  exact (Function.update_of_ne ht' _ _).trans (h t)

/-- What a thread leaves, its own entry apart; it may close the socket. -/
structure SameRest (s s' : Client) : Prop extends SameSlot s s' where
  awaiting : s'.awaiting = s.awaiting
  socket : s'.socketUp = true → s.socketUp = true
  area : s'.bitmapArea = s.bitmapArea

/-- Where a thread stands, if it runs. -/
def phaseOf (s : Client) (tid : Nat) : Option ResyncPhase := (s.thread tid).map (·.phase)

/-- A step of the thread `tid` touches its own entry, and the one in `resync_tid` to cancel it. The
area changes only when the thread frees it, with its last step. -/
structure Touches (tid : Nat) (s s' : Client) : Prop where
  slot : s'.resyncTid = s.resyncTid
  next : s'.nextTid = s.nextTid
  awaiting : s'.awaiting = s.awaiting
  socket : s'.socketUp = true → s.socketUp = true
  area : s'.bitmapArea = s.bitmapArea ∨
    s.phaseOf tid = some .release ∧ s'.bitmapArea = .freed ∧ s'.thread tid = none
  others : ∀ t, t ≠ tid → t ≠ s.resyncTid → s'.thread t = s.thread t
  phases : ∀ t, t ≠ tid → s'.phaseOf t = s.phaseOf t

theorem phaseOf_of_thread {s s' : Client} {t : Nat} (h : s'.thread t = s.thread t) :
    s'.phaseOf t = s.phaseOf t := by
  rw [phaseOf, phaseOf, h]

theorem touches_setPhase {s s1 : Client} (tid : Nat) (ph : ResyncPhase) (h : SameRest s s1) :
    Touches tid s (s1.setPhase tid ph) := by
  have hother : ∀ t, t ≠ tid → (s1.setPhase tid ph).thread t = s.thread t := by
    intro t ht
    rw [setPhase, ← h.thread]
    exact Function.update_of_ne ht _ _
  exact ⟨h.slot, h.next, h.awaiting, h.socket, .inl h.area, fun t ht _ => hother t ht,
    fun t ht => phaseOf_of_thread (hother t ht)⟩

theorem endThread_other {s s1 : Client} {tid t : Nat} (h : s1.thread = s.thread) (ht : t ≠ tid) :
    (s1.endThread tid).thread t = s.thread t := by
  rw [endThread, ← h]
  exact Function.update_of_ne ht _ _

theorem touches_endThread {s s1 : Client} (tid : Nat) (h : SameRest s s1) :
    Touches tid s (s1.endThread tid) :=
  ⟨h.slot, h.next, h.awaiting, h.socket, .inl h.area, fun _ ht _ => endThread_other h.thread ht,
    fun _ ht => phaseOf_of_thread (endThread_other h.thread ht)⟩

theorem phaseOf_cancel (s : Client) (t : Nat) : s.cancel.phaseOf t = s.phaseOf t := by
  unfold phaseOf cancel
  by_cases ht : t = s.resyncTid
  · subst ht
    cases s.thread s.resyncTid <;> simp
  · dsimp only
    rw [Function.update_of_ne ht]

theorem touches_cancel {s s1 : Client} (tid : Nat) (ph : ResyncPhase) (h : SameRest s s1) :
    Touches tid s (s1.cancel.setPhase tid ph) := by
  refine ⟨h.slot, h.next, h.awaiting, h.socket, .inl h.area, fun t ht hslot => ?_, fun t ht => ?_⟩
  · have hslot' : t ≠ s1.resyncTid := fun hc => hslot (hc.trans h.slot)
    rw [setPhase, ← h.thread]
    exact (Function.update_of_ne ht _ _).trans (Function.update_of_ne hslot' _ _)
  · have hset : (s1.cancel.setPhase tid ph).thread t = s1.cancel.thread t :=
      Function.update_of_ne ht _ _
    rw [phaseOf_of_thread hset, phaseOf_cancel, phaseOf, h.thread, phaseOf]

/-- **Step lemma**, for the entries of the threads. -/
theorem touches_run {g : Geometry} {s s' : Client} {tid : Nat} {ok : Bool}
    (h : s.runThread g tid ok = some s') : Touches tid s s' := by
  obtain ⟨⟨ph, x⟩, hth, -⟩ := Option.bind_eq_some_iff.mp h
  cases threadStep_of_run hth h with
  | sendLost | recvLost =>
    -- the socket is closed
    exact touches_setPhase tid _ ⟨⟨rfl, rfl, rfl⟩, rfl, nofun, rfl⟩
  | writeFailed | loopPaused =>
    exact touches_cancel tid _ ⟨⟨rfl, rfl, rfl⟩, rfl, id, rfl⟩
  | chunkReleased | connLost | completed =>
    exact touches_endThread tid ⟨⟨rfl, rfl, rfl⟩, rfl, id, rfl⟩
  | release harea =>
    have hrelease : s.phaseOf tid = some .release := by rw [phaseOf, hth, Option.map_some]
    refine ⟨rfl, rfl, rfl, id, .inr ⟨hrelease, rfl, ?_⟩, fun t ht _ => ?_, fun t ht => ?_⟩
    · exact Function.update_self _ _ _
    · exact Function.update_of_ne ht _ _
    · exact phaseOf_of_thread (Function.update_of_ne ht _ _)
  | _ => exact touches_setPhase tid _ ⟨⟨rfl, rfl, rfl⟩, rfl, id, rfl⟩

theorem Single.touches {s s' : Client} {tid : Nat} {th : ResyncThread} (hs : Single s)
    (hth : s.thread tid = some th) (h : Touches tid s s') : Single s' := by
  obtain rfl := hs.eq_slot hth
  refine ⟨?_, ?_⟩
  · intro t ht
    rw [h.slot] at ht
    rw [h.others t ht ht]
    exact hs.only t ht
  · intro _ _
    rw [h.slot, h.next]
    exact hs.bound th hth

/-- **Step lemma.** -/
theorem single_step {g : Geometry} {s s' : Client} {e : Event} (hs : Single s)
    (hone : OneThread s e) (h : s.step g e = some s') : Single s' := by
  cases stepCase_of_step h with
  | run hrun =>
    obtain ⟨th, hth, -⟩ := Option.bind_eq_some_iff.mp h
    exact hs.touches hth (touches_run hrun)
  | endCancelled hth => exact hs.touches hth (touches_endThread _ ⟨⟨rfl, rfl, rfl⟩, rfl, id, rfl⟩)
  | metadata => exact hs.same (sameSlot_requestMetadata s)
  | bitmap | pause => exact hs.same ⟨rfl, rfl, rfl⟩
  | launch hl =>
    have hnone : ∀ t, s.thread t = none := hs.none_of (hone (by simp [hl]))
    exact Single.launch hnone
  | idle => exact hs

end Client

end Ebdr
