import Ebdr.Client.Coverage
import Ebdr.Client.Tiling
import Ebdr.Lib.Tracking
import Ebdr.Protocol.ChunkIntegrity
import Ebdr.Server.DirtyBits

/-!
# A session of one partner

The source machine, one connection and the target machine together: the kernel and the daemon's
threads (`Server`), the client and the two streams (`Link`), and the two disks, byte by byte. A write
to the device goes through `__ebdr_make_request`: `ebdr_update_bmap_and_sync` sets its bits and
`generic_make_request` hands it to the backing device some time later, so writes can be under way,
and they reach the disk in any order.

The thread of the partner runs the handlers `get_bitmap`, `get_data` and `terminate`. `get_bitmap`
and `terminate` take several steps of the server, and while it is in one of them it does nothing on
its connection.
-/

namespace Ebdr

open ByteMem Lts Tracking

/-- A write bio between `ebdr_update_bmap_and_sync` and the backing device. -/
structure Submitted where
  bio : Bio
  data : Mem

namespace Submitted

/-- The bio writes byte `y`. -/
def Covers (w : Submitted) (y : Nat) : Prop :=
  512 * w.bio.biSector ≤ y ∧ y < 512 * w.bio.biSector + w.bio.biSize

/-- The disk afterwards. -/
def apply (w : Submitted) (disk : Mem) : Mem :=
  copyBytes disk (512 * w.bio.biSector) w.data 0 w.bio.biSize

theorem apply_of_not_covers {w : Submitted} {disk : Mem} {y : Nat} (h : ¬ w.Covers y) :
    w.apply disk y = disk y := by
  rw [apply, copyBytes]
  exact if_neg h

end Submitted

structure Session where
  link : Link
  server : Server
  /-- The backing device of the partner's device. -/
  disk : Mem
  underWay : List Submitted
  /-- The target disk. -/
  target : Mem
  /-- The `disk_fd` of the source disk object is open. -/
  srcFd : Bool

inductive SessionEvent where
  /-- `ebdr_update_bmap_and_sync` for a bio on the partner's device. -/
  | write (bio : Bio) (data : Mem)
  /-- The bio at this place of `underWay` reaches the backing device. -/
  | land (n : Nat)
  /-- Another step of the server. -/
  | server (e : Server.Event)
  /-- Another step on the connection. -/
  | link (e : LinkEvent)
  /-- The start of `get_bitmap`. -/
  | getBitmap
  /-- The send of `get_bitmap`. -/
  | sendBitmap (r : Option Nat)
  /-- `get_data`, which reads the bytes of `m` from the source. -/
  | getData (r : Option Nat) (m : Mem)
  /-- `chunk_write_client`, with the result of its `write`. -/
  | writeChunk (tid : Nat) (r : Option Nat)
  /-- The start of `terminate`. -/
  | terminate
  /-- `snapshot_disk_init`, for the `snap` command, with the success of its `open`. -/
  | snap (ok : Bool)

/-- The client's part of an event on the connection. -/
def LinkEvent.clientPart (l : Link) : LinkEvent → Option Client.Event
  | .client e => some e
  | .send tid r =>
    match l.client.phaseOf tid with
    | some .sendTermination => some (.run tid true)
    | _ => some (.run tid r.isSome)
  | .recv tid r timedOut => some (.run tid (r.isSome && !timedOut))
  | .metadata _ => some .metadata
  | .bitmap n => some (.bitmap (l.conn.toClient.fill (fun _ => 0) n))
  | .server _ => none

namespace Session

open Client Server

/-! ### The steps of the components -/

/-- The position and the chunk that a thread is about to write. -/
def writing (s : Session) (tid : Nat) : Option (Nat × Nat) :=
  match s.link.client.phaseOf tid with
  | some (.write pos c) => some (pos, c)
  | _ => none

/-- Where it writes, as an offset on the disk. -/
def writeOffset (cfg : Config) (s : Session) (tid : Nat) : Option Nat :=
  (s.writing tid).bind fun p => chunkOffset (cfg.client.startLba p.1 p.2)

/-- `chunk_write_client` succeeds: neither its `lseek` nor its `write` fails. -/
def writeOk (cfg : Config) (s : Session) (tid : Nat) (r : Option Nat) : Bool :=
  (s.writeOffset cfg tid).isSome && r.isSome

/-- The server's part of an event. -/
def serverPart (cfg : Config) : SessionEvent → Option Server.Event
  | .write bio _ => some (.write (cfg.pid + 1) bio)
  | .server e => some e
  | .getBitmap => some (.recvMetadata cfg.pid)
  | .sendBitmap _ => some (.run cfg.pid)
  | .terminate => some (.recvTerminate cfg.pid)
  | .land _ | .link _ | .getData .. | .writeChunk .. | .snap _ => none

/-- The bitmap that `get_bitmap` sends. -/
def bitmapArea (cfg : Config) (s : Session) : Mem :=
  ((s.server.ubitmap cfg.pid).map fun ub => ub.bitmapArea).getD fun _ => 0

/-- The part of an event on the connection. -/
def linkPart (cfg : Config) (s : Session) : SessionEvent → Option LinkEvent
  | .link e => some e
  | .sendBitmap r => some (.server (.getBitmap (s.bitmapArea cfg) r))
  | .getData r m => some (.server (.getData r m))
  | .writeChunk tid r => some (.client (.run tid (s.writeOk cfg tid r)))
  | .terminate => some (.server .terminate)
  | .write .. | .land _ | .server _ | .getBitmap | .snap _ => none

/-- The thread of the partner is in no handler. -/
def Free (cfg : Config) (s : Session) : Prop := s.server.phase cfg.pid = .idle

/-- A step of the server that no other event is for. A restart ends the session. -/
def OtherServer (cfg : Config) (s : Session) : Server.Event → Prop
  | .write i _ => i ≠ cfg.pid + 1
  | .recvMetadata q | .recvTerminate q => q ≠ cfg.pid
  | .run q => q = cfg.pid → s.server.phase q ≠ .loaded
  | .connPause _ | .connResume _ | .loadRow .. | .control _ => True
  | .restart => False

/-- A step on the connection that no other event is for. -/
def OtherLink (cfg : Config) (s : Session) : LinkEvent → Prop
  | .server (.getBitmap ..) | .server (.getData ..) | .server .terminate => False
  | .server _ => s.Free cfg
  | .client (.run tid _) => s.writing tid = none
  | _ => True

/-- When an event can happen, beside what its parts need. -/
def Enabled (cfg : Config) (s : Session) : SessionEvent → Prop
  | .write .. => True
  | .land n => n < s.underWay.length
  | .server e => s.OtherServer cfg e
  | .link e => s.OtherLink cfg e
  | .getBitmap => s.link.conn.server.Finds cfg .bitmapMetadata
  | .sendBitmap r =>
    -- `get_bitmap` sends `bitmap_size` bytes
    s.server.phase cfg.pid = .loaded ∧
      ∀ k ∈ r, ∀ ub ∈ s.server.ubitmap cfg.pid, k ≤ ub.bitmapSize
  | .getData .. | .terminate => s.Free cfg
  | .writeChunk tid r => s.writing tid ≠ none ∧ ∀ k ∈ r, k ≤ bufSizeInBytes
  | .snap _ => True

/-! ### The disks -/

/-- The backing device after an event. -/
def nextDisk (s : Session) : SessionEvent → Mem
  | .land n => (s.underWay[n]?.map fun w => w.apply s.disk).getD s.disk
  | _ => s.disk

/-- The writes under way after an event. -/
def nextUnderWay (s : Session) : SessionEvent → List Submitted
  | .write bio data => if bio.isWrite = true then s.underWay ++ [⟨bio, data⟩] else s.underWay
  | .land n => s.underWay.eraseIdx n
  | _ => s.underWay

/-- The target disk after an event. -/
def nextTarget (cfg : Config) (s : Session) : SessionEvent → Mem
  | .writeChunk tid r =>
    match s.writeOffset cfg tid, r with
    | some off, some k => copyBytes s.target off (s.link.buff tid) 0 k
    | _, _ => s.target
  | _ => s.target

/-- `terminate` closes the source disk, unless the partner is released; the next `snap` opens it. -/
def nextSrcFd (cfg : Config) (s : Session) : SessionEvent → Bool
  | .terminate => if s.server.partnerState cfg.pid = .released then s.srcFd else false
  | .snap ok => ok || s.srcFd
  | _ => s.srcFd

theorem nextTarget_of_ok {cfg : Config} {s : Session} {tid off k : Nat}
    (h : s.writeOffset cfg tid = some off) :
    s.nextTarget cfg (.writeChunk tid (some k)) = copyBytes s.target off (s.link.buff tid) 0 k := by
  simp [nextTarget, h]

theorem nextTarget_of_not_ok {cfg : Config} {s : Session} {tid : Nat} {r : Option Nat}
    (h : s.writeOk cfg tid r = false) : s.nextTarget cfg (.writeChunk tid r) = s.target := by
  cases hoff : s.writeOffset cfg tid with
  | none => simp [nextTarget, hoff]
  | some off =>
    cases r with
    | none => simp [nextTarget, hoff]
    | some k => simp [writeOk, hoff] at h

/-! ### The system -/

instance instDecidableOtherServer (cfg : Config) (s : Session) :
    (e : Server.Event) → Decidable (s.OtherServer cfg e)
  | .write i _ => inferInstanceAs (Decidable (i ≠ cfg.pid + 1))
  | .recvMetadata q | .recvTerminate q => inferInstanceAs (Decidable (q ≠ cfg.pid))
  | .run q => inferInstanceAs (Decidable (q = cfg.pid → s.server.phase q ≠ .loaded))
  | .connPause _ | .connResume _ | .loadRow .. | .control _ => isTrue trivial
  | .restart => isFalse id

instance instDecidableOtherLink (cfg : Config) (s : Session) :
    (e : LinkEvent) → Decidable (s.OtherLink cfg e)
  | .server (.getBitmap ..) | .server (.getData ..) | .server .terminate => isFalse id
  | .server (.recvHeader ..) | .server (.chunkWrite ..) | .server (.other ..) =>
    inferInstanceAs (Decidable (s.server.phase cfg.pid = .idle))
  | .client (.run tid _) => inferInstanceAs (Decidable (s.writing tid = none))
  | .client .metadata | .client (.bitmap _) | .client .resync | .client .pause | .client .resume
  | .client .recoveryDisk | .client .recoveryConn | .client (.endCancelled _) => isTrue trivial
  | .send .. | .recv .. | .metadata _ | .bitmap _ => isTrue trivial

instance instDecidableEnabled (cfg : Config) (s : Session) :
    (e : SessionEvent) → Decidable (s.Enabled cfg e)
  | .write .. => isTrue trivial
  | .land n => inferInstanceAs (Decidable (n < s.underWay.length))
  | .server e => instDecidableOtherServer cfg s e
  | .link e => instDecidableOtherLink cfg s e
  | .getBitmap => inferInstanceAs (Decidable (s.link.conn.server.Finds cfg .bitmapMetadata))
  | .sendBitmap r => inferInstanceAs (Decidable (s.server.phase cfg.pid = .loaded ∧
      ∀ k ∈ r, ∀ ub ∈ s.server.ubitmap cfg.pid, k ≤ ub.bitmapSize))
  | .getData .. | .terminate => inferInstanceAs (Decidable (s.server.phase cfg.pid = .idle))
  | .writeChunk tid r =>
    inferInstanceAs (Decidable (s.writing tid ≠ none ∧ ∀ k ∈ r, k ≤ bufSizeInBytes))
  | .snap _ => isTrue trivial

def stepServer (cfg : Config) (s : Session) (e : SessionEvent) : Option Server :=
  match serverPart cfg e with
  | some f => s.server.step f
  | none => some s.server

def stepLink (cfg : Config) (s : Session) (e : SessionEvent) : Option Link :=
  match s.linkPart cfg e with
  | some f => s.link.step cfg f
  | none => some s.link

def step (cfg : Config) (s : Session) (e : SessionEvent) : Option Session :=
  if s.Enabled cfg e then
    (s.stepServer cfg e).bind fun server =>
      (s.stepLink cfg e).map fun link =>
        ⟨link, server, s.nextDisk e, s.nextUnderWay e, s.nextTarget cfg e, s.nextSrcFd cfg e⟩
  else none

/-! ### Bytes and grains -/

/-- The bytes of a disk of `gib` GiB. -/
def diskBytes (gib : Nat) : Set Nat := {y | y < gib * 2 ^ 30}

/-- The bit of a byte's grain, with the sizes of the run script. -/
def grainOf (gib y : Nat) : Nat := y / 512 / (16 * gib)

/-- The bytes of a chunk that lie on the disk. -/
def chunkBytes (gib lba : Nat) : Set Nat :=
  {y | y < gib * 2 ^ 30 ∧ ∃ off, chunkOffset lba = some off ∧ off ≤ y ∧ y < off + bufSizeInBytes}

/-- The contents of a buffer, at the place of the chunk. -/
def chunkValue (lba : Nat) (m : Mem) (y : Nat) : UInt8 := m (y - (chunkOffset lba).getD 0)

/-- The source, as the replica's counterpart. -/
def source (s : Session) : Source Nat UInt8 := ⟨s.disk, {y | ∃ w ∈ s.underWay, w.Covers y}⟩

/-- The bits set in the half that the kernel writes. -/
def active (cfg : Config) (d : SrcDisk) (s : Session) : Set Nat :=
  {b | (s.server.view cfg.pid d).dirty (s.server.view cfg.pid d).active b = true}

/-- The bits set in the other half. -/
def passive (cfg : Config) (d : SrcDisk) (s : Session) : Set Nat :=
  {b | (s.server.view cfg.pid d).dirty (s.server.view cfg.pid d).active.other b = true}

/-! ### Regular runs -/

/-- The bytes read for a chunk are those of the backing device, with no write on its way to them, or
their bits are set in the half that the kernel writes. -/
def Settled (cfg : Config) (gib : Nat) (d : SrcDisk) (s : Session) (m : Mem) : Prop :=
  let t := s.link.conn.server
  let lba := cfg.server.startLba t.currPos t.chunkPos
  Fresh (grainOf gib) s.source (s.active cfg d) (chunkBytes gib lba) (chunkValue lba m)

/-- The event is a step of the server's thread on the connection. -/
def Serves (cfg : Config) (s : Session) (e : SessionEvent) : Prop :=
  e = .getBitmap ∨ ∃ f, s.linkPart cfg e = some (.server f)

/-- Writes to the device stay inside the disk. -/
def StaysInside (gib : Nat) : SessionEvent → Prop
  | .write bio _ => bio.isWrite = true → bio.Inside gib
  | _ => True

/-- A chunk is written whole, or not at all. -/
def WholeWrite : SessionEvent → Prop
  | .writeChunk _ r => r = none ∨ r = some bufSizeInBytes
  | _ => True

/-- Writes and rounds with one resync thread at a time and without short transfers: the server only
handles what comes while the client has the connection open, no store changes the index of another
request's window, and no write sets a bit of a word that the copy has passed. -/
structure Steady (cfg : Config) (gib : Nat) (s : Session) (e : SessionEvent) : Prop where
  server : ∀ f ∈ serverPart cfg e, RoundEvent f ∧ KeepsIndex s.server f ∧ NotPassed cfg.pid s.server f
  link : ∀ f ∈ s.linkPart cfg e, Link.Orderly s.link f
  client : ∀ f ∈ s.linkPart cfg e, ∀ g ∈ f.clientPart s.link,
    CancelEnds s.link.client g ∧ ResumesFresh s.link.client g
  connected : s.Serves cfg e → s.link.client.socketUp = true
  inside : StaysInside gib e
  whole : WholeWrite e

/-- Chunks are read from a source that is settled. -/
structure Regular (cfg : Config) (gib : Nat) (d : SrcDisk) (s : Session) (e : SessionEvent) : Prop
    extends Steady cfg gib s e where
  read : ∀ r m, e = .getData r m → s.Settled cfg gib d m

/-- The bytes of `m` are those of the backing device at the place of the chunk. -/
def ReadsDisk (cfg : Config) (s : Session) (m : Mem) : Prop :=
  let t := s.link.conn.server
  ∀ off ∈ chunkOffset (cfg.server.startLba t.currPos t.chunkPos), ∀ i < bufSizeInBytes,
    m i = s.disk (off + i)

/-- `snap_name` is the disk itself, as in the run script, and is read while it is open, and no write is
under way when the halves are exchanged. -/
structure Direct (cfg : Config) (gib : Nat) (d : SrcDisk) (s : Session) (e : SessionEvent) : Prop
    extends Steady cfg gib s e where
  read : ∀ r m, e = .getData r m → s.ReadsDisk cfg m ∧ (r ≠ none → s.srcFd = true)
  flip : e = .server (.run cfg.pid) → ∀ h k, s.server.phase cfg.pid = .copying h k true →
    d.bitmapSize / 8 ≤ k → s.underWay = []

end Session

end Ebdr
