import Ebdr.Database.ServerObjects
import Ebdr.Lib.Lts
import Ebdr.Server.Round
import Mathlib

/-!
# The server: connections and requests

The accept loop (`replic_thread_init`), the `send_recv` threads with the handlers of `cmdMap`, and
the recovery thread, over the objects and the database of `ServerDaemon`. The kernel's descriptor
table `sock` says which connection is open under a number; a number that was closed can be given out
again. A descriptor carries the connection it was opened for, which the program does not see.

A handler is one step up to its `sleep(60)`, if it has one, and what it does after that is a step of
its own. `get_bitmap` and the clear of `terminate` go word by word, with the phases of
`Ebdr.Server.Round` and the same `ioctl_obj`. Other threads run in between (`goOn`). A `recv` that
returns 0 dispatches the old header again, which is the arrival of that header here.
-/

namespace Ebdr

open ByteMem CInt

/-! ### Data -/

/-- A descriptor. `conn` is the connection it was opened for, no data of the program. -/
structure Fd where
  num : Int
  conn : Nat
  deriving DecidableEq, Repr

/-- Static storage. -/
def Fd.zero : Fd := ⟨0, 0⟩

/-- The value stored after a `close`. -/
def Fd.closed : Fd := ⟨-1, 0⟩

/-- The listening socket; it counts as connection 0. -/
def Fd.listen : Fd := ⟨3, 0⟩

/-- `ebdr_conn_t`. -/
structure EbdrConn where
  connFd : Fd
  /-- `sockFd`, the listening socket of the entry that has one. -/
  sockFd : Fd
  objState : ConnObjState
  /-- The last connection that was stored in `connFd`. This is no data of the program. -/
  stored : Fd
  deriving DecidableEq, Repr

/-- `struct sockfd_pid`. -/
structure SockfdPid where
  sockfd : Fd
  pid : Nat
  deriving DecidableEq, Repr

/-- A header with an opcode of `cmdMap`, and what its handler reads of it. -/
inductive ServerHeader where
  | bitmapMetadata (pid : Nat)
  | data (pid currPos chunkPos : Nat)
  | makePartner (pid : Nat) (destIp : String) (bandwidth : Nat) (disk : String) (sizes : HeaderSizes)
  | removePartner (pid : Nat)
  | rmRelation (rid : Nat)
  | syn (pid : Nat)
  | ack (pid : Nat)
  | rplcTermination (pid : Nat)
  | dataReq (pid : Nat)
  | verifyData (pid : Nat)
  deriving DecidableEq, Repr

/-- `partner_id`, or `relation_id`, which is the same number. -/
def ServerHeader.pid : ServerHeader → Nat
  | .bitmapMetadata pid | .data pid _ _ | .makePartner pid _ _ _ _ | .removePartner pid
  | .rmRelation pid | .syn pid | .ack pid | .rplcTermination pid | .dataReq pid | .verifyData pid => pid

/-- What a handler sends. -/
inductive Payload where
  | bitmap (area : Mem) (length : Nat)
  | chunk (content : Mem)
  | synAck (pid : Nat) (sizes : HeaderSizes)
  | dataPrep (pid availableSize : Nat)
  | verifyDataRsp (pid : Nat) (md5 : String)
  | verifyDataIgn (pid : Nat)

/-- Bytes that were sent, with the connection they went to. -/
structure Reply where
  conn : Nat
  payload : Payload

/-- A `send_recv` thread. -/
inductive SendRecvThread where
  /-- Created with a pointer to entry `k` of `sockfd_pid_var`, which it has not read. -/
  | created (k : Nat)
  /-- In `ebdr_conn_server_recv` on the descriptor `num`. -/
  | serving (num : Int)
  deriving DecidableEq, Repr

/-- What is left to do for a header. The first three come after a `sleep(60)`. -/
inductive Tail where
  /-- `get_data` of a header from the connection `conn`, after a failed `chunk_read`. -/
  | readFailed (conn pid : Nat)
  /-- `get_data`, after a failed `chunk_write`. -/
  | sendFailed (conn pid : Nat)
  /-- The receive loop, after a failed `recv`. -/
  | recvFailed (pid : Nat)
  /-- `get_bitmap` or `terminate` of a header from the connection `conn`. -/
  | running (conn pid : Nat) (phase : Phase)
  deriving DecidableEq, Repr

/-- The outcomes of a handler's I/O. -/
structure Io where
  readOk : Bool
  sendOk : Bool
  /-- What `chunk_read` reads from a sector on. -/
  content : Nat → Mem
  md5 : Option String

/-- What the server keeps about its connections and threads. Threads are numbered by the connection
they were created for. -/
structure Net where
  /-- `all_partner_servers[pid].socket_fd`. -/
  socketFd : Nat → Fd
  /-- `ebdr_conn_server[pid]`. -/
  conn : Nat → EbdrConn
  /-- `ebdr_conn_server[MAX_CONN + 1]`, the entry of the accept loop. -/
  shared : EbdrConn
  partnerCreated : Nat → Bool
  sockRecovery : Nat → Bool
  totalConn : Nat
  /-- `sockfd_pid_var`. -/
  entry : Nat → SockfdPid
  /-- `send_recv_tid`. -/
  sendRecvTid : Nat → Nat
  thread : Nat → Option SendRecvThread
  /-- What a thread has to do before it receives again. -/
  rest : Nat → Option Tail
  /-- `rep_hdr_rcvd` of a thread. -/
  last : Nat → Option ServerHeader
  /-- The kernel's table of open descriptors. -/
  sock : Int → Option Nat
  nextConn : Nat

/-- A partner's bitmaps: the two halves of its device's area, the kernel's `bmap_user` of the device, and
`bitmap_server_obj[pid]`. -/
structure BitmapRound where
  halves : Half → Mem
  bmapUser : BmapUser
  ubitmap : UserBitmap

structure NetServer where
  net : Net
  daemon : ServerDaemon
  recoveryMode : Nat → Bool
  ioState : Nat → IoObjState
  round : Nat → BitmapRound
  /-- `ioctl_obj.index`. -/
  ioctlIndex : Nat
  /-- The index in the copy of `ioctl_obj` that `is_disk_created` keeps over its search. -/
  savedIndex : Option Nat
  /-- What was sent. -/
  sent : List Reply

/-! ### Descriptors -/

namespace Net

/-- The connection open under a number, the listening socket apart. -/
def peer (t : Net) (num : Int) : Option Nat := (t.sock num).filter (· ≠ 0)

/-- `shutdown` and `close`. -/
def close (t : Net) (fd : Fd) : Net := { t with sock := Function.update t.sock fd.num none }

def setConn (t : Net) (pid : Nat) (c : EbdrConn) : Net :=
  { t with conn := Function.update t.conn pid c }

/-- The slot's last connection is still open. -/
def Active (t : Net) (pid : Nat) : Prop :=
  t.sock (t.conn pid).stored.num = some (t.conn pid).stored.conn

instance (t : Net) (pid : Nat) : Decidable (t.Active pid) := inferInstanceAs (Decidable (_ = _))

/-- `ebdr_conn_server[pid].conn_fd = -1`. -/
def dropConnFd (t : Net) (pid : Nat) : Net := t.setConn pid { t.conn pid with connFd := .closed }

/-- A connection is given up: the object is paused, and its descriptor closed. -/
def pauseConn (t : Net) (pid : Nat) : Net :=
  ({ t with sockRecovery := Function.update t.sockRecovery pid true }.setConn pid
    { t.conn pid with objState := .pause }).close (t.conn pid).connFd

end Net

namespace NetServer

/-- The send succeeds. -/
def canSend (s : NetServer) (pid : Nat) (io : Io) : Bool :=
  io.sendOk && (s.net.peer (s.net.socketFd pid).num).isSome

/-- A send to `all_partner_servers[pid].socket_fd`. -/
def send (s : NetServer) (pid : Nat) (io : Io) (p : Payload) : NetServer :=
  if s.canSend pid io = true then
    { s with
      sent := s.sent ++ ((s.net.peer (s.net.socketFd pid).num).map fun c => ⟨c, p⟩).toList }
  else s

/-! ### The accept loop -/

/-- `mkpartner_from_db_on_server`. -/
def reload (s : NetServer) : NetServer :=
  { s with daemon := { s.daemon with objects := s.daemon.objects.retrieveFromPartner s.daemon.db } }

/-- `num_rows`. -/
def numRows (s : NetServer) : Nat := s.daemon.db.livePartners.length

/-- The test of the first branch. -/
def Resumable (s : NetServer) (pid : Nat) : Prop :=
  (s.net.conn pid).objState = .pause ∧ s.net.sockRecovery pid = true

/-- The test of the second branch, where `client_connected` is always 1. -/
def Recoverable (s : NetServer) (pid : Nat) : Prop :=
  s.recoveryMode pid = true ∧ (s.daemon.objects.partners pid).objState = .inUse

instance (s : NetServer) (pid : Nat) : Decidable (s.Resumable pid) :=
  inferInstanceAs (Decidable (_ ∧ _))

instance (s : NetServer) (pid : Nat) : Decidable (s.Recoverable pid) :=
  inferInstanceAs (Decidable (_ ∧ _))

/-- How the choice of a slot ends. -/
inductive Choice where
  /-- There are no rows. -/
  | first
  | resume (pid : Nat)
  | recover (pid : Nat)
  | full (pid : Nat)
  | create (pid : Nat)
  /-- The loop ended. -/
  | unmatched (pid : Nat)
  deriving DecidableEq, Repr

/-- `pid` after the choice. -/
def Choice.pid : Choice → Nat
  | .first => 0
  | .resume pid | .recover pid | .full pid | .create pid | .unmatched pid => pid

/-- The slot whose connection the new one takes over. -/
def Choice.resumed : Choice → Option Nat
  | .resume pid | .recover pid => some pid
  | .first | .full _ | .create _ | .unmatched _ => none

/-- `for(pid = 0; pid <= num_rows; pid++)` from `pid` on, with `n` passes left. -/
def scan (s : NetServer) : Nat → Nat → Choice
  | 0, pid => .unmatched pid
  | n + 1, pid =>
    if s.Resumable pid then .resume pid
    else if s.Recoverable pid then .recover pid
    else if s.net.totalConn ≥ s.numRows then .full pid
    else if s.net.partnerCreated pid = false then .create pid
    else s.scan n (pid + 1)

def choose (s : NetServer) : Choice :=
  if s.numRows = 0 then .first else s.scan (s.numRows + 1) 0

/-- What the branches store. Only three of them store the `pid` of the entry. -/
def applyChoice (s : NetServer) (fd : Fd) : Choice → NetServer
  | .first =>
    { s with
      net := { s.net with
        partnerCreated := Function.update s.net.partnerCreated 0 true
        entry := Function.update s.net.entry 0 { s.net.entry 0 with pid := 0 } } }
  | .resume pid =>
    { s with
      net := { s.net.setConn pid { s.net.shared with objState := .resume } with
        socketFd := Function.update s.net.socketFd pid fd
        entry := Function.update s.net.entry pid { s.net.entry pid with pid := pid }
        sockRecovery := Function.update s.net.sockRecovery pid false
        totalConn := s.net.totalConn + 1 } }
  | .recover pid =>
    { s with
      net := { s.net.setConn pid s.net.shared with
        socketFd := Function.update s.net.socketFd pid fd
        entry := Function.update s.net.entry pid { s.net.entry pid with pid := pid }
        totalConn := s.net.totalConn + 1 }
      daemon := { s.daemon with objects := s.daemon.objects.setPartnerState pid .recovery } }
  | .full _ | .unmatched _ => s
  | .create pid =>
    { s with
      net := { s.net with
        partnerCreated := Function.update s.net.partnerCreated pid true
        totalConn := s.net.totalConn + 1 } }

/-- `sockfd_pid_var[pid].sockfd = newSockFd`, and the thread is created. -/
def createThread (s : NetServer) (fd : Fd) (k : Nat) : NetServer :=
  { s with
    net := { s.net with
      entry := Function.update s.net.entry k { s.net.entry k with sockfd := fd }
      sendRecvTid := Function.update s.net.sendRecvTid k fd.conn
      thread := Function.update s.net.thread fd.conn (some (.created k)) } }

/-- `accept` returns the number `n`. -/
def accepted (s : NetServer) (n : Int) : NetServer :=
  { s with
    net := { s.net with
      sock := Function.update s.net.sock n (some s.net.nextConn)
      nextConn := s.net.nextConn + 1
      shared := { s.net.shared with
        connFd := ⟨n, s.net.nextConn⟩
        stored := ⟨n, s.net.nextConn⟩ } } }.reload

/-- One pass of `replic_thread_init`. -/
def acceptConn (s : NetServer) (n : Int) : Option NetServer :=
  if 0 < n ∧ s.net.sock n = none ∧
      s.net.sock s.net.shared.sockFd.num = some s.net.shared.sockFd.conn then
    let fd : Fd := ⟨n, s.net.nextConn⟩
    let s := s.accepted n
    some ((s.applyChoice fd s.choose).createThread fd s.choose.pid)
  else none

/-- `send_recv_handler` up to its receive loop. -/
def startThread (s : NetServer) (t k : Nat) : NetServer :=
  let e := s.net.entry k
  { s with
    net := { s.net.setConn e.pid
        { s.net.conn e.pid with
          connFd := e.sockfd
          stored := e.sockfd } with
      thread := Function.update s.net.thread t (some (.serving e.sockfd.num)) } }

/-! ### The handlers -/

def setRest (s : NetServer) (t : Nat) (tail : Option Tail) : NetServer :=
  { s with net := { s.net with rest := Function.update s.net.rest t tail } }

def setPhase (s : NetServer) (t c pid : Nat) (ph : Phase) : NetServer :=
  s.setRest t (some (.running c pid ph))

def setRound (s : NetServer) (pid : Nat) (r : BitmapRound) : NetServer :=
  { s with round := Function.update s.round pid r }

def setUbitmap (s : NetServer) (pid : Nat) (ub : UserBitmap) : NetServer :=
  s.setRound pid { s.round pid with ubitmap := ub }

/-- The kernel has a device of this number; that of the partner `pid` is `pid + 1`. -/
def HasDevice (s : NetServer) (index : Nat) : Prop := 0 < index ∧ index ≤ s.daemon.dsCount

instance (s : NetServer) (index : Nat) : Decidable (s.HasDevice index) :=
  inferInstanceAs (Decidable (_ ∧ _))

/-- The test of `server_bitmap_load_from_memory` for the branch with a flip. -/
def Normal (s : NetServer) (pid : Nat) : Prop :=
  s.recoveryMode pid = false ∧ (s.net.conn pid).objState ≠ .resume

instance (s : NetServer) (pid : Nat) : Decidable (s.Normal pid) :=
  inferInstanceAs (Decidable (_ ∧ _))

/-- `get_bitmap` up to its `server_bitmap_load_from_memory`. -/
def getBitmap (s : NetServer) (t c pid : Nat) : Option NetServer :=
  (s.daemon.getBitmap pid).map fun d =>
    ({ s with daemon := d }.setUbitmap pid Server.bitmapServerCreate).setPhase t c pid .created

/-- Choose the half to copy. -/
def chooseHalf (s : NetServer) (t c pid : Nat) (h : Half) (flip : Bool) : NetServer :=
  (s.setUbitmap pid
    { (s.round pid).ubitmap with
      bitmapSize := (s.daemon.objects.disks pid).bitmapSize
      bmapUser := h.mark }).setPhase t c pid (.copying h 0 flip)

/-- The branch of `server_bitmap_load_from_memory`, after `EBDRCTL_GET_USER` returned `u`. -/
def chooseBranch (s : NetServer) (t c pid : Nat) (u : BmapUser) : NetServer :=
  if s.Normal pid then s.chooseHalf t c pid u.half true
  else
    { s with net := s.net.setConn pid { s.net.conn pid with objState := .inUse } }.chooseHalf t c pid
      (Server.reentryHalf ((s.round pid).halves .first)) false

/-- `EBDR_FLIP_BITMAP_AREA` of the device of `pid`. -/
def flipDevice (s : NetServer) (pid : Nat) : NetServer :=
  s.setRound pid { s.round pid with bmapUser := (s.round pid).bmapUser.other }

/-- The end of `bitmap_server_setup`. -/
def markReady (s : NetServer) (t c pid : Nat) : NetServer :=
  (s.setUbitmap pid { (s.round pid).ubitmap with bitmapState := .ready }).setPhase t c pid .loaded

/-- One word of `ebdr_copy_mmaped_bitmap`, and after the last one the flip. -/
def copyStep (s : NetServer) (t c pid : Nat) (h : Half) (k : Nat) (flip : Bool) :
    Option NetServer :=
  let ub := (s.round pid).ubitmap
  if k < ub.bitmapSize / 8 then
    -- `bitmap_area` has `BITMAP_SIZE` bytes
    if 8 * (k + 1) ≤ bitmapSizeMax then
      some ((s.setUbitmap pid
        { ub with bitmapArea :=
            copyWord 8 ub.bitmapArea (8 * k) ((s.round pid).halves h) (8 * k) }).setPhase t c pid
        (.copying h (k + 1) flip))
    else none
  else if flip = true then
    if s.HasDevice s.ioctlIndex then some ((s.flipDevice (s.ioctlIndex - 1)).markReady t c pid)
    else none
  else some (s.markReady t c pid)

/-- The end of `get_bitmap`. -/
def sendBitmap (s : NetServer) (t pid : Nat) (io : Io) : NetServer :=
  let ub := (s.round pid).ubitmap
  let s' := (s.send pid io (.bitmap ub.bitmapArea (intToUlong (toInt ub.bitmapSize)))).setRest t none
  if s.canSend pid io = true then
    { s' with ioState := Function.update s.ioState pid .inUse }
  else s'

/-- `terminate` up to the clear of `bitmap_server_destroy`. -/
def terminate (s : NetServer) (t c pid : Nat) : Option NetServer :=
  if (s.daemon.objects.partners pid).objState ≠ .released then
    if pid < s.daemon.dsCount ∧ s.daemon.bitmapOps pid = true then
      some (s.setPhase t c pid (.clearing (s.round pid).ubitmap.bmapUser.marked 0))
    else none
  else some s

/-- One word of `ebdr_clear_active_bitmap`, and after the last one the end of `terminate`. -/
def clearStep (s : NetServer) (t c pid : Nat) (h : Half) (k : Nat) : NetServer :=
  let r := s.round pid
  if k < (s.daemon.objects.disks pid).bitmapSize / 8 then
    (s.setRound pid
      { r with halves := Function.update r.halves h (storeLE (r.halves h) (8 * k) 8 0) }).setPhase t
      c pid (.clearing h (k + 1))
  else
    { s with
      daemon := s.daemon.releaseObjects pid
      recoveryMode := Function.update s.recoveryMode pid false
      ioState := Function.update s.ioState pid .released }.setRest t none

/-- The next step of `get_bitmap` or `terminate`. -/
def runPhase (s : NetServer) (t c pid : Nat) (io : Io) : Phase → Option NetServer
  | .idle => none
  | .created => some ({ s with ioctlIndex := pid + 1 }.setPhase t c pid .indexed)
  | .indexed =>
    if s.HasDevice s.ioctlIndex then
      some (s.setPhase t c pid (.gotUser (s.round (s.ioctlIndex - 1)).bmapUser))
    else none
  | .gotUser u => some (s.chooseBranch t c pid u)
  | .copying h k flip => s.copyStep t c pid h k flip
  | .loaded => some (s.sendBitmap t pid io)
  | .clearing h k => some (s.clearStep t c pid h k)

/-- `get_data` from its `chunk_write` on. -/
def sendChunk (s : NetServer) (t c pid : Nat) (io : Io) (content : Mem) : NetServer :=
  if s.canSend pid io = true then s.send pid io (.chunk content)
  else
    let net := s.net.pauseConn pid
    { s with
      net := { net with
        partnerCreated := Function.update net.partnerCreated pid false
        totalConn := 0
        rest := Function.update net.rest t (some (.sendFailed c pid)) } }

/-- `get_data`. -/
def getData (s : NetServer) (t c pid currPos chunkPos : Nat) (io : Io) : NetServer :=
  if s.ioState pid = .released then s
  else if io.readOk = true then
    s.sendChunk t c pid io
      (io.content ((s.daemon.replicHdr pid).geometry.startLba currPos chunkPos))
  else
    let net := s.net.pauseConn pid
    { s with
      net := { net with rest := Function.update net.rest t (some (.readFailed c pid)) }
      daemon := { s.daemon with objects := s.daemon.objects.setDiskState pid .pause } }

/-- `make_partner`: the connection is the one in the entry of the accept loop. -/
def makePartner (s : NetServer) (pid : Nat) (destIp : String) (bandwidth : Nat) (disk : String)
    (sizes : HeaderSizes) : Option NetServer :=
  (s.daemon.makePartner pid destIp bandwidth disk sizes).map fun d =>
    { s with
      daemon := d
      net := { s.net.setConn pid s.net.shared with
        socketFd := Function.update s.net.socketFd pid s.net.shared.connFd } }

/-- `remove_partner`. -/
def removePartner (s : NetServer) (pid : Nat) : Option NetServer :=
  (s.daemon.removePartner pid).map fun d =>
    { s with
      daemon := d
      net := { s.net.close (s.net.socketFd pid) with
        socketFd := Function.update s.net.socketFd pid .zero } }

/-- The handler of a header that the thread `t` has received on the connection `c`. -/
def handle (s : NetServer) (t c : Nat) (io : Io) : ServerHeader → Option NetServer
  | .bitmapMetadata pid => s.getBitmap t c pid
  | .data pid currPos chunkPos => some (s.getData t c pid currPos chunkPos io)
  | .makePartner pid destIp bandwidth disk sizes => s.makePartner pid destIp bandwidth disk sizes
  | .removePartner pid => s.removePartner pid
  | .rmRelation rid => (s.daemon.removeRelation rid).map fun d => { s with daemon := d }
  | .syn pid =>
    (s.daemon.synReceived pid).map fun d =>
      { s.send pid io (.synAck pid (s.daemon.replicHdr pid)) with daemon := d }
  | .ack _ => some s
  | .rplcTermination pid => s.terminate t c pid
  | .dataReq pid =>
    if s.daemon.repConn pid = true then some (s.send pid io (.dataPrep pid 4096)) else none
  | .verifyData pid =>
    if s.daemon.repConn pid = true then
      some (s.send pid io (io.md5.elim (.verifyDataIgn pid) (.verifyDataRsp pid)))
    else none

/-- `recv` fails in the thread `t`: after a `DATA` header the connection object is paused. -/
def recvFails (s : NetServer) (t : Nat) : NetServer :=
  match s.net.last t with
  | some (.data pid _ _) =>
    { s with
      net := { (s.net.close (s.net.conn pid).connFd).dropConnFd pid with
        partnerCreated := Function.update s.net.partnerCreated pid false
        rest := Function.update s.net.rest t (some (.recvFailed pid)) } }
  | _ => { s with net := { s.net with thread := Function.update s.net.thread t none } }

/-- The next step of what is left to do for a header. -/
def goOn (s : NetServer) (t : Nat) (io : Io) : Tail → Option NetServer
  | .readFailed c pid =>
    let net := s.net.dropConnFd pid
    some ({ s with
      net := { net with
        partnerCreated := Function.update net.partnerCreated pid false
        rest := Function.update net.rest t none } }.sendChunk t c pid io (fun _ => 0))
  | .sendFailed _ pid =>
    let net := s.net.dropConnFd pid
    some { s with net := { net with rest := Function.update net.rest t none } }
  | .recvFailed pid =>
    some { s with
      net := { s.net.setConn pid { s.net.conn pid with objState := .pause } with
        sockRecovery := Function.update s.net.sockRecovery pid true
        partnerCreated := Function.update s.net.partnerCreated pid false
        -- `pthread_cancel(send_recv_tid[pid])`, and the end of the thread itself
        rest := Function.update (Function.update s.net.rest (s.net.sendRecvTid pid) none) t none
        thread := Function.update (Function.update s.net.thread (s.net.sendRecvTid pid) none) t
          none } }
  | .running c pid ph => s.runPhase t c pid io ph

/-- A pass of `recovery_thread_init` over `pid`. -/
def recoveryPass (s : NetServer) (pid : Nat) : NetServer :=
  let daemon :=
    if (s.daemon.objects.disks pid).objState = .pause then
      { s.daemon with objects := s.daemon.objects.setDiskState pid .resume }
    else s.daemon
  if (s.net.conn pid).objState = .pause then
    -- `restart_conn_server`; the state would change for a client's connection only
    { s with
      daemon := daemon
      net := { s.net with
        socketFd := Function.update s.net.socketFd pid (s.net.conn pid).sockFd } }
  else { s with daemon := daemon }

/-! ### The system -/

inductive Event where
  | accept (n : Int)
  | start (t : Nat)
  /-- The thread `t` receives a header on the connection `c`. -/
  | recv (t c : Nat) (hdr : ServerHeader) (io : Io)
  | recvFails (t : Nat)
  | goOn (t : Nat) (io : Io)
  | recoveryPass (pid : Nat)
  | createDisk (name : String) (bitmapSize : Nat)
  /-- `is_disk_created` copies `ioctl_obj`, searches with it, and copies it back. -/
  | saveIoctl
  | restoreIoctl
  /-- A write of an application sets a bit. -/
  | write (pid bit : Nat)

/-- The kernel sets a bit of the half it writes. -/
def writeBit (s : NetServer) (pid b : Nat) : NetServer :=
  let r := s.round pid
  let h := r.bmapUser.half
  s.setRound pid { r with halves := Function.update r.halves h (setBit 8 (r.halves h) 0 b) }

/-- The thread `t` receives on the connection `c`. -/
def Receives (s : NetServer) (t c : Nat) : Prop :=
  s.net.rest t = none ∧
    match s.net.thread t with
    | some (.serving num) => s.net.peer num = some c
    | _ => False

instance (s : NetServer) (t c : Nat) : Decidable (s.Receives t c) := by
  unfold Receives
  split <;> infer_instance

def step (s : NetServer) : Event → Option NetServer
  | .accept n => s.acceptConn n
  | .start t =>
    match s.net.thread t with
    | some (.created k) => some (s.startThread t k)
    | _ => none
  | .recv t c hdr io =>
    if s.Receives t c then
      { s with net := { s.net with last := Function.update s.net.last t (some hdr) } }.handle t c io
        hdr
    else none
  | .recvFails t =>
    match s.net.thread t with
    | some (.serving _) => if s.net.rest t = none then some (s.recvFails t) else none
    | _ => none
  | .goOn t io => (s.net.rest t).bind (s.goOn t io)
  | .recoveryPass pid => some (s.recoveryPass pid)
  | .createDisk name bitmapSize =>
    (s.daemon.createDisk name bitmapSize).map fun d => { s with daemon := d }
  | .saveIoctl => if s.savedIndex = none then some { s with savedIndex := some s.ioctlIndex } else none
  | .restoreIoctl => s.savedIndex.map fun index => { s with ioctlIndex := index, savedIndex := none }
  | .write pid b => some (s.writeBit pid b)

/-- The daemon listens; `db_init` and the commands before left `daemon`, `recovery_mode` and the
bitmaps. -/
def boot (daemon : ServerDaemon) (recoveryMode : Nat → Bool) (round : Nat → BitmapRound) :
    NetServer where
  net :=
    { socketFd := fun _ => .zero
      conn := fun _ => ⟨.zero, .zero, .inUse, .zero⟩
      shared := ⟨.zero, .listen, .inUse, .zero⟩
      partnerCreated := fun _ => false
      sockRecovery := fun _ => false
      totalConn := 0
      entry := fun _ => ⟨.zero, 0⟩
      sendRecvTid := fun _ => 0
      thread := fun _ => none
      rest := fun _ => none
      last := fun _ => none
      sock := fun n => if n = Fd.listen.num then some Fd.listen.conn else none
      nextConn := 1 }
  daemon := daemon
  recoveryMode := recoveryMode
  ioState := fun _ => .free
  round := round
  ioctlIndex := 0
  savedIndex := none
  sent := []

/-- A daemon that has served nobody yet. -/
def fresh : NetServer :=
  boot .boot (fun _ => false) fun _ => ⟨fun _ _ => 0, .kernel, Server.bitmapServerCreate⟩

end NetServer

/-- All I/O succeeds. -/
def Io.ok : Io := ⟨true, true, fun _ _ => 0, none⟩

/-- The source disk cannot be read. -/
def Io.readError : Io := ⟨false, true, fun _ _ => 0, none⟩

/-! ### Frames -/

namespace Net

/-- No connection is stored into a slot or an entry, and none is opened. -/
structure Calm (t t' : Net) : Prop where
  shared : t'.shared = t.shared
  entry : t'.entry = t.entry
  nextConn : t'.nextConn = t.nextConn
  stored : ∀ pid, (t'.conn pid).stored = (t.conn pid).stored
  sock : ∀ n, t'.sock n = t.sock n ∨ t'.sock n = none
  created : ∀ u k, t'.thread u = some (.created k) → t.thread u = some (.created k)

variable {t t' u : Net}

theorem Calm.refl (t : Net) : Calm t t :=
  ⟨rfl, rfl, rfl, fun _ => rfl, fun _ => .inl rfl, fun _ _ h => h⟩

theorem Calm.trans (h : Calm t t') (h' : Calm t' u) : Calm t u where
  shared := h'.shared.trans h.shared
  entry := h'.entry.trans h.entry
  nextConn := h'.nextConn.trans h.nextConn
  stored := fun pid => (h'.stored pid).trans (h.stored pid)
  sock := fun n => (h'.sock n).elim (fun heq => (h.sock n).imp heq.trans heq.trans) .inr
  created := fun v k hv => h.created v k (h'.created v k hv)

theorem Calm.active {pid : Nat} (h : Calm t t') (ha : t'.Active pid) : t.Active pid := by
  unfold Active at ha ⊢
  rw [h.stored] at ha
  rcases h.sock (t.conn pid).stored.num with heq | hnone
  · exact heq.symm.trans ha
  · rw [hnone] at ha
    cases ha

theorem calm_setConn (t : Net) {pid : Nat} {c : EbdrConn} (h : c.stored = (t.conn pid).stored) :
    Calm t (t.setConn pid c) := by
  refine ⟨rfl, rfl, rfl, fun q => ?_, fun _ => .inl rfl, fun _ _ hv => hv⟩
  unfold setConn
  by_cases hq : q = pid
  · rw [hq]
    simpa using h
  · simp [Function.update_of_ne hq]

theorem calm_close (t : Net) (fd : Fd) : Calm t (t.close fd) := by
  refine ⟨rfl, rfl, rfl, fun _ => rfl, fun n => ?_, fun _ _ hv => hv⟩
  unfold close
  by_cases hn : n = fd.num
  · rw [hn]
    simp
  · simp [Function.update_of_ne hn]

theorem calm_dropConnFd (t : Net) (pid : Nat) : Calm t (t.dropConnFd pid) := calm_setConn t rfl

theorem calm_pauseConn (t : Net) (pid : Nat) : Calm t (t.pauseConn pid) := by
  have hrec : Calm t { t with sockRecovery := Function.update t.sockRecovery pid true } :=
    ⟨rfl, rfl, rfl, fun _ => rfl, fun _ => .inl rfl, fun _ _ hv => hv⟩
  have hset : Calm t ({ t with sockRecovery := Function.update t.sockRecovery pid true }.setConn pid
      { t.conn pid with objState := .pause }) := hrec.trans (calm_setConn _ rfl)
  exact hset.trans (calm_close _ _)

@[simp] theorem socketFd_pauseConn (t : Net) (pid : Nat) :
    (t.pauseConn pid).socketFd = t.socketFd := rfl

end Net

namespace NetServer

open Net

variable {s s' : NetServer} {t c pid : Nat} {io : Io}

@[simp] theorem send_net (p : Payload) : (s.send pid io p).net = s.net := by
  unfold send
  split <;> rfl

@[simp] theorem setRest_socketFd (tail : Option Tail) :
    (s.setRest t tail).net.socketFd = s.net.socketFd := rfl

theorem setRest_calm (tail : Option Tail) : Calm s.net (s.setRest t tail).net :=
  ⟨rfl, rfl, rfl, fun _ => rfl, fun _ => .inl rfl, fun _ _ h => h⟩

theorem setPhase_calm {u : NetServer} {ph : Phase} (h : u.net = s.net) :
    Calm s.net (u.setPhase t c pid ph).net := by
  rw [← h]
  exact setRest_calm _

theorem chooseHalf_calm (h : Half) (flip : Bool) :
    Calm s.net (s.chooseHalf t c pid h flip).net := setPhase_calm rfl

theorem chooseBranch_calm (u : BmapUser) : Calm s.net (s.chooseBranch t c pid u).net := by
  unfold chooseBranch
  split
  · exact chooseHalf_calm _ _
  · have hset : Calm s.net (s.net.setConn pid { s.net.conn pid with objState := .inUse }) :=
      calm_setConn _ rfl
    exact hset.trans (chooseHalf_calm (s := { s with net := _ }) _ _)

theorem copyStep_calm {h : Half} {k : Nat} {flip : Bool}
    (hs : s.copyStep t c pid h k flip = some s') :
    Calm s.net s'.net ∧ s'.net.socketFd = s.net.socketFd := by
  unfold copyStep at hs
  dsimp only at hs
  split at hs
  · split at hs
    · cases hs
      exact ⟨setPhase_calm rfl, rfl⟩
    · cases hs
  · split at hs
    · split at hs
      · cases hs
        exact ⟨setPhase_calm rfl, rfl⟩
      · cases hs
    · cases hs
      exact ⟨setPhase_calm rfl, rfl⟩

theorem sendBitmap_net (s : NetServer) (t pid : Nat) (io : Io) :
    (s.sendBitmap t pid io).net = (s.setRest t none).net := by
  unfold sendBitmap setRest
  dsimp only
  split <;> rw [send_net]

theorem clearStep_calm (h : Half) (k : Nat) :
    Calm s.net (s.clearStep t c pid h k).net ∧
      (s.clearStep t c pid h k).net.socketFd = s.net.socketFd := by
  unfold clearStep
  dsimp only
  split
  · exact ⟨setPhase_calm rfl, rfl⟩
  · exact ⟨setRest_calm none, rfl⟩

/-- **Frame.** `get_bitmap` and `terminate` store no connection and no `socket_fd`. -/
theorem runPhase_calm {ph : Phase} (h : s.runPhase t c pid io ph = some s') :
    Calm s.net s'.net ∧ s'.net.socketFd = s.net.socketFd := by
  cases ph with
  | idle => cases h
  | created =>
    cases h
    exact ⟨setPhase_calm rfl, rfl⟩
  | indexed =>
    simp only [runPhase] at h
    split at h
    · cases h
      exact ⟨setPhase_calm rfl, rfl⟩
    · cases h
  | gotUser u =>
    rw [← Option.some.inj h]
    refine ⟨chooseBranch_calm u, ?_⟩
    unfold chooseBranch
    split <;> rfl
  | copying half k flip => exact copyStep_calm h
  | loaded =>
    rw [← Option.some.inj h, sendBitmap_net]
    exact ⟨setRest_calm none, rfl⟩
  | clearing half k =>
    rw [← Option.some.inj h]
    exact clearStep_calm half k

theorem terminate_calm (h : s.terminate t c pid = some s') :
    Calm s.net s'.net ∧ s'.net.socketFd = s.net.socketFd := by
  unfold terminate at h
  split at h
  · split at h
    · cases h
      exact ⟨setPhase_calm rfl, rfl⟩
    · cases h
  · cases h
    exact ⟨Calm.refl _, rfl⟩

theorem sendChunk_calm (content : Mem) : Calm s.net (s.sendChunk t c pid io content).net := by
  unfold sendChunk
  split
  · rw [send_net]
    exact Calm.refl _
  · exact (calm_pauseConn _ _).trans ⟨rfl, rfl, rfl, fun _ => rfl, fun _ => .inl rfl, fun _ _ h => h⟩

theorem sendChunk_socketFd (content : Mem) :
    (s.sendChunk t c pid io content).net.socketFd = s.net.socketFd := by
  unfold sendChunk
  split
  · rw [send_net]
  · rfl

/-- **Frame.** A handler other than `make_partner` stores no connection. -/
theorem handle_calm {hdr : ServerHeader} (hdr_make : ∀ q i b d z, hdr ≠ .makePartner q i b d z)
    (h : s.handle t c io hdr = some s') : Calm s.net s'.net := by
  cases hdr with
  | bitmapMetadata pid =>
    simp only [handle, getBitmap] at h
    obtain ⟨d, -, rfl⟩ := Option.map_eq_some_iff.mp h
    exact setPhase_calm rfl
  | data pid currPos chunkPos =>
    rw [← Option.some.inj h]
    unfold getData
    split
    · exact Calm.refl _
    · split
      · exact sendChunk_calm _
      · exact (calm_pauseConn _ _).trans
          ⟨rfl, rfl, rfl, fun _ => rfl, fun _ => .inl rfl, fun _ _ hv => hv⟩
  | makePartner q i b d z => exact absurd rfl (hdr_make q i b d z)
  | removePartner pid =>
    simp only [handle, removePartner] at h
    obtain ⟨d, -, rfl⟩ := Option.map_eq_some_iff.mp h
    exact (calm_close _ _).trans ⟨rfl, rfl, rfl, fun _ => rfl, fun _ => .inl rfl, fun _ _ hv => hv⟩
  | rmRelation rid =>
    obtain ⟨d, -, rfl⟩ := Option.map_eq_some_iff.mp h
    exact Calm.refl _
  | syn pid =>
    obtain ⟨d, -, rfl⟩ := Option.map_eq_some_iff.mp h
    dsimp only
    rw [send_net]
    exact Calm.refl _
  | ack pid =>
    cases h
    exact Calm.refl _
  | rplcTermination pid => exact (terminate_calm h).1
  | dataReq pid | verifyData pid =>
    simp only [handle] at h
    split at h
    · cases h
      rw [send_net]
      exact Calm.refl _
    · cases h

/-- **Frame.** Only `make_partner` and `remove_partner` change a `socket_fd`. -/
theorem handle_socketFd {hdr : ServerHeader} (hdr_make : ∀ q i b d z, hdr ≠ .makePartner q i b d z)
    (hdr_remove : ∀ q, hdr ≠ .removePartner q) (h : s.handle t c io hdr = some s') :
    s'.net.socketFd = s.net.socketFd := by
  cases hdr with
  | bitmapMetadata pid =>
    simp only [handle, getBitmap] at h
    obtain ⟨d, -, rfl⟩ := Option.map_eq_some_iff.mp h
    rfl
  | data pid currPos chunkPos =>
    rw [← Option.some.inj h]
    unfold getData
    split
    · rfl
    · split
      · exact sendChunk_socketFd _
      · rfl
  | makePartner q i b d z => exact absurd rfl (hdr_make q i b d z)
  | removePartner pid => exact absurd rfl (hdr_remove pid)
  | rmRelation rid =>
    obtain ⟨d, -, rfl⟩ := Option.map_eq_some_iff.mp h
    rfl
  | syn pid =>
    obtain ⟨d, -, rfl⟩ := Option.map_eq_some_iff.mp h
    dsimp only
    rw [send_net]
  | ack pid =>
    cases h
    rfl
  | rplcTermination pid => exact (terminate_calm h).2
  | dataReq pid | verifyData pid =>
    simp only [handle] at h
    split at h
    · cases h
      rw [send_net]
    · cases h

theorem created_update_none {thread : Nat → Option SendRecvThread} {t u k : Nat}
    (h : Function.update thread t none u = some (.created k)) : thread u = some (.created k) := by
  by_cases hu : u = t
  · rw [hu] at h
    simp at h
  · rwa [Function.update_of_ne hu] at h

theorem recvFails_calm (t : Nat) : Calm s.net (s.recvFails t).net := by
  unfold recvFails
  split
  · rename_i pid _ _ _
    have hclose := (calm_close s.net (s.net.conn pid).connFd).trans (calm_dropConnFd _ pid)
    exact hclose.trans ⟨rfl, rfl, rfl, fun _ => rfl, fun _ => .inl rfl, fun _ _ hv => hv⟩
  · exact ⟨rfl, rfl, rfl, fun _ => rfl, fun _ => .inl rfl, fun u k => created_update_none⟩

theorem goOn_calm {tail : Tail} (h : s.goOn t io tail = some s') : Calm s.net s'.net := by
  cases tail with
  | readFailed c pid =>
    rw [← Option.some.inj h]
    refine Calm.trans ?_ (sendChunk_calm _)
    exact (calm_dropConnFd _ _).trans
      ⟨rfl, rfl, rfl, fun _ => rfl, fun _ => .inl rfl, fun _ _ hv => hv⟩
  | sendFailed c pid =>
    rw [← Option.some.inj h]
    exact (calm_dropConnFd _ _).trans
      ⟨rfl, rfl, rfl, fun _ => rfl, fun _ => .inl rfl, fun _ _ hv => hv⟩
  | recvFailed pid =>
    rw [← Option.some.inj h]
    have hset : Calm s.net (s.net.setConn pid { s.net.conn pid with objState := .pause }) :=
      calm_setConn _ rfl
    exact hset.trans ⟨rfl, rfl, rfl, fun _ => rfl, fun _ => .inl rfl,
      fun u k hv => created_update_none (created_update_none hv)⟩
  | running c pid ph => exact (runPhase_calm h).1

theorem recoveryPass_calm (pid : Nat) : Calm s.net (s.recoveryPass pid).net := by
  unfold recoveryPass
  dsimp only
  split
  · exact ⟨rfl, rfl, rfl, fun _ => rfl, fun _ => .inl rfl, fun _ _ hv => hv⟩
  · exact Calm.refl _

/-- **Frame.** Only an accept, the start of a thread and a `MAKE_PARTNER` store a connection. -/
theorem step_calm {e : Event} (h : s.step e = some s')
    (hacc : ∀ n, e ≠ .accept n) (hstart : ∀ u, e ≠ .start u)
    (hmake : ∀ u d q i b k z o, e ≠ .recv u d (.makePartner q i b k z) o) : Calm s.net s'.net := by
  cases e with
  | accept n => exact absurd rfl (hacc n)
  | start u => exact absurd rfl (hstart u)
  | recv u d hdr o =>
    simp only [step] at h
    split at h
    · have hcalm := handle_calm (fun q i b k z heq => hmake u d q i b k z o (by rw [heq])) h
      have hlast : Calm s.net { s.net with last := Function.update s.net.last u (some hdr) } :=
        ⟨rfl, rfl, rfl, fun _ => rfl, fun _ => .inl rfl, fun _ _ hv => hv⟩
      exact hlast.trans hcalm
    · cases h
  | recvFails u =>
    simp only [step] at h
    split at h
    · split at h
      · cases h
        exact recvFails_calm u
      · cases h
    · cases h
  | goOn u o =>
    obtain ⟨tail, -, htail⟩ := Option.bind_eq_some_iff.mp h
    exact goOn_calm htail
  | recoveryPass q =>
    rw [← Option.some.inj h]
    exact recoveryPass_calm q
  | createDisk name size =>
    obtain ⟨d, -, rfl⟩ := Option.map_eq_some_iff.mp h
    exact Calm.refl _
  | saveIoctl =>
    simp only [step] at h
    split at h
    · cases h
      exact Calm.refl _
    · cases h
  | restoreIoctl =>
    obtain ⟨index, -, rfl⟩ := Option.map_eq_some_iff.mp h
    exact Calm.refl _
  | write q b =>
    rw [← Option.some.inj h]
    exact Calm.refl _

theorem recvFails_socketFd (t : Nat) : (s.recvFails t).net.socketFd = s.net.socketFd := by
  unfold recvFails
  split <;> rfl

theorem goOn_socketFd {tail : Tail} (h : s.goOn t io tail = some s') :
    s'.net.socketFd = s.net.socketFd := by
  cases tail with
  | readFailed c pid =>
    rw [← Option.some.inj h]
    exact sendChunk_socketFd _
  | sendFailed c pid | recvFailed pid =>
    rw [← Option.some.inj h]
    rfl
  | running c pid ph => exact (runPhase_calm h).2

/-- **Frame.** Only accepts, `make_partner`, `remove_partner` and the recovery thread change a
`socket_fd`. -/
theorem step_socketFd {e : Event} (h : s.step e = some s') (hacc : ∀ n, e ≠ .accept n)
    (hmake : ∀ u d q i b k z o, e ≠ .recv u d (.makePartner q i b k z) o)
    (hremove : ∀ u d q o, e ≠ .recv u d (.removePartner q) o)
    (hrec : ∀ q, e ≠ .recoveryPass q) : s'.net.socketFd = s.net.socketFd := by
  cases e with
  | accept n => exact absurd rfl (hacc n)
  | start u =>
    simp only [step] at h
    split at h
    · cases h
      rfl
    · cases h
  | recv u d hdr o =>
    simp only [step] at h
    split at h
    · have hfd := handle_socketFd (fun q i b k z heq => hmake u d q i b k z o (by rw [heq]))
        (fun q heq => hremove u d q o (by rw [heq])) h
      exact hfd
    · cases h
  | recvFails u =>
    simp only [step] at h
    split at h
    · split at h
      · cases h
        exact recvFails_socketFd u
      · cases h
    · cases h
  | goOn u o =>
    obtain ⟨tail, -, htail⟩ := Option.bind_eq_some_iff.mp h
    exact goOn_socketFd htail
  | recoveryPass q => exact absurd rfl (hrec q)
  | createDisk name size =>
    obtain ⟨d, -, rfl⟩ := Option.map_eq_some_iff.mp h
    rfl
  | saveIoctl =>
    simp only [step] at h
    split at h
    · cases h
      rfl
    · cases h
  | restoreIoctl =>
    obtain ⟨index, -, rfl⟩ := Option.map_eq_some_iff.mp h
    rfl
  | write q b =>
    rw [← Option.some.inj h]
    rfl

/-- **Frame.** Only an accept opens a descriptor. -/
theorem step_sock {e : Event} (h : s.step e = some s') (hacc : ∀ n, e ≠ .accept n) :
    (∀ n, s'.net.sock n = s.net.sock n ∨ s'.net.sock n = none) ∧
      s'.net.nextConn = s.net.nextConn := by
  by_cases hstart : ∃ u, e = .start u
  · obtain ⟨u, rfl⟩ := hstart
    simp only [step] at h
    split at h
    · cases h
      exact ⟨fun _ => .inl rfl, rfl⟩
    · cases h
  · by_cases hmake : ∃ u d q i b k z o, e = .recv u d (.makePartner q i b k z) o
    · obtain ⟨u, d, q, i, b, k, z, o, rfl⟩ := hmake
      simp only [step] at h
      split at h
      · simp only [handle, makePartner] at h
        obtain ⟨daemon, -, rfl⟩ := Option.map_eq_some_iff.mp h
        exact ⟨fun _ => .inl rfl, rfl⟩
      · cases h
    · have hcalm := step_calm h hacc (fun u heq => hstart ⟨u, heq⟩)
        fun u d q i b k z o heq => hmake ⟨u, d, q, i, b, k, z, o, heq⟩
      exact ⟨hcalm.sock, hcalm.nextConn⟩

/-! ### What an accept does -/

/-- The slot that the handler thread will read from its entry. -/
def takenPid (s : NetServer) : Choice → Nat
  | .first => 0
  | .resume pid | .recover pid => pid
  | .full pid | .create pid | .unmatched pid => (s.net.entry pid).pid

/-- The effect of an accept on the connections, by the choice it made. -/
structure AcceptStep (s s' : NetServer) (n : Int) (ch : Choice) : Prop where
  free : s.net.sock n = none
  sock : s'.net.sock = Function.update s.net.sock n (some s.net.nextConn)
  nextConn : s'.net.nextConn = s.net.nextConn + 1
  shared : s'.net.shared = { s.net.shared with
    connFd := ⟨n, s.net.nextConn⟩
    stored := ⟨n, s.net.nextConn⟩ }
  entry : s'.net.entry =
    Function.update s.net.entry ch.pid ⟨⟨n, s.net.nextConn⟩, s.takenPid ch⟩
  thread : s'.net.thread = Function.update s.net.thread s.net.nextConn (some (.created ch.pid))
  conn : ∀ pid, ch.resumed ≠ some pid → s'.net.conn pid = s.net.conn pid
  resumedConn : ∀ pid, ch.resumed = some pid → (s'.net.conn pid).stored = ⟨n, s.net.nextConn⟩
  socketFd : ∀ pid, s'.net.socketFd pid =
    if ch.resumed = some pid then ⟨n, s.net.nextConn⟩ else s.net.socketFd pid

theorem scan_accepted (s : NetServer) (n : Int) (fuel pid : Nat) :
    (s.accepted n).scan fuel pid = s.reload.scan fuel pid := by
  induction fuel generalizing pid with
  | zero => rfl
  | succ fuel ih =>
    rw [scan, scan, ih]
    rfl

theorem choose_accepted (s : NetServer) (n : Int) : (s.accepted n).choose = s.reload.choose := by
  rw [choose, choose, scan_accepted]
  rfl

theorem acceptStep_of_step {n : Int} (h : s.acceptConn n = some s') :
    AcceptStep s s' n s.reload.choose := by
  unfold acceptConn at h
  split at h
  · rename_i hguard
    rw [← Option.some.inj h, choose_accepted]
    cases s.reload.choose with
    | first | full pid | create pid | unmatched pid =>
      refine ⟨hguard.2.1, rfl, rfl, rfl, ?_, rfl, fun _ _ => rfl, nofun, fun _ => rfl⟩
      simp [applyChoice, createThread, accepted, reload, takenPid, Choice.pid]
    | resume pid | recover pid =>
      refine ⟨hguard.2.1, rfl, rfl, rfl, ?_, rfl, fun q hq => ?_, fun q hq => ?_, fun q => ?_⟩
      · simp [applyChoice, createThread, accepted, reload, takenPid, Choice.pid]
      · have hne : q ≠ pid := fun heq => hq (by rw [heq]; rfl)
        exact Function.update_of_ne hne _ _
      · obtain rfl : pid = q := Option.some.inj hq
        simp [applyChoice, createThread, accepted, reload, setConn]
      · by_cases hq : q = pid
        · subst hq
          simp [applyChoice, createThread, accepted, reload, Choice.resumed]
        · simp [applyChoice, createThread, accepted, reload, Choice.resumed,
            Function.update_of_ne hq, Ne.symm hq]
  · cases h

end NetServer

end Ebdr
