import Ebdr.Lib.ByteStream
import Ebdr.Client.Streams

/-!
# One connection

The client of one partner and the server's `send_recv` thread for it, over the two byte streams of
their connection. It starts after the negotiation, when nothing is on the way.

Every call on the connection may fail or transfer fewer bytes than it was asked for: the result of a
`send`, `recv` or `read` is part of the event, `none` for a negative one. A `recv` returns 0 at the
end of the stream only. The program looks at the sign of these results and at nothing else.
-/

namespace Ebdr

open ByteMem CInt Lts

/-- `sizeof(replic_header)`. -/
def headerSize : Nat := 280

/-- `BUF_SIZE_IN_BYTES`. -/
def bufSizeInBytes : Nat := 4096

/-- The values of `enum proto_opcode_t`. -/
def Opcode.code : Opcode → Nat
  | .ack => 2
  | .bitmapMetadata => 3
  | .data => 4
  | .rplcTermination => 5

/-- What the two sides hold for the partner since the negotiation. -/
structure Config where
  pid : Nat
  pid_lt : pid < 2 ^ 31
  /-- The fields of `replic_hdr_client_obj[pid]` that no longer change. -/
  rest : Mem
  /-- The sizes in `replic_hdr_client_obj[pid]`. -/
  client : Geometry
  /-- The sizes in `replic_hdr_server_obj[pid]`. -/
  server : Geometry

/-- The bytes of the header object: `opcode`, `curr_pos`, `chunk_pos` and `partner_id`. -/
def ClientHeader.encode (cfg : Config) (h : ClientHeader) : Mem :=
  storeLE (storeLE (storeLE (storeLE cfg.rest 4 4 h.opcode.code) 48 8 h.currPos) 56 8 h.chunkPos)
    192 4 cfg.pid

/-- Where the server's thread stands. -/
inductive ServerPhase where
  /-- At the `recv` of `ebdr_conn_server_recv`. -/
  | recvHeader
  /-- Before the search in `cmdMap`. -/
  | dispatch
  /-- In `get_data`, before `chunk_write`. -/
  | chunkWrite
  | returned
  deriving DecidableEq, Repr

/-- What one `chunk_read_server` read. This is no data of the program. -/
structure Served where
  startLba : Nat
  /-- The result of `read`. -/
  size : Nat
  bytes : Mem

structure ServerThread where
  phase : ServerPhase
  /-- `rep_hdr_rcvd`. -/
  header : Mem
  rbuff : Mem
  /-- The connection's socket is open. -/
  socketUp : Bool
  /-- `io_server_obj[pid].obj_state`. -/
  ioState : IoObjState
  /-- `all_partner_servers[pid].obj_state`. -/
  partnerState : PartnerObjState
  /-- The reads for `DATA` headers, the last one first. -/
  served : List Served

/-- The streams and the server's end. -/
structure Conn where
  toServer : Stream
  toClient : Stream
  server : ServerThread
  /-- The number of `DATA` headers the client has sent. -/
  asked : Nat

inductive ServerEvent where
  | recvHeader (r : Option Nat)
  /-- The bitmap is `m`. -/
  | getBitmap (m : Mem) (r : Option Nat)
  /-- The source has the bytes of `m` at this place. -/
  | getData (r : Option Nat) (m : Mem)
  | chunkWrite (r : Option Nat)
  | terminate
  /-- Another opcode or another partner: some bytes may be sent. -/
  | other (m : Mem) (k : Nat)

/-- What a `recv` of `size` bytes may return. -/
def Delivers (s : Stream) (senderUp : Bool) (size n : Nat) : Prop :=
  n ≤ size ∧ n ≤ s.pending ∧ (n = 0 → s.pending = 0 ∧ senderUp = false)

instance (s : Stream) (senderUp : Bool) (size n : Nat) : Decidable (Delivers s senderUp size n) := by
  unfold Delivers
  infer_instance

/-! ### The server -/

namespace ServerThread

def opcode (t : ServerThread) : Nat := loadLE t.header 4 4

def currPos (t : ServerThread) : Nat := loadLE t.header 48 8

def chunkPos (t : ServerThread) : Nat := loadLE t.header 56 8

def partnerId (t : ServerThread) : Nat := loadLE t.header 192 4

/-- The search finds the opcode `o`, and the header is about the partner. -/
def Finds (cfg : Config) (t : ServerThread) (o : Opcode) : Prop :=
  t.phase = .dispatch ∧ t.opcode = o.code ∧ t.partnerId = cfg.pid

instance (cfg : Config) (t : ServerThread) (o : Opcode) : Decidable (t.Finds cfg o) := by
  unfold Finds
  infer_instance

end ServerThread

namespace Conn

/-- The receive of `ebdr_conn_server_recv`. -/
def recvHeader (c : Conn) (clientUp : Bool) : Option Nat → Option Conn
  | none =>
    if c.server.opcode = Opcode.data.code then
      some { c with server := { c.server with phase := .returned, socketUp := false } }
    else some { c with server := { c.server with phase := .returned } }
  | some n =>
    if c.server.socketUp = true ∧ Delivers c.toServer clientUp headerSize n then
      some { c with
        toServer := c.toServer.take n
        server := { c.server with
          phase := .dispatch
          header := c.toServer.fill c.server.header n } }
    else none

/-- `get_bitmap`. -/
def getBitmap (c : Conn) (m : Mem) (r : Option Nat) : Option Conn :=
  let state :=
    if c.server.partnerState = .released then .inUse else c.server.partnerState
  match r with
  | none => some { c with server := { c.server with phase := .recvHeader, partnerState := state } }
  | some k =>
    if c.server.socketUp = true ∧ k ≤ bitmapSizeMax then
      some { c with
        toClient := c.toClient.send m k
        server := { c.server with
          phase := .recvHeader
          partnerState := state
          ioState := .inUse } }
    else none

/-- `get_data` up to its `chunk_write`. -/
def getData (cfg : Config) (c : Conn) (r : Option Nat) (m : Mem) : Option Conn :=
  if c.server.ioState = .released then
    some { c with server := { c.server with phase := .recvHeader, rbuff := fun _ => 0 } }
  else
    match r with
    | none =>
      some { c with
        server := { c.server with
          phase := .chunkWrite
          rbuff := fun _ => 0
          socketUp := false } }
    | some k =>
      if k ≤ bufSizeInBytes then
        let lba := cfg.server.startLba c.server.currPos c.server.chunkPos
        some { c with
          server := { c.server with
            phase := .chunkWrite
            rbuff := copyBytes (fun _ => 0) 0 m 0 k
            served := ⟨lba, k, m⟩ :: c.server.served } }
      else none

/-- The `chunk_write` of `get_data`. -/
def chunkWrite (c : Conn) : Option Nat → Option Conn
  | none => some { c with server := { c.server with phase := .recvHeader, socketUp := false } }
  | some k =>
    if c.server.socketUp = true ∧ k ≤ bufSizeInBytes then
      some { c with
        toClient := c.toClient.send c.server.rbuff k
        server := { c.server with phase := .recvHeader } }
    else none

/-- `terminate`. -/
def terminate (c : Conn) : Conn :=
  if c.server.partnerState ≠ .released then
    { c with
      server := { c.server with
        phase := .recvHeader
        partnerState := .released
        ioState := .released } }
  else { c with server := { c.server with phase := .recvHeader } }

def serverStep (cfg : Config) (clientUp : Bool) (c : Conn) : ServerEvent → Option Conn
  | .recvHeader r => if c.server.phase = .recvHeader then c.recvHeader clientUp r else none
  | .getBitmap m r => if c.server.Finds cfg .bitmapMetadata then c.getBitmap m r else none
  | .getData r m => if c.server.Finds cfg .data then c.getData cfg r m else none
  | .chunkWrite r => if c.server.phase = .chunkWrite then c.chunkWrite r else none
  | .terminate => if c.server.Finds cfg .rplcTermination then some c.terminate else none
  | .other m k =>
    if c.server.phase = .dispatch ∧ ¬ c.server.Finds cfg .bitmapMetadata ∧
        ¬ c.server.Finds cfg .data ∧ ¬ c.server.Finds cfg .rplcTermination then
      some { c with
        toClient := c.toClient.send m k
        server := { c.server with phase := .recvHeader } }
    else none

end Conn

/-! ### Both sides -/

structure Link where
  client : Client
  /-- The `buff` of each resync thread. -/
  buff : Nat → Mem
  conn : Conn

inductive LinkEvent where
  | client (e : Client.Event)
  /-- A resync thread sends its header. -/
  | send (tid : Nat) (r : Option Nat)
  /-- `chunk_read_client`; `timedOut` is the test of `errno`. -/
  | recv (tid : Nat) (r : Option Nat) (timedOut : Bool)
  | metadata (r : Option Nat)
  | bitmap (n : Nat)
  | server (e : ServerEvent)

namespace Link

open Client

/-- The event does not use the connection, and does not replace it. -/
def Apart (s : Client) : Client.Event → Prop
  | .metadata | .bitmap _ => False
  | .run tid _ =>
    match s.phaseOf tid with
    | some (.send _ _) | some (.recv _ _) | some .sendTermination => False
    | _ => True
  | .recoveryConn => s.connState ≠ .pause
  | .resync | .pause | .resume | .recoveryDisk | .endCancelled _ => True

instance instDecidableApart (s : Client) : (e : Client.Event) → Decidable (Apart s e)
  | .run tid _ => by
    unfold Apart
    dsimp only
    split <;> infer_instance
  | .metadata | .bitmap _ => isFalse id
  | .recoveryConn => inferInstanceAs (Decidable (s.connState ≠ .pause))
  | .resync | .pause | .resume | .recoveryDisk | .endCancelled _ => isTrue trivial

/-- What a `send` of a header may return. -/
def Accepts (s : Client) : Option Nat → Prop
  | none => True
  | some k => k ≤ headerSize ∧ s.socketUp = true

instance (s : Client) (r : Option Nat) : Decidable (Accepts s r) := by
  unfold Accepts
  split <;> infer_instance

/-- The stream to the server after the `send` of a header. -/
def sendHeader (cfg : Config) (l : Link) (h : ClientHeader) : Option Nat → Stream
  | none => l.conn.toServer
  | some k => l.conn.toServer.send (h.encode cfg) k

/-- `do_ebdr_conn_send` in a resync thread. -/
def send (cfg : Config) (l : Link) (tid : Nat) (r : Option Nat) : Option Link :=
  let toServer := l.sendHeader cfg l.client.header r
  match l.client.phaseOf tid with
  | some (.send _ _) =>
    let asked := if r.isSome = true then l.conn.asked + 1 else l.conn.asked
    (l.client.step cfg.client (.run tid r.isSome)).map fun c =>
      ⟨c, l.buff, { l.conn with toServer := toServer, asked := asked }⟩
  | some .sendTermination =>
    (l.client.step cfg.client (.run tid true)).map fun c =>
      ⟨c, l.buff, { l.conn with toServer := toServer }⟩
  | _ => none

/-- `chunk_read_client`. -/
def recv (cfg : Config) (l : Link) (tid : Nat) (r : Option Nat) (timedOut : Bool) : Option Link :=
  match l.client.phaseOf tid with
  | some (.recv _ _) =>
    match r with
    | none =>
      (l.client.step cfg.client (.run tid false)).map fun c => ⟨c, l.buff, l.conn⟩
    | some n =>
      if l.client.socketUp = true ∧
          Delivers l.conn.toClient l.conn.server.socketUp bufSizeInBytes n then
        (l.client.step cfg.client (.run tid !timedOut)).map fun c =>
          ⟨c, Function.update l.buff tid (l.conn.toClient.fill (l.buff tid) n),
            { l.conn with toClient := l.conn.toClient.take n }⟩
      else none
  | _ => none

def step (cfg : Config) (l : Link) : LinkEvent → Option Link
  | .client e =>
    if Apart l.client e then
      (l.client.step cfg.client e).map fun c => ⟨c, l.buff, l.conn⟩
    else none
  | .send tid r => if Accepts l.client r then l.send cfg tid r else none
  | .recv tid r timedOut => l.recv cfg tid r timedOut
  | .metadata r =>
    if Accepts l.client r then
      (l.client.step cfg.client .metadata).map fun c =>
        ⟨c, l.buff, { l.conn with toServer := l.sendHeader cfg c.header r }⟩
    else none
  | .bitmap n =>
    if l.client.socketUp = true ∧
        Delivers l.conn.toClient l.conn.server.socketUp bitmapSizeMax n then
      (l.client.step cfg.client (.bitmap (l.conn.toClient.fill (fun _ => 0) n))).map fun c =>
        ⟨c, l.buff, { l.conn with toClient := l.conn.toClient.take n }⟩
    else none
  | .server e =>
    (l.conn.serverStep cfg l.client.socketUp e).map fun c => ⟨l.client, l.buff, c⟩

/-- After the negotiation. The server's header and the buffers hold anything. -/
def boot (header : Mem) (buff : Nat → Mem) : Link where
  client := Client.boot
  buff := buff
  conn :=
    { toServer := .empty
      toClient := .empty
      server := ⟨.recvHeader, header, fun _ => 0, true, .free, .inUse, []⟩
      asked := 0 }

/-! ### The header's fields at the server -/

theorem opcode_encode (cfg : Config) (h : ClientHeader) :
    loadLE (h.encode cfg) 4 4 = h.opcode.code := by
  rw [ClientHeader.encode, loadLE_storeLE_of_disjoint (by omega),
    loadLE_storeLE_of_disjoint (by omega), loadLE_storeLE_of_disjoint (by omega), loadLE_storeLE]
  cases h.opcode <;> rfl

theorem currPos_encode (cfg : Config) (h : ClientHeader) :
    loadLE (h.encode cfg) 48 8 = ulong h.currPos := by
  rw [ClientHeader.encode, loadLE_storeLE_of_disjoint (by omega),
    loadLE_storeLE_of_disjoint (by omega), loadLE_storeLE, ulong]

theorem chunkPos_encode (cfg : Config) (h : ClientHeader) :
    loadLE (h.encode cfg) 56 8 = ulong h.chunkPos := by
  rw [ClientHeader.encode, loadLE_storeLE_of_disjoint (by omega), loadLE_storeLE, ulong]

theorem partnerId_encode (cfg : Config) (h : ClientHeader) :
    loadLE (h.encode cfg) 192 4 = cfg.pid := by
  have hlt := cfg.pid_lt
  rw [ClientHeader.encode, loadLE_storeLE]
  apply Nat.mod_eq_of_lt
  omega

end Link

end Ebdr
