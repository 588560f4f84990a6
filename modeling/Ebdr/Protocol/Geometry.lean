import Ebdr.Database.ServerObjects
import Ebdr.Lib.Lts

/-!
# Where a chunk lives

Each side computes the first sector of a chunk from its own header table: the client in
`restart_resync`, after it sent the `DATA` header, the server in `get_data`. `MAKE_PARTNER` and
`mkrelation` store sizes into the server's table, `mkpartner` and `mkrelationpeer` into the client's,
and a `SYN_ACK` carries those of the server to the client.

`version pid` counts the times that the server's table got another geometry, and `agreed pid` is the
version whose sizes the client has. Both sides compute the same sector for the headers that are sent
while the client has the last version, if neither table changes while a header is on its way.
-/

namespace Ebdr

open CInt Lts

/-- As parameters of `start_protocol_negotiation`, which are `unsigned int`. -/
def HeaderSizes.toUint (z : HeaderSizes) : HeaderSizes :=
  ⟨uint z.bitmapSize, uint z.grainSize, uint z.chunkSize⟩

/-- A `DATA` header. The number is no data of the program. -/
structure DataHeader where
  number : Nat
  pid : Nat
  currPos : Nat
  chunkPos : Nat
  sizes : HeaderSizes
  deriving DecidableEq, Repr

/-- The headers of the client that have to do with the sizes. -/
inductive SentHeader where
  | makePartner (pid : Nat) (destIp : String) (bandwidth : Nat) (disk : String) (sizes : HeaderSizes)
  | syn (pid : Nat)
  | ack (pid : Nat)
  | data (d : DataHeader)
  deriving DecidableEq, Repr

/-- What the server sends. -/
inductive SentReply where
  /-- With the version of the sizes, which the program does not send. -/
  | synAck (pid version : Nat) (sizes : HeaderSizes)
  | chunk
  deriving DecidableEq, Repr

/-- A `mkrelationpeer` command that waits for the `SYN_ACK`. -/
structure Negotiation where
  pid : Nat
  role : Nat
  targetDisk : String
  deriving DecidableEq, Repr

/-- A client and its server. -/
structure Pair where
  client : ClientDaemon
  /-- `replic_hdr_client_obj`. -/
  clientHdr : Nat → HeaderSizes
  /-- The connection of `all_partner_clients[pid].socket_fd`. -/
  socket : Nat → Nat
  waiting : Option Negotiation
  /-- Resync threads between the send of a header and the computation of `start_lba`. -/
  computing : List DataHeader
  server : ServerDaemon
  /-- What is on its way, with its connection. -/
  toServer : List (Nat × SentHeader)
  toClient : List (Nat × SentReply)
  /-- The client has read a connection past the end of a message. -/
  misread : Nat → Bool
  nextConn : Nat
  nextNumber : Nat
  /-- The `start_lba`s that were computed. -/
  clientLba : List (DataHeader × Nat)
  serverLba : List (DataHeader × Nat)
  version : Nat → Nat
  agreed : Nat → Option Nat

namespace Pair

/-- The oldest message on a connection. -/
def firstOn {α : Type} (conn : Nat) (msgs : List (Nat × α)) : Option α :=
  (msgs.find? fun m => m.1 = conn).map Prod.snd

def restOn {α : Type} (conn : Nat) (msgs : List (Nat × α)) : List (Nat × α) :=
  msgs.eraseP fun m => m.1 = conn

def setServer (s : Pair) (server : ServerDaemon) : Pair :=
  { s with
    server := server
    version := fun q =>
      if (server.replicHdr q).geometry = (s.server.replicHdr q).geometry then s.version q
      else s.version q + 1 }

def setHdr (s : Pair) (pid : Nat) (z : HeaderSizes) : Pair :=
  { s with
    clientHdr := Function.update s.clientHdr pid z
    agreed :=
      if z.geometry = (s.clientHdr pid).geometry then s.agreed
      else Function.update s.agreed pid none }

/-! ### The client -/

/-- The `p` command: `make_partner_with_server`. -/
def mkpartner (s : Pair) (ip : String) (bandwidth : Nat) (disk : String) (sizes : HeaderSizes) :
    Option Pair :=
  if s.waiting = none then
    (ClientDaemon.getNewPartnerClientId s.client.objects).bind fun pid =>
      (s.client.makePartner ip bandwidth).map fun c =>
        { s.setHdr pid sizes with
          client := c
          socket := Function.update s.socket pid s.nextConn
          toServer := s.toServer ++ [(s.nextConn, .makePartner pid ip bandwidth disk sizes)]
          nextConn := s.nextConn + 1 }
  else none

/-- The `y` command up to the `SYN`. -/
def mkrelationpeer (s : Pair) (pid role : Nat) (targetDisk : String) (sizes : HeaderSizes) :
    Option Pair :=
  if s.waiting = none then
    if s.client.objects.isPartnerIdValid pid = true then
      if s.client.repConn pid = true then
        some { s.setHdr pid sizes.toUint with
          waiting := some ⟨pid, role, targetDisk⟩
          toServer := s.toServer ++ [(s.socket pid, .syn pid)] }
      else none
    else some s
  else none

/-- The `SYN_ACK` of the partner, if it is what comes next. -/
def synAckFor (s : Pair) (pid : Nat) : Option (Nat × HeaderSizes) :=
  match firstOn (s.socket pid) s.toClient with
  | some (.synAck q v z) =>
    if q = pid ∧ s.misread (s.socket pid) = false then some (v, z) else none
  | _ => none

/-- The sizes that come with the next header. They are `garbage` when it is none. -/
def received (s : Pair) (pid : Nat) (garbage : HeaderSizes) : HeaderSizes :=
  ((s.synAckFor pid).map Prod.snd).getD garbage

/-- The `y` command from its `recv` on. -/
def recvSynAck (s : Pair) (garbage : HeaderSizes) (opened : Bool) : Option Pair :=
  s.waiting.bind fun w =>
    if (firstOn (s.socket w.pid) s.toClient).isSome = true then
      let z := s.received w.pid garbage
      (s.client.makeRelation w.pid w.role w.targetDisk z opened).map fun c =>
        let s' := s.setHdr w.pid z
        { s' with
          client := c
          agreed := (s.synAckFor w.pid).elim s'.agreed fun a =>
            Function.update s.agreed w.pid (some a.1)
          misread := Function.update s.misread (s.socket w.pid)
            (s.misread (s.socket w.pid) || (s.synAckFor w.pid).isNone)
          waiting := none
          toClient := restOn (s.socket w.pid) s.toClient
          toServer := s.toServer ++ [(s.socket w.pid, .ack w.pid)] }
    else none

/-- A resync thread sends a `DATA` header. -/
def sendData (s : Pair) (pid currPos chunkPos : Nat) : Option Pair :=
  if s.client.repConn pid = true then
    let d : DataHeader := ⟨s.nextNumber, pid, currPos, chunkPos, s.clientHdr pid⟩
    some { s with
      toServer := s.toServer ++ [(s.socket pid, .data d)]
      computing := s.computing ++ [d]
      nextNumber := s.nextNumber + 1 }
  else none

/-- It computes `start_lba`. -/
def computeLba (s : Pair) (d : DataHeader) : Option Pair :=
  if d ∈ s.computing then
    some { s with
      computing := s.computing.erase d
      clientLba := s.clientLba ++
        [(d, (s.clientHdr d.pid).geometry.startLba d.currPos d.chunkPos)] }
  else none

/-- It reads a chunk, or whatever comes. -/
def readChunk (s : Pair) (pid : Nat) : Option Pair :=
  (firstOn (s.socket pid) s.toClient).map fun m =>
    { s with
      toClient := restOn (s.socket pid) s.toClient
      misread := Function.update s.misread (s.socket pid)
        (s.misread (s.socket pid) || decide (m ≠ .chunk)) }

/-! ### The server -/

/-- A `send_recv` thread handles a header, and replies on its connection; `ok` tells whether `get_data`
reads and sends. -/
def serve (s : Pair) (conn : Nat) (ok : Bool) : Option Pair :=
  (firstOn conn s.toServer).bind fun m =>
    let s := { s with toServer := restOn conn s.toServer }
    match m with
    | .makePartner pid destIp bandwidth disk sizes =>
      (s.server.makePartner pid destIp bandwidth disk sizes).map s.setServer
    | .syn pid =>
      (s.server.synReceived pid).map fun d =>
        { s.setServer d with
          toClient := s.toClient ++
            [(conn, .synAck pid (s.version pid) (s.server.replicHdr pid))] }
    | .ack _ => some s
    | .data d =>
      some { s with
        serverLba := s.serverLba ++
          [(d, (s.server.replicHdr d.pid).geometry.startLba d.currPos d.chunkPos)]
        toClient := if ok = true then s.toClient ++ [(conn, .chunk)] else s.toClient }

/-! ### The system -/

/-- The operations of the client that leave its header table. -/
def clientKeepsHdr : ClientDaemon.Op → Bool
  | .makePartner .. | .makeRelation .. => false
  | _ => true

/-- The operations of the server that leave its header table. -/
def serverKeepsHdr : ServerDaemon.Op → Bool
  | .makePartner .. | .makeRelation .. | .syn _ => false
  | _ => true

inductive Event where
  | mkpartner (ip : String) (bandwidth : Nat) (disk : String) (sizes : HeaderSizes)
  | mkrelationpeer (pid role : Nat) (targetDisk : String) (sizes : HeaderSizes)
  | recvSynAck (garbage : HeaderSizes) (opened : Bool)
  /-- The `x` command on the server. -/
  | mkrelation (pid role : Nat) (srcDisk : String) (sizes : HeaderSizes)
  | sendData (pid currPos chunkPos : Nat)
  | computeLba (d : DataHeader)
  | readChunk (pid : Nat)
  | serve (conn : Nat) (ok : Bool)
  | client (op : ClientDaemon.Op)
  | server (op : ServerDaemon.Op)
  /-- The client connects a partner again. -/
  | reconnect (pid : Nat)
  /-- A connection is closed. -/
  | close (conn : Nat)

def step (s : Pair) : Event → Option Pair
  | .mkpartner ip bandwidth disk sizes => s.mkpartner ip bandwidth disk sizes
  | .mkrelationpeer pid role targetDisk sizes => s.mkrelationpeer pid role targetDisk sizes
  | .recvSynAck garbage opened => s.recvSynAck garbage opened
  | .mkrelation pid role srcDisk sizes =>
    some (s.setServer (s.server.makeRelation pid role srcDisk sizes))
  | .sendData pid currPos chunkPos => s.sendData pid currPos chunkPos
  | .computeLba d => s.computeLba d
  | .readChunk pid => s.readChunk pid
  | .serve conn ok => s.serve conn ok
  | .client op =>
    if clientKeepsHdr op = true then (s.client.step op).map fun c => { s with client := c } else none
  | .server op =>
    if serverKeepsHdr op = true then (s.server.step op).map s.setServer else none
  | .reconnect pid =>
    some { s with
      socket := Function.update s.socket pid s.nextConn
      nextConn := s.nextConn + 1 }
  | .close conn =>
    some { s with
      toServer := s.toServer.filter fun m => m.1 ≠ conn
      toClient := s.toClient.filter fun m => m.1 ≠ conn }

def boot : Pair where
  client := .boot
  clientHdr := fun _ => ⟨0, 0, 0⟩
  socket := fun _ => 0
  waiting := none
  computing := []
  server := .boot
  toServer := []
  toClient := []
  misread := fun _ => false
  nextConn := 1
  nextNumber := 0
  clientLba := []
  serverLba := []
  version := fun _ => 0
  agreed := fun _ => none

/-! ### The property and its condition -/

/-- What both sides compute for a header is the same. -/
def SameLba (s : Pair) : Prop :=
  ∀ d a b, (d, a) ∈ s.clientLba → (d, b) ∈ s.serverLba → a = b

/-- The client may store the sizes: they are the ones it has, or no resync thread of the partner is
about to use them. -/
def ClientMay (s : Pair) (pid : Nat) (z : HeaderSizes) : Prop :=
  z.geometry = (s.clientHdr pid).geometry ∨ ∀ d ∈ s.computing, d.pid ≠ pid

/-- The header is a `DATA` header of the partner. -/
def SentHeader.isDataOf (pid : Nat) : SentHeader → Bool
  | .data d => d.pid = pid
  | _ => false

/-- The server may store the sizes: they are the ones it has, or no `DATA` header of the partner is
on its way. -/
def ServerMay (s : Pair) (pid : Nat) (z : HeaderSizes) : Prop :=
  z.geometry = (s.server.replicHdr pid).geometry ∨
    ∀ m ∈ s.toServer, SentHeader.isDataOf pid m.2 = false

/-- The handler of the header may store its sizes. -/
def HandlerMay (s : Pair) : SentHeader → Prop
  | .makePartner pid _ _ _ sizes => s.ServerMay pid sizes
  | _ => True

/-- The `DATA` headers are sent with the sizes of the last `SYN_ACK`, and other sizes are stored when
no header needs the old ones. -/
def GeometryOk (s : Pair) : Event → Prop
  | .mkpartner _ _ _ sizes =>
    ∀ pid ∈ ClientDaemon.getNewPartnerClientId s.client.objects, s.ClientMay pid sizes
  | .mkrelationpeer pid _ _ sizes => s.ClientMay pid sizes.toUint
  | .recvSynAck garbage _ => ∀ w ∈ s.waiting, s.ClientMay w.pid (s.received w.pid garbage)
  | .mkrelation pid _ _ sizes => s.ServerMay pid sizes
  | .serve conn _ => ∀ m ∈ firstOn conn s.toServer, s.HandlerMay m
  | .sendData pid _ _ => s.agreed pid = some (s.version pid)
  | _ => True

instance (s : Pair) (pid : Nat) (z : HeaderSizes) : Decidable (s.ClientMay pid z) :=
  inferInstanceAs (Decidable (_ ∨ _))

instance (s : Pair) (pid : Nat) (z : HeaderSizes) : Decidable (s.ServerMay pid z) :=
  inferInstanceAs (Decidable (_ ∨ _))

instance (s : Pair) (m : SentHeader) : Decidable (s.HandlerMay m) := by
  unfold HandlerMay
  split <;> infer_instance

instance (s : Pair) (e : Event) : Decidable (s.GeometryOk e) := by
  unfold GeometryOk
  split <;> infer_instance

/-! ### The invariant -/

/-- The headers that are needed yet carry the sizes in the table of the side that needs them. -/
structure Inv (s : Pair) : Prop where
  toServer : ∀ m ∈ s.toServer, ∀ d, m.2 = .data d →
    d.sizes.geometry = (s.server.replicHdr d.pid).geometry
  computing : ∀ d ∈ s.computing, d.sizes.geometry = (s.clientHdr d.pid).geometry
  clientLba : ∀ x ∈ s.clientLba, x.2 = x.1.sizes.geometry.startLba x.1.currPos x.1.chunkPos
  serverLba : ∀ x ∈ s.serverLba, x.2 = x.1.sizes.geometry.startLba x.1.currPos x.1.chunkPos
  agreed : ∀ pid v, s.agreed pid = some v → v ≤ s.version pid ∧
    (v = s.version pid → (s.clientHdr pid).geometry = (s.server.replicHdr pid).geometry)
  synAck : ∀ m ∈ s.toClient, ∀ pid v z, m.2 = .synAck pid v z → v ≤ s.version pid ∧
    (v = s.version pid → z.geometry = (s.server.replicHdr pid).geometry)

variable {s s' : Pair}

theorem Inv.sameLba (hi : Inv s) : SameLba s :=
  fun _ _ _ ha hb => (hi.clientLba _ ha).trans (hi.serverLba _ hb).symm

theorem inv_boot : Inv boot where
  toServer := nofun
  computing := nofun
  clientLba := nofun
  serverLba := nofun
  agreed := nofun
  synAck := nofun

theorem mem_restOn {α : Type} {conn : Nat} {msgs : List (Nat × α)} {m : Nat × α}
    (h : m ∈ restOn conn msgs) : m ∈ msgs := List.mem_of_mem_eraseP h

theorem mem_of_firstOn {α : Type} {conn : Nat} {msgs : List (Nat × α)} {x : α}
    (h : firstOn conn msgs = some x) : ∃ m ∈ msgs, m.2 = x := by
  obtain ⟨m, hm, rfl⟩ := Option.map_eq_some_iff.mp h
  exact ⟨m, List.mem_of_find?_eq_some hm, rfl⟩

theorem Inv.shrink (hi : Inv s) (hto : ∀ m ∈ s'.toServer, m ∈ s.toServer ∨ ∀ d, m.2 ≠ .data d)
    (hfrom : ∀ m ∈ s'.toClient, m ∈ s.toClient ∨ m.2 = .chunk)
    (hserver : s'.server.replicHdr = s.server.replicHdr) (hhdr : s'.clientHdr = s.clientHdr)
    (hversion : s'.version = s.version) (hagreed : s'.agreed = s.agreed)
    (hcomputing : ∀ d ∈ s'.computing, d ∈ s.computing)
    (hclient : ∀ x ∈ s'.clientLba, x ∈ s.clientLba ∨
      x.2 = x.1.sizes.geometry.startLba x.1.currPos x.1.chunkPos)
    (hlba : ∀ x ∈ s'.serverLba, x ∈ s.serverLba ∨
      x.2 = x.1.sizes.geometry.startLba x.1.currPos x.1.chunkPos) : Inv s' where
  toServer := by
    intro m hm d hd
    rw [hserver]
    rcases hto m hm with hm | hno
    · exact hi.toServer m hm d hd
    · exact absurd hd (hno d)
  computing := by
    rw [hhdr]
    exact fun d hd => hi.computing d (hcomputing d hd)
  clientLba := fun x hx => (hclient x hx).elim (hi.clientLba x) id
  serverLba := fun x hx => (hlba x hx).elim (hi.serverLba x) id
  agreed := by
    rw [hagreed, hversion, hhdr, hserver]
    exact hi.agreed
  synAck := by
    intro m hm pid v z hz
    rw [hversion, hserver]
    rcases hfrom m hm with hm | hchunk
    · exact hi.synAck m hm pid v z hz
    · rw [hchunk] at hz
      cases hz

theorem Inv.setServer (hi : Inv s) {server : ServerDaemon}
    (hkeep : ∀ m ∈ s.toServer, ∀ d, m.2 = .data d →
      (server.replicHdr d.pid).geometry = (s.server.replicHdr d.pid).geometry) :
    Inv (s.setServer server) := by
  have hle : ∀ pid, s.version pid ≤ (s.setServer server).version pid := by
    intro pid
    unfold Pair.setServer
    dsimp only
    split
    · exact Nat.le_refl _
    · exact Nat.le_succ _
  -- a version that is still the last one has the sizes it had
  have hlast : ∀ pid v, v ≤ s.version pid → v = (s.setServer server).version pid →
      v = s.version pid ∧ (server.replicHdr pid).geometry = (s.server.replicHdr pid).geometry := by
    intro pid v hv heq
    unfold Pair.setServer at heq
    dsimp only at heq
    split at heq
    · rename_i hsame
      exact ⟨heq, hsame⟩
    · omega
  refine ⟨fun m hm d hd => ?_, hi.computing, hi.clientLba, hi.serverLba, fun pid v hv => ?_,
    fun m hm pid v z hz => ?_⟩
  · exact (hi.toServer m hm d hd).trans (hkeep m hm d hd).symm
  · obtain ⟨hold, hsizes⟩ := hi.agreed pid v hv
    refine ⟨Nat.le_trans hold (hle pid), fun heq => ?_⟩
    obtain ⟨hv', hsame⟩ := hlast pid v hold heq
    exact (hsizes hv').trans hsame.symm
  · obtain ⟨hold, hsizes⟩ := hi.synAck m hm pid v z hz
    refine ⟨Nat.le_trans hold (hle pid), fun heq => ?_⟩
    obtain ⟨hv', hsame⟩ := hlast pid v hold heq
    exact (hsizes hv').trans hsame.symm

theorem Inv.setHdr (hi : Inv s) {pid : Nat} {z : HeaderSizes} (hmay : s.ClientMay pid z) :
    Inv (s.setHdr pid z) := by
  have hhdr : ∀ q, q ≠ pid → (s.setHdr pid z).clientHdr q = s.clientHdr q :=
    fun q hq => Function.update_of_ne hq _ _
  have hself : (s.setHdr pid z).clientHdr pid = z := Function.update_self _ _ _
  refine ⟨hi.toServer, fun d hd => ?_, hi.clientLba, hi.serverLba, fun q v hv => ?_, hi.synAck⟩
  · rw [hi.computing d hd]
    by_cases hq : d.pid = pid
    · rcases hmay with hsame | hno
      · rw [hq, hself, hsame]
      · exact absurd hq (hno d hd)
    · rw [hhdr d.pid hq]
  · by_cases hsame : z.geometry = (s.clientHdr pid).geometry
    · have hagreed : (s.setHdr pid z).agreed = s.agreed := if_pos hsame
      rw [hagreed] at hv
      obtain ⟨hold, hsizes⟩ := hi.agreed q v hv
      refine ⟨hold, fun heq => ?_⟩
      refine Eq.trans ?_ (hsizes heq)
      by_cases hq : q = pid
      · rw [hq, hself, hsame]
      · rw [hhdr q hq]
    · have hagreed : (s.setHdr pid z).agreed = Function.update s.agreed pid none := if_neg hsame
      rw [hagreed] at hv
      by_cases hq : q = pid
      · rw [hq, Function.update_self] at hv
        cases hv
      · rw [Function.update_of_ne hq] at hv
        rw [hhdr q hq]
        exact hi.agreed q v hv

theorem makeRelationWithClient_hdr (d : ServerDaemon) (pid role : Nat) (srcDisk : String)
    (z : HeaderSizes) :
    (d.makeRelationWithClient pid role srcDisk z).replicHdr = d.replicHdr ∨
      (d.makeRelationWithClient pid role srcDisk z).replicHdr =
        Function.update d.replicHdr pid z := by
  unfold ServerDaemon.makeRelationWithClient
  by_cases hvalid : d.objects.isPartnerIdValid pid = true
  · simp [hvalid]
  · simp [hvalid]

theorem makeRelation_hdr (d : ServerDaemon) (pid role : Nat) (srcDisk : String) (z : HeaderSizes) :
    (d.makeRelation pid role srcDisk z).replicHdr = d.replicHdr ∨
      (d.makeRelation pid role srcDisk z).replicHdr = Function.update d.replicHdr pid z := by
  unfold ServerDaemon.makeRelation
  split
  · exact makeRelationWithClient_hdr d pid role srcDisk z
  · exact .inl rfl

theorem makePartner_hdr {d d' : ServerDaemon} {pid bandwidth : Nat} {destIp disk : String}
    {z : HeaderSizes} (h : d.makePartner pid destIp bandwidth disk z = some d') :
    d'.replicHdr = d.replicHdr ∨ d'.replicHdr = Function.update d.replicHdr pid z := by
  unfold ServerDaemon.makePartner at h
  dsimp only at h
  split at h
  · split at h
    · rw [← Option.some.inj h]
      exact makeRelationWithClient_hdr _ pid 0 disk z
    · rw [← Option.some.inj h]
      exact .inl rfl
  · cases h

theorem synReceived_hdr {d d' : ServerDaemon} {pid : Nat} (h : d.synReceived pid = some d') :
    d'.replicHdr = d.replicHdr := by
  unfold ServerDaemon.synReceived at h
  split at h
  · rw [← Option.some.inj h]
  · cases h

theorem keepsHdr {d d' : ServerDaemon} {op : ServerDaemon.Op} (hop : serverKeepsHdr op = true)
    (h : d.step op = some d') : d'.replicHdr = d.replicHdr := by
  cases op with
  | createDisk name size =>
    simp only [ServerDaemon.step, ServerDaemon.createDisk] at h
    split at h
    · split at h
      · rw [← Option.some.inj h]
      · cases h
    · rw [← Option.some.inj h]
  | getBitmap pid =>
    simp only [ServerDaemon.step, ServerDaemon.getBitmap] at h
    split at h
    · split at h <;> rw [← Option.some.inj h]
    · cases h
  | terminate pid =>
    simp only [ServerDaemon.step, ServerDaemon.terminate] at h
    split at h
    · split at h
      · rw [← Option.some.inj h]
        rfl
      · cases h
    · rw [← Option.some.inj h]
  | removePartner pid =>
    simp only [ServerDaemon.step, ServerDaemon.removePartner] at h
    split at h
    · rw [← Option.some.inj h]
    · cases h
  | removeRelation rid =>
    simp only [ServerDaemon.step, ServerDaemon.removeRelation] at h
    split at h
    · rw [← Option.some.inj h]
    · cases h
  | accept =>
    simp only [ServerDaemon.step, ServerDaemon.accept] at h
    split at h
    · rw [← Option.some.inj h]
    · cases h
  | makePartner pid destIp bandwidth disk z | makeRelation pid role srcDisk z | syn pid => cases hop

theorem ServerMay.keeps {pid : Nat} {z : HeaderSizes} {server : ServerDaemon}
    (hmay : s.ServerMay pid z) (hserver : server.replicHdr = s.server.replicHdr ∨
      server.replicHdr = Function.update s.server.replicHdr pid z) :
    ∀ m ∈ s.toServer, ∀ d, m.2 = .data d →
      (server.replicHdr d.pid).geometry = (s.server.replicHdr d.pid).geometry := by
  intro m hm d hd
  rcases hserver with heq | heq
  · rw [heq]
  · rw [heq]
    by_cases hq : d.pid = pid
    · rcases hmay with hsame | hno
      · rw [hq, Function.update_self, hsame]
      · have hdata := hno m hm
        rw [hd] at hdata
        simp [SentHeader.isDataOf, hq] at hdata
    · rw [Function.update_of_ne hq]

theorem mem_of_synAckFor {pid : Nat} {a : Nat × HeaderSizes} (h : s.synAckFor pid = some a) :
    ∃ m ∈ s.toClient, m.2 = .synAck pid a.1 a.2 := by
  unfold synAckFor at h
  split at h
  · rename_i q v z hfirst
    split at h
    · rename_i hq
      rw [← Option.some.inj h, ← hq.1]
      exact mem_of_firstOn hfirst
    · cases h
  · cases h

theorem Inv.recvSynAck (hi : Inv s) {garbage : HeaderSizes} {opened : Bool}
    (hok : s.GeometryOk (.recvSynAck garbage opened)) (h : s.recvSynAck garbage opened = some s') :
    Inv s' := by
  obtain ⟨w, hw, h⟩ := Option.bind_eq_some_iff.mp h
  dsimp only at h
  split at h
  · obtain ⟨c, -, rfl⟩ := Option.map_eq_some_iff.mp h
    have hset := hi.setHdr (hok w hw)
    refine ⟨fun m hm d hd => ?_, hset.computing, hset.clientLba, hset.serverLba,
      fun pid v hv => ?_, fun m hm => hi.synAck m (mem_restOn hm)⟩
    · rcases List.mem_append.mp hm with hm | hm
      · exact hi.toServer m hm d hd
      · rw [List.mem_singleton.mp hm] at hd
        cases hd
    · dsimp only at hv ⊢
      cases hack : s.synAckFor w.pid with
      | none =>
        rw [hack] at hv
        exact hset.agreed pid v hv
      | some a =>
        rw [hack] at hv
        have hz : s.received w.pid garbage = a.2 := by
          unfold Pair.received
          rw [hack]
          rfl
        change Function.update s.agreed w.pid (some a.1) pid = some v at hv
        by_cases hpid : pid = w.pid
        · rw [hpid, Function.update_self] at hv
          obtain rfl := Option.some.inj hv
          obtain ⟨m, hm, heq⟩ := mem_of_synAckFor hack
          obtain ⟨hold, hsizes⟩ := hi.synAck m hm w.pid a.1 a.2 heq
          rw [hpid]
          refine ⟨hold, fun hlast => ?_⟩
          rw [hz]
          exact (congrArg HeaderSizes.geometry (Function.update_self _ _ _)).trans (hsizes hlast)
        · rw [Function.update_of_ne hpid] at hv
          obtain ⟨hold, hsizes⟩ := hi.agreed pid v hv
          refine ⟨hold, fun hlast => ?_⟩
          exact (congrArg HeaderSizes.geometry (Function.update_of_ne hpid _ _)).trans
            (hsizes hlast)
  · cases h

theorem Inv.serve (hi : Inv s) {conn : Nat} {ok : Bool} (hok : s.GeometryOk (.serve conn ok))
    (h : s.serve conn ok = some s') : Inv s' := by
  obtain ⟨m, hm, h⟩ := Option.bind_eq_some_iff.mp h
  have hfirst := hok m hm
  have hrest : Inv { s with toServer := restOn conn s.toServer } :=
    hi.shrink (fun m hm => .inl (mem_restOn hm)) (fun m hm => .inl hm) rfl rfl rfl rfl
      (fun d hd => hd) (fun x hx => .inl hx) fun x hx => .inl hx
  cases m with
  | makePartner pid destIp bandwidth disk z =>
    obtain ⟨d, hd, rfl⟩ := Option.map_eq_some_iff.mp h
    have hmay : ServerMay { s with toServer := restOn conn s.toServer } pid z :=
      hfirst.imp_right fun hno m hm => hno m (mem_restOn hm)
    exact hrest.setServer (hmay.keeps (makePartner_hdr hd))
  | syn pid =>
    obtain ⟨d, hd, rfl⟩ := Option.map_eq_some_iff.mp h
    have hsame : d.replicHdr = s.server.replicHdr := synReceived_hdr hd
    have hset : Inv (Pair.setServer { s with toServer := restOn conn s.toServer } d) :=
      hrest.setServer fun _ _ d' _ => by rw [hsame]
    refine ⟨hset.toServer, hset.computing, hset.clientLba, hset.serverLba, hset.agreed, ?_⟩
    intro m hm q v z hz
    rcases List.mem_append.mp hm with hm | hm
    · exact hset.synAck m hm q v z hz
    · rw [List.mem_singleton.mp hm] at hz
      cases hz
      -- the table has not changed, so the reply has the last version
      have hversion : (Pair.setServer { s with toServer := restOn conn s.toServer } d).version pid =
          s.version pid := if_pos (by rw [hsame])
      refine ⟨Nat.le_of_eq hversion.symm, fun _ => ?_⟩
      exact congrArg (fun f => (f pid).geometry) hsame.symm
  | ack pid =>
    cases h
    exact hrest
  | data d =>
    cases h
    obtain ⟨m, hm, hd⟩ := mem_of_firstOn hm
    refine hrest.shrink (fun m hm => .inl hm) ?_ rfl rfl rfl rfl (fun d hd => hd)
      (fun x hx => .inl hx) ?_
    · intro m hm
      dsimp only at hm
      split at hm
      · refine (List.mem_append.mp hm).imp_right fun hm => ?_
        rw [List.mem_singleton.mp hm]
      · exact .inl hm
    · intro x hx
      refine (List.mem_append.mp hx).imp_right fun hx => ?_
      rw [List.mem_singleton.mp hx, hi.toServer m hm d hd]

theorem Inv.sendData (hi : Inv s) {pid currPos chunkPos : Nat}
    (hok : s.agreed pid = some (s.version pid)) (h : s.sendData pid currPos chunkPos = some s') :
    Inv s' := by
  unfold Pair.sendData at h
  split at h
  · rw [← Option.some.inj h]
    refine ⟨fun m hm d hd => ?_, fun d hd => ?_, hi.clientLba, hi.serverLba, hi.agreed, hi.synAck⟩
    · rcases List.mem_append.mp hm with hm | hm
      · exact hi.toServer m hm d hd
      · rw [List.mem_singleton.mp hm] at hd
        cases hd
        exact (hi.agreed pid _ hok).2 rfl
    · rcases List.mem_append.mp hd with hd | hd
      · exact hi.computing d hd
      · rw [List.mem_singleton.mp hd]
  · cases h

theorem inv_step {e : Event} (hi : Inv s) (hok : s.GeometryOk e) (h : s.step e = some s') :
    Inv s' := by
  cases e with
  | mkpartner ip bandwidth disk sizes =>
    simp only [step, mkpartner] at h
    split at h
    · obtain ⟨pid, hpid, h⟩ := Option.bind_eq_some_iff.mp h
      obtain ⟨c, -, rfl⟩ := Option.map_eq_some_iff.mp h
      refine (hi.setHdr (hok pid hpid)).shrink (fun m hm => ?_) (fun m hm => .inl hm) rfl rfl rfl rfl
        (fun d hd => hd) (fun x hx => .inl hx) fun x hx => .inl hx
      refine (List.mem_append.mp hm).imp_right fun hm d => ?_
      rw [List.mem_singleton.mp hm]
      exact nofun
    · cases h
  | mkrelationpeer pid role targetDisk sizes =>
    simp only [step, mkrelationpeer] at h
    split at h
    · split at h
      · split at h
        · rw [← Option.some.inj h]
          refine (hi.setHdr hok).shrink (fun m hm => ?_) (fun m hm => .inl hm) rfl rfl rfl rfl
            (fun d hd => hd) (fun x hx => .inl hx) fun x hx => .inl hx
          refine (List.mem_append.mp hm).imp_right fun hm d => ?_
          rw [List.mem_singleton.mp hm]
          exact nofun
        · cases h
      · rwa [← Option.some.inj h]
    · cases h
  | recvSynAck garbage opened => exact hi.recvSynAck hok h
  | mkrelation pid role srcDisk sizes =>
    rw [← Option.some.inj h]
    exact hi.setServer (ServerMay.keeps hok (makeRelation_hdr _ pid role srcDisk sizes))
  | sendData pid currPos chunkPos => exact hi.sendData hok h
  | computeLba d =>
    simp only [step, computeLba] at h
    split at h
    · rename_i hd
      rw [← Option.some.inj h]
      refine hi.shrink (fun m hm => .inl hm) (fun m hm => .inl hm) rfl rfl rfl rfl
        (fun d' hd' => List.mem_of_mem_erase hd') (fun x hx => ?_) fun x hx => .inl hx
      refine (List.mem_append.mp hx).imp_right fun hx => ?_
      rw [List.mem_singleton.mp hx, hi.computing d hd]
    · cases h
  | readChunk pid =>
    obtain ⟨m, -, rfl⟩ := Option.map_eq_some_iff.mp h
    exact hi.shrink (fun m hm => .inl hm) (fun m hm => .inl (mem_restOn hm)) rfl rfl rfl rfl
      (fun d hd => hd) (fun x hx => .inl hx) fun x hx => .inl hx
  | serve conn ok => exact hi.serve hok h
  | client op =>
    simp only [step] at h
    split at h
    · obtain ⟨c, -, rfl⟩ := Option.map_eq_some_iff.mp h
      exact { hi with }
    · cases h
  | server op =>
    simp only [step] at h
    split at h
    · rename_i hop
      obtain ⟨d, hd, rfl⟩ := Option.map_eq_some_iff.mp h
      exact hi.setServer fun _ _ d' _ => by rw [keepsHdr hop hd]
    · cases h
  | reconnect pid =>
    rw [← Option.some.inj h]
    exact { hi with }
  | close conn =>
    rw [← Option.some.inj h]
    exact hi.shrink (fun m hm => .inl (List.mem_filter.mp hm).1)
      (fun m hm => .inl (List.mem_filter.mp hm).1) rfl rfl rfl rfl (fun d hd => hd)
      (fun x hx => .inl hx) fun x hx => .inl hx

/-! ### Whole runs -/

/-- Both sides compute the same sector for every `DATA` header, in a run in which each is sent with
the sizes of the last `SYN_ACK`, and other sizes are stored when no header needs the old ones. -/
theorem start_lba_agreed {es : List Event} (h : Meets step GeometryOk boot es) :
    Always step SameLba boot es := by
  rintro fs t ⟨gs, rfl⟩ hr
  have hi : Inv t := run_inv (fun _ _ _ hi hok hs => inv_step hi hok hs) inv_boot
    (meets_append.mp h).1 hr
  exact hi.sameLba

/-- A partner is made, and its sizes are negotiated. -/
def negotiated : List Event :=
  [.mkpartner "10.0.0.1" 100 "/dev/sdb" ⟨16384, 8, 8⟩, .serve 1 true,
    .mkrelation 0 0 "/dev/sdb" ⟨16384, 1024, 8⟩, .mkrelationpeer 0 1 "/dev/sdc" ⟨16384, 512, 8⟩,
    .serve 1 true, .recvSynAck ⟨0, 0, 0⟩ true, .serve 1 true]

/-- A chunk is copied, other sizes are negotiated, and a chunk is copied with those. -/
theorem start_lba_agreed_twice :
    Always step SameLba boot (negotiated ++
      [.sendData 0 3 1, .serve 1 true, .computeLba ⟨0, 0, 3, 1, ⟨16384, 1024, 8⟩⟩, .readChunk 0,
        .mkrelation 0 0 "/dev/sdb" ⟨16384, 2048, 8⟩, .mkrelationpeer 0 1 "/dev/sdc" ⟨16384, 8, 8⟩,
        .serve 1 true, .recvSynAck ⟨0, 0, 0⟩ true, .sendData 0 3 1,
        .computeLba ⟨1, 0, 3, 1, ⟨16384, 2048, 8⟩⟩, .serve 1 true, .serve 1 true]) :=
  start_lba_agreed (by decide)

/-- A `mkrelation` on the server after the negotiation: the next chunk is read from another sector
than it is written to. -/
theorem start_lba_differs :
    ¬ Always step SameLba boot (negotiated ++
      [.mkrelation 0 0 "/dev/sdb" ⟨16384, 2048, 8⟩, .sendData 0 3 1, .serve 1 true,
        .computeLba ⟨0, 0, 3, 1, ⟨16384, 1024, 8⟩⟩]) := by
  intro h
  have hrun : (run step boot (negotiated ++
      [.mkrelation 0 0 "/dev/sdb" ⟨16384, 2048, 8⟩, .sendData 0 3 1, .serve 1 true,
        .computeLba ⟨0, 0, 3, 1, ⟨16384, 1024, 8⟩⟩])).map (fun t => (t.clientLba, t.serverLba)) =
      some ([(⟨0, 0, 3, 1, ⟨16384, 1024, 8⟩⟩, 3080)], [(⟨0, 0, 3, 1, ⟨16384, 1024, 8⟩⟩, 6152)]) := by
    decide
  obtain ⟨t, ht, hvals⟩ := Option.map_eq_some_iff.mp hrun
  simp only [Prod.mk.injEq] at hvals
  have hsame := h _ t (List.prefix_refl _) ht ⟨0, 0, 3, 1, ⟨16384, 1024, 8⟩⟩ 3080 6152
    (by simp [hvals.1]) (by simp [hvals.2])
  cases hsame

end Pair

end Ebdr
