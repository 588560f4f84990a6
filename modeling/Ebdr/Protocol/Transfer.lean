import Ebdr.Protocol.Session

/-!
# A connection on which every call succeeds

What the two sides of a connection do next when a resync thread is alone on it and no call fails:
`Running` is the client's side, with the thread in some phase, `ConnAt` the server's side and the two
streams. One lemma a step.
-/

namespace Ebdr

open ByteMem CInt Lts

namespace Link

open Client

/-- The thread `tid` is the only one, it is in phase `ph`, and nothing stops it. -/
structure Running (tid : Nat) (ph : ResyncPhase) (l : Link) : Prop where
  thread : l.client.thread tid = some ⟨ph, false⟩
  others : ∀ t < l.client.nextTid, t ≠ tid → l.client.thread t = none
  area : ∃ m, l.client.bitmapArea = .allocated m
  partner : l.client.partnerState ≠ .pause
  io : l.client.ioState ≠ .released
  rep : l.client.repState ≠ .completed
  recovery : l.client.recoveryMode = false
  awaiting : l.client.awaiting = false
  up : l.client.socketUp = true

/-- The server's thread is in phase `ph` and its I/O object in state `io`, with `n` bytes on the way to
it and `m` to the client. -/
structure ConnAt (ph : ServerPhase) (io : IoObjState) (n m : Nat) (c : Conn) : Prop where
  up : c.server.socketUp = true
  io : c.server.ioState = io
  phase : c.server.phase = ph
  toServer : c.toServer.pending = n
  toClient : c.toClient.pending = m

/-- The client has the connection, and no resync thread. -/
structure Unused (l : Link) : Prop where
  threads : ∀ t < l.client.nextTid, l.client.thread t = none
  partner : l.client.partnerState ≠ .pause
  recovery : l.client.recoveryMode = false
  up : l.client.socketUp = true

theorem Unused.congr {l' : Link} (h : Unused l) (hc : l'.client = l.client) : Unused l' := by
  obtain ⟨h1, h2, h3, h4⟩ := h
  rw [← hc] at h1 h2 h3 h4
  exact ⟨h1, h2, h3, h4⟩

/-- What a step on the connection needs, beside the calls. -/
structure Fine (l : Link) (f : LinkEvent) : Prop where
  orderly : Orderly l f
  client : ∀ g ∈ f.clientPart l, CancelEnds l.client g ∧ ResumesFresh l.client g
  up : l.client.socketUp = true

/-- The event can happen, and leads to a state with `Q`. -/
def Goes (cfg : Config) (l : Link) (f : LinkEvent) (Q : Link → Prop) : Prop :=
  Fine l f ∧ ∃ l', l.step cfg f = some l' ∧ Q l'

variable {cfg : Config} {l : Link} {tid pos c n m : Nat} {ph ph' : ResyncPhase} {io : IoObjState}

namespace Running

theorem phaseOf (h : Running tid ph l) : l.client.phaseOf tid = some ph := by
  rw [Client.phaseOf, h.thread, Option.map_some]

theorem goes (h : Running tid ph l) {s : Client} {buff : Nat → Mem} {conn : Conn}
    (hth : s.thread = l.client.thread) (htid : s.nextTid = l.client.nextTid)
    (ha : s.bitmapArea = l.client.bitmapArea) (hp : s.partnerState = l.client.partnerState)
    (hio : s.ioState = l.client.ioState) (hrep : s.repState = l.client.repState)
    (hrec : s.recoveryMode = l.client.recoveryMode) (haw : s.awaiting = l.client.awaiting)
    (hup : s.socketUp = l.client.socketUp) :
    Running tid ph' ⟨s.setPhase tid ph', buff, conn⟩ where
  thread := by simp [hth, h.thread]
  others := by
    intro t ht hne
    have hlt : t < l.client.nextTid := htid ▸ ht
    show Function.update s.thread tid _ t = none
    rw [Function.update_of_ne hne, hth]
    exact h.others t hlt hne
  area := by
    show ∃ m, s.bitmapArea = .allocated m
    rw [ha]
    exact h.area
  partner := by
    show s.partnerState ≠ .pause
    rw [hp]
    exact h.partner
  io := by
    show s.ioState ≠ .released
    rw [hio]
    exact h.io
  rep := by
    show s.repState ≠ .completed
    rw [hrep]
    exact h.rep
  recovery := by
    show s.recoveryMode = false
    rw [hrec]
    exact h.recovery
  awaiting := by
    show s.awaiting = false
    rw [haw]
    exact h.awaiting
  up := by
    show s.socketUp = true
    rw [hup]
    exact h.up

theorem congr {l' : Link} (h : Running tid ph l) (hc : l'.client = l.client) :
    Running tid ph l' := by
  obtain ⟨h1, h2, h3, h4, h5, h6, h7, h8, h9⟩ := h
  rw [← hc] at h1 h2 h3 h4 h5 h6 h7 h8 h9
  exact ⟨h1, h2, h3, h4, h5, h6, h7, h8, h9⟩

theorem cancelEnds (h : Running tid ph l) (ok : Bool) : CancelEnds l.client (.run tid ok) := by
  rintro th hth
  rw [h.thread] at hth
  cases hth
  rfl

theorem fine_run (h : Running tid ph l) (ok : Bool) : Fine l (.client (.run tid ok)) where
  orderly := ⟨trivial, fun hb => absurd rfl hb⟩
  client := by
    intro g hg
    cases hg
    exact ⟨h.cancelEnds ok, fun _ _ hpos => by cases hpos⟩
  up := h.up

theorem runs (h : Running tid ph l) {Q : Link → Prop} (happ : Apart l.client (.run tid true))
    {s : Client} (hs : l.client.runThread cfg.client tid true = some s)
    (hq : Q ⟨s, l.buff, l.conn⟩) : Goes cfg l (.client (.run tid true)) Q := by
  refine ⟨h.fine_run true, _, ?_, hq⟩
  rw [step, if_pos happ, Client.step, hs, Option.map_some]

/-! ### Steps of the thread alone -/

theorem apart (h : Running tid ph l) (hsend : ∀ pos c, ph ≠ .send pos c)
    (hrecv : ∀ pos c, ph ≠ .recv pos c) (hterm : ph ≠ .sendTermination) :
    Apart l.client (.run tid true) := by
  unfold Apart
  dsimp only
  rw [h.phaseOf]
  cases ph with
  | send pos c => exact absurd rfl (hsend pos c)
  | recv pos c => exact absurd rfl (hrecv pos c)
  | sendTermination => exact absurd rfl hterm
  | _ => trivial

theorem test (h : Running tid (.test pos) l) (hpos : pos < bitmapSizeMax * 8) :
    Goes cfg l (.client (.run tid true)) fun l' =>
      (Running tid (.chunk pos 0) l' ∨ Running tid (.record pos) l') ∧ l'.conn = l.conn := by
  obtain ⟨m, ha⟩ := h.area
  have hs : l.client.runThread cfg.client tid true =
      some (l.client.setPhase tid (if bit m pos = true then .chunk pos 0 else .record pos)) := by
    simp only [runThread, h.thread, Option.bind_some, testPos, if_pos (And.intro hpos h.partner), ha,
      isBitSet_of_lt hpos, Option.map_some]
  refine h.runs (h.apart (by simp) (by simp) (by simp)) hs ⟨?_, rfl⟩
  cases hb : bit m pos with
  | true => exact Or.inl (h.goes rfl rfl rfl rfl rfl rfl rfl rfl rfl)
  | false => exact Or.inr (h.goes rfl rfl rfl rfl rfl rfl rfl rfl rfl)

theorem chunk (h : Running tid (.chunk pos c) l) (hc : c < cfg.client.loopBound) :
    Goes cfg l (.client (.run tid true)) fun l' =>
      Running tid (.send pos c) l' ∧ l'.client.header = ⟨.data, pos, c⟩ ∧ l'.conn = l.conn := by
  have hs : l.client.runThread cfg.client tid true =
      some ({ l.client with header := ⟨.data, pos, c⟩ }.setPhase tid (.send pos c)) := by
    simp only [runThread, h.thread, Option.bind_some, nextChunk, if_pos hc, if_neg h.partner,
      if_neg h.io]
  exact h.runs (h.apart (by simp) (by simp) (by simp)) hs
    ⟨h.goes rfl rfl rfl rfl rfl rfl rfl rfl rfl, rfl, rfl⟩

theorem chunkEnd (h : Running tid (.chunk pos c) l) (hc : cfg.client.loopBound ≤ c) :
    Goes cfg l (.client (.run tid true)) fun l' =>
      Running tid (.record pos) l' ∧ l'.conn = l.conn := by
  have hs : l.client.runThread cfg.client tid true = some (l.client.setPhase tid (.record pos)) := by
    simp only [runThread, h.thread, Option.bind_some, nextChunk, if_neg (Nat.not_lt.mpr hc)]
  exact h.runs (h.apart (by simp) (by simp) (by simp)) hs ⟨h.goes rfl rfl rfl rfl rfl rfl rfl rfl rfl, rfl⟩

theorem record (h : Running tid (.record pos) l) :
    Goes cfg l (.client (.run tid true)) fun l' =>
      Running tid (.test (pos + 1)) l' ∧ l'.conn = l.conn := by
  have hs : l.client.runThread cfg.client tid true = some ({ l.client with
      lastResyncedBit := pos
      history := { l.client.history with recorded := true } }.setPhase tid (.test (pos + 1))) := by
    simp only [runThread, h.thread, Option.bind_some]
  exact h.runs (h.apart (by simp) (by simp) (by simp)) hs ⟨h.goes rfl rfl rfl rfl rfl rfl rfl rfl rfl, rfl⟩

theorem testEnd (h : Running tid (.test pos) l) (hpos : bitmapSizeMax * 8 ≤ pos) :
    Goes cfg l (.client (.run tid true)) fun l' => Running tid .loopEnd l' ∧ l'.conn = l.conn := by
  obtain ⟨m, ha⟩ := h.area
  have hs : l.client.runThread cfg.client tid true = some (l.client.setPhase tid .loopEnd) := by
    simp only [runThread, h.thread, Option.bind_some, testPos,
      if_neg fun hh => absurd hpos (Nat.not_le.mpr (And.left hh)), ha]
  exact h.runs (h.apart (by simp) (by simp) (by simp)) hs ⟨h.goes rfl rfl rfl rfl rfl rfl rfl rfl rfl, rfl⟩

theorem loopEnd (h : Running tid .loopEnd l) :
    Goes cfg l (.client (.run tid true)) fun l' =>
      Running tid .terminate l' ∧ l'.conn = l.conn := by
  have hs : l.client.runThread cfg.client tid true = some (l.client.setPhase tid .terminate) := by
    simp only [runThread, h.thread, Option.bind_some, if_neg h.partner]
  exact h.runs (h.apart (by simp) (by simp) (by simp)) hs ⟨h.goes rfl rfl rfl rfl rfl rfl rfl rfl rfl, rfl⟩

theorem terminate (h : Running tid .terminate l) :
    Goes cfg l (.client (.run tid true)) fun l' =>
      Running tid .resetBit l' ∧ l'.client.header.opcode = .rplcTermination ∧ l'.conn = l.conn := by
  have hs : l.client.runThread cfg.client tid true = some ({ l.client with
      header := { l.client.header with opcode := .rplcTermination } }.setPhase tid .resetBit) := by
    simp only [runThread, h.thread, Option.bind_some, if_pos h.rep, ne_eq]
  exact h.runs (h.apart (by simp) (by simp) (by simp)) hs
    ⟨h.goes rfl rfl rfl rfl rfl rfl rfl rfl rfl, rfl, rfl⟩

theorem resetBit (h : Running tid .resetBit l)
    (hop : l.client.header.opcode = .rplcTermination) :
    Goes cfg l (.client (.run tid true)) fun l' => Running tid .sendTermination l' ∧
      l'.client.header.opcode = .rplcTermination ∧ l'.conn = l.conn := by
  have hs := show l.client.runThread cfg.client tid true = some _ by
    simp only [runThread, h.thread, Option.bind_some]
    rfl
  exact h.runs (h.apart (by simp) (by simp) (by simp)) hs
    ⟨h.goes rfl rfl rfl rfl rfl rfl rfl rfl rfl, hop, rfl⟩

theorem release (h : Running tid .release l) :
    Goes cfg l (.client (.run tid true)) fun l' =>
      Unused l' ∧ l'.client.awaiting = false ∧ l'.conn = l.conn := by
  obtain ⟨m, ha⟩ := h.area
  have hs := show l.client.runThread cfg.client tid true = some _ by
    simp only [runThread, h.thread, Option.bind_some, Client.release, ha]
    rfl
  refine h.runs (h.apart (by simp) (by simp) (by simp)) hs ⟨⟨fun t ht => ?_, ?_, h.recovery, h.up⟩,
    h.awaiting, rfl⟩
  · show Function.update l.client.thread tid none t = none
    by_cases ht' : t = tid
    · rw [ht', Function.update_self]
    · rw [Function.update_of_ne ht']
      exact h.others t ht ht'
  · show PartnerObjState.released ≠ .pause
    decide

theorem write (h : Running tid (.write pos c) l) :
    Goes cfg l (.client (.run tid true)) fun l' =>
      Running tid (.chunk pos (c + 1)) l' ∧ l'.conn = l.conn := by
  have hs := show l.client.runThread cfg.client tid true = some _ by
    simp only [runThread, h.thread, Option.bind_some, writeChunk, if_pos, if_neg Bool.false_ne_true]
    rfl
  exact h.runs (h.apart (by simp) (by simp) (by simp)) hs ⟨h.goes rfl rfl rfl rfl rfl rfl rfl rfl rfl, rfl⟩

/-! ### Steps on the connection -/

theorem fine_send (h : Running tid ph l) : Fine l (.send tid (some headerSize)) where
  orderly := ⟨fun _ => Or.inr rfl, trivial⟩
  client := by
    intro g hg
    obtain ⟨ok, rfl⟩ : ∃ ok, g = .run tid ok := by
      simp only [LinkEvent.clientPart] at hg
      split at hg
      · exact ⟨_, (Option.some.inj hg).symm⟩
      · exact ⟨_, (Option.some.inj hg).symm⟩
    exact ⟨h.cancelEnds ok, fun _ _ hpos => by cases hpos⟩
  up := h.up

theorem send (h : Running tid (.send pos c) l) (hc : ConnAt .recvHeader io 0 0 l.conn) :
    Goes cfg l (.send tid (some headerSize)) fun l' => Running tid (.recv pos c) l' ∧
      ConnAt .recvHeader io headerSize 0 l'.conn ∧
        l'.conn.toServer.Holds 0 (l.client.header.encode cfg) headerSize := by
  have hs : l.client.step cfg.client (.run tid true) = some (l.client.setPhase tid (.recv pos c)) := by
    simp only [Client.step, runThread, h.thread, Option.bind_some, transfer, if_pos, h.up,
      if_neg Bool.false_ne_true]
  have hacc : Accepts l.client (some headerSize) := ⟨le_refl _, h.up⟩
  refine ⟨h.fine_send, ⟨l.client.setPhase tid (.recv pos c), l.buff, { l.conn with
    toServer := l.conn.toServer.send (l.client.header.encode cfg) headerSize
    asked := l.conn.asked + 1 }⟩, ?_, h.goes rfl rfl rfl rfl rfl rfl rfl rfl rfl, ?_, ?_⟩
  · simp only [step, if_pos hacc, Link.send, h.phaseOf, Option.isSome_some, hs, Option.map_some,
      if_pos, sendHeader]
  · exact ⟨hc.up, hc.io, hc.phase, by simp [Stream.send, hc.toServer], hc.toClient⟩
  · have hold := Stream.holds_send l.conn.toServer (l.client.header.encode cfg) headerSize
    rwa [hc.toServer] at hold

theorem sendTermination (h : Running tid .sendTermination l)
    (hc : ConnAt .recvHeader io 0 0 l.conn) :
    Goes cfg l (.send tid (some headerSize)) fun l' => Running tid .release l' ∧
      ConnAt .recvHeader io headerSize 0 l'.conn ∧
        l'.conn.toServer.Holds 0 (l.client.header.encode cfg) headerSize := by
  have hs : l.client.step cfg.client (.run tid true) = some (l.client.setPhase tid .release) := by
    simp only [Client.step, runThread, h.thread, Option.bind_some, if_neg Bool.false_ne_true]
  have hacc : Accepts l.client (some headerSize) := ⟨le_refl _, h.up⟩
  refine ⟨h.fine_send, ⟨l.client.setPhase tid .release, l.buff, { l.conn with
    toServer := l.conn.toServer.send (l.client.header.encode cfg) headerSize }⟩, ?_,
    h.goes rfl rfl rfl rfl rfl rfl rfl rfl rfl, ?_, ?_⟩
  · simp only [step, if_pos hacc, Link.send, h.phaseOf, hs, Option.map_some, sendHeader]
  · exact ⟨hc.up, hc.io, hc.phase, by simp [Stream.send, hc.toServer], hc.toClient⟩
  · have hold := Stream.holds_send l.conn.toServer (l.client.header.encode cfg) headerSize
    rwa [hc.toServer] at hold

theorem recv (h : Running tid (.recv pos c) l) (hc : ConnAt .recvHeader io 0 bufSizeInBytes l.conn) :
    Goes cfg l (.recv tid (some bufSizeInBytes) false) fun l' =>
      Running tid (.write pos c) l' ∧ ConnAt .recvHeader io 0 0 l'.conn := by
  have hs : l.client.step cfg.client (.run tid true) =
      some (l.client.setPhase tid (.write pos c)) := by
    simp only [Client.step, runThread, h.thread, Option.bind_some, transfer, if_pos, h.up,
      if_neg Bool.false_ne_true]
  have hdel : l.client.socketUp = true ∧
      Delivers l.conn.toClient l.conn.server.socketUp bufSizeInBytes bufSizeInBytes :=
    ⟨h.up, le_refl _, by rw [hc.toClient], fun h0 => absurd h0 (by decide)⟩
  refine ⟨⟨⟨Or.inr (Or.inl rfl), trivial⟩, ?_, h.up⟩, ⟨l.client.setPhase tid (.write pos c),
    Function.update l.buff tid (l.conn.toClient.fill (l.buff tid) bufSizeInBytes),
    { l.conn with toClient := l.conn.toClient.take bufSizeInBytes }⟩, ?_,
    h.goes rfl rfl rfl rfl rfl rfl rfl rfl rfl, ?_⟩
  · intro g hg
    cases hg
    exact ⟨h.cancelEnds _, fun _ _ hpos => by cases hpos⟩
  · simp only [step, Link.recv, h.phaseOf, if_pos hdel, Bool.not_false, hs, Option.map_some]
  · exact ⟨hc.up, hc.io, hc.phase, hc.toServer, by simp [Stream.take, hc.toClient]⟩

end Running

/-! ### The server's steps -/

theorem goes_server {f : ServerEvent} {conn : Conn} {Q : Link → Prop}
    (hs : l.conn.serverStep cfg l.client.socketUp f = some conn) (hup : l.client.socketUp = true)
    (hf : WholeServer f) (hq : Q ⟨l.client, l.buff, conn⟩) : Goes cfg l (.server f) Q := by
  refine ⟨⟨⟨Or.inr hf, trivial⟩, ?_, hup⟩, ⟨l.client, l.buff, conn⟩, ?_, hq⟩
  · intro g hg
    cases hg
  · rw [step, hs, Option.map_some]

theorem ConnAt.recvHeader {h : ClientHeader} (hc : ConnAt .recvHeader io headerSize m l.conn)
    (hold : l.conn.toServer.Holds 0 (h.encode cfg) headerSize) (hup : l.client.socketUp = true) :
    Goes cfg l (.server (.recvHeader (some headerSize))) fun l' => l'.client = l.client ∧
      ConnAt .dispatch io 0 m l'.conn ∧ l'.conn.server.Finds cfg h.opcode := by
  have hdel : l.conn.server.socketUp = true ∧
      Delivers l.conn.toServer l.client.socketUp headerSize headerSize :=
    ⟨hc.up, le_refl _, by rw [hc.toServer], fun h0 => absurd h0 (by decide)⟩
  have hs := show l.conn.serverStep cfg l.client.socketUp (.recvHeader (some headerSize)) = some _ by
    simp only [Conn.serverStep, if_pos hc.phase, Conn.recvHeader, if_pos hdel]
    rfl
  refine goes_server hs hup (Or.inr rfl) ⟨rfl, ?_, finds_of_headerIs rfl (Stream.Holds.fill hold)⟩
  exact ⟨hc.up, hc.io, rfl, by simp [Stream.take, hc.toServer], hc.toClient⟩

theorem ConnAt.getData (hc : ConnAt .dispatch .inUse n m l.conn) (hf : l.conn.server.Finds cfg .data)
    (hup : l.client.socketUp = true) (bytes : Mem) :
    Goes cfg l (.server (.getData (some bufSizeInBytes) bytes)) fun l' => l'.client = l.client ∧
      ConnAt .chunkWrite .inUse n m l'.conn := by
  have hio : l.conn.server.ioState ≠ .released := by
    rw [hc.io]
    decide
  have hs := show l.conn.serverStep cfg l.client.socketUp
      (.getData (some bufSizeInBytes) bytes) = some _ by
    simp only [Conn.serverStep, if_pos hf, Conn.getData, if_neg hio,
      if_pos (le_refl bufSizeInBytes)]
    rfl
  exact goes_server hs hup (Or.inr rfl) ⟨rfl, hc.up, hc.io, rfl, hc.toServer, hc.toClient⟩

theorem ConnAt.chunkWrite (hc : ConnAt .chunkWrite io n 0 l.conn) (hup : l.client.socketUp = true) :
    Goes cfg l (.server (.chunkWrite (some bufSizeInBytes))) fun l' => l'.client = l.client ∧
      ConnAt .recvHeader io n bufSizeInBytes l'.conn := by
  have hs := show l.conn.serverStep cfg l.client.socketUp
      (.chunkWrite (some bufSizeInBytes)) = some _ by
    simp only [Conn.serverStep, if_pos hc.phase, Conn.chunkWrite,
      if_pos (And.intro hc.up (le_refl bufSizeInBytes))]
    rfl
  exact goes_server hs hup trivial
    ⟨rfl, hc.up, hc.io, rfl, hc.toServer, by simp [Stream.send, hc.toClient]⟩

theorem ConnAt.getBitmap (hc : ConnAt .dispatch io 0 0 l.conn)
    (hf : l.conn.server.Finds cfg .bitmapMetadata) (hup : l.client.socketUp = true) (area : Mem) :
    Goes cfg l (.server (.getBitmap area (some bitmapSizeMax))) fun l' => l'.client = l.client ∧
      ConnAt .recvHeader .inUse 0 bitmapSizeMax l'.conn := by
  have hs := show l.conn.serverStep cfg l.client.socketUp
      (.getBitmap area (some bitmapSizeMax)) = some _ by
    simp only [Conn.serverStep, if_pos hf, Conn.getBitmap,
      if_pos (And.intro hc.up (le_refl bitmapSizeMax))]
    rfl
  exact goes_server hs hup trivial
    ⟨rfl, hc.up, rfl, rfl, hc.toServer, by simp [Stream.send, hc.toClient]⟩

theorem ConnAt.terminate (hc : ConnAt .dispatch io n m l.conn)
    (hf : l.conn.server.Finds cfg .rplcTermination) (hup : l.client.socketUp = true) :
    Goes cfg l (.server .terminate) fun l' => l'.client = l.client ∧
      ∃ io', ConnAt .recvHeader io' n m l'.conn := by
  have hs : l.conn.serverStep cfg l.client.socketUp .terminate = some l.conn.terminate := by
    simp only [Conn.serverStep, if_pos hf]
  have hat : ∃ io', ConnAt .recvHeader io' n m l.conn.terminate := by
    unfold Conn.terminate
    split
    · exact ⟨_, hc.up, rfl, rfl, hc.toServer, hc.toClient⟩
    · exact ⟨_, hc.up, rfl, rfl, hc.toServer, hc.toClient⟩
  exact goes_server hs hup trivial ⟨rfl, hat⟩

/-! ### The commands -/

theorem requestMetadata_partner {s : Client} (h : s.partnerState ≠ .pause) :
    s.requestMetadata.partnerState ≠ .pause := by
  unfold requestMetadata
  dsimp only
  split
  · simp
  · exact h

theorem requestMetadata_same (s : Client) : s.requestMetadata.thread = s.thread ∧
    s.requestMetadata.nextTid = s.nextTid ∧ s.requestMetadata.recoveryMode = s.recoveryMode ∧
      s.requestMetadata.socketUp = s.socketUp := by
  unfold requestMetadata
  dsimp only
  split <;> exact ⟨rfl, rfl, rfl, rfl⟩

theorem Unused.metadata (h : Unused l) (haw : l.client.awaiting = false)
    (hc : ConnAt .recvHeader io 0 0 l.conn) :
    Goes cfg l (.metadata (some headerSize)) fun l' => Unused l' ∧
      (l'.client.awaiting = true ∧ ∃ m, l'.client.bitmapArea = .allocated m) ∧
        ConnAt .recvHeader io headerSize 0 l'.conn ∧ ∃ hdr : ClientHeader,
          hdr.opcode = .bitmapMetadata ∧
            l'.conn.toServer.Holds 0 (hdr.encode cfg) headerSize := by
  obtain ⟨hth, htid, hrec, hup⟩ := requestMetadata_same l.client
  have hs : l.client.step cfg.client .metadata = some l.client.requestMetadata := by
    rw [Client.step, command, if_neg (by simp [haw])]
  have hacc : Accepts l.client (some headerSize) := ⟨le_refl _, h.up⟩
  refine ⟨⟨⟨trivial, h.threads, haw⟩, ?_, h.up⟩, ⟨l.client.requestMetadata, l.buff, { l.conn with
    toServer := l.conn.toServer.send (l.client.requestMetadata.header.encode cfg) headerSize }⟩,
    ?_, ?_, ⟨rfl, _, rfl⟩, ?_, l.client.requestMetadata.header, rfl, ?_⟩
  · intro g hg
    cases hg
    exact ⟨trivial, fun _ _ hpos => by cases hpos⟩
  · simp only [step, if_pos hacc, hs, Option.map_some, sendHeader]
  · refine ⟨fun t ht => ?_, requestMetadata_partner h.partner, hrec.trans h.recovery, hup.trans h.up⟩
    rw [hth]
    exact h.threads t (htid ▸ ht)
  · exact ⟨hc.up, hc.io, hc.phase, by simp [Stream.send, hc.toServer], hc.toClient⟩
  · have hold := Stream.holds_send l.conn.toServer (l.client.requestMetadata.header.encode cfg)
      headerSize
    rwa [hc.toServer] at hold

theorem Unused.bitmap (h : Unused l) (haw : l.client.awaiting = true)
    (ha : ∃ m, l.client.bitmapArea = .allocated m)
    (hc : ConnAt .recvHeader io 0 bitmapSizeMax l.conn) :
    Goes cfg l (.bitmap bitmapSizeMax) fun l' => Unused l' ∧
      (l'.client.awaiting = false ∧ ∃ m, l'.client.bitmapArea = .allocated m) ∧
        ConnAt .recvHeader io 0 0 l'.conn := by
  obtain ⟨m, ha⟩ := ha
  let area := l.conn.toClient.fill (fun _ => 0) bitmapSizeMax
  let s : Client := { l.client with
    bitmapArea := .allocated area
    awaiting := false
    history := ⟨area, [], false⟩ }
  have hs : l.client.step cfg.client (.bitmap area) = some s := by
    simp only [Client.step, receiveBitmap, if_pos haw, ha, s]
  have hdel : l.client.socketUp = true ∧
      Delivers l.conn.toClient l.conn.server.socketUp bitmapSizeMax bitmapSizeMax :=
    ⟨h.up, le_refl _, by rw [hc.toClient], fun h0 => absurd h0 (by decide)⟩
  refine ⟨⟨⟨rfl, trivial⟩, ?_, h.up⟩, ⟨s, l.buff, { l.conn with
    toClient := l.conn.toClient.take bitmapSizeMax }⟩, ?_,
    ⟨h.threads, h.partner, h.recovery, h.up⟩, ⟨rfl, _, rfl⟩, ?_⟩
  · intro g hg
    cases hg
    exact ⟨trivial, fun _ _ hpos => by cases hpos⟩
  · simp only [step, if_pos hdel, hs, Option.map_some, area]
  · exact ⟨hc.up, hc.io, hc.phase, hc.toServer, by simp [Stream.take, hc.toClient]⟩

/-- The thread `tid` has been created for a resync from bit 0. -/
structure Launched (tid : Nat) (l : Link) : Prop where
  thread : l.client.thread tid = some ⟨.created, false⟩
  area : ∃ m, l.client.bitmapArea = .allocated m
  partner : l.client.partnerState ≠ .pause
  io : l.client.ioState ≠ .released
  recovery : l.client.recoveryMode = false
  others : ∀ t < l.client.nextTid, t ≠ tid → l.client.thread t = none
  bitPos : l.client.bitPos = 0
  awaiting : l.client.awaiting = false
  up : l.client.socketUp = true

theorem Unused.resync (h : Unused l) (haw : l.client.awaiting = false)
    (ha : ∃ m, l.client.bitmapArea = .allocated m) :
    Goes cfg l (.client .resync) fun l' => Launched l.client.nextTid l' ∧ l'.conn = l.conn := by
  have hs : l.client.step cfg.client .resync = some (l.client.resyncInit 0) := by
    rw [Client.step, command, if_neg (by simp [haw])]
  refine ⟨⟨⟨trivial, fun _ => ⟨h.threads, haw⟩⟩, ?_, h.up⟩, ⟨l.client.resyncInit 0, l.buff, l.conn⟩,
    ?_, ⟨Function.update_self _ _ _, ha, h.partner, by simp [resyncInit], h.recovery, ?_, rfl, haw,
    h.up⟩, rfl⟩
  · intro g hg
    cases hg
    refine ⟨trivial, fun _ pos hpos b hb => ?_⟩
    rw [launches, if_neg (by simp [haw])] at hpos
    cases hpos
    omega
  · simp only [step, if_pos (show Apart l.client .resync from trivial), hs, Option.map_some]
  · intro t ht hne
    have hlt : t < l.client.nextTid + 1 := ht
    show Function.update l.client.thread l.client.nextTid _ t = none
    rw [Function.update_of_ne hne]
    exact h.threads t (by omega)

theorem Launched.start (h : Launched tid l) (hg : cfg.client.chunkSize ≠ 0) :
    Goes cfg l (.client (.run tid true)) fun l' =>
      Running tid (.test 0) l' ∧ l'.conn = l.conn := by
  have hph : l.client.phaseOf tid = some .created := by
    rw [Client.phaseOf, h.thread, Option.map_some]
  have happ : Apart l.client (.run tid true) := by
    unfold Apart
    dsimp only
    rw [hph]
    trivial
  let s : Client := { l.client with
    header := { l.client.header with opcode := .data }
    repState := .inProgress }
  have hs : l.client.step cfg.client (.run tid true) = some (s.setPhase tid (.test 0)) := by
    simp only [Client.step, runThread, h.thread, Option.bind_some, Client.start, if_neg hg,
      h.recovery, h.bitPos, if_pos, if_neg Bool.false_ne_true, s]
  have hth : (s.setPhase tid (.test 0)).thread tid = some ⟨.test 0, false⟩ := by
    simp [s, h.thread]
  refine ⟨⟨⟨trivial, fun hb => absurd rfl hb⟩, ?_, h.up⟩, ⟨s.setPhase tid (.test 0), l.buff, l.conn⟩,
    ?_, ⟨hth, ?_, h.area, h.partner, h.io, by simp [s, setPhase], h.recovery, h.awaiting, h.up⟩,
    rfl⟩
  · intro g hg
    cases hg
    refine ⟨?_, fun _ _ hpos => by cases hpos⟩
    rintro th hth
    rw [h.thread] at hth
    cases hth
    rfl
  · rw [step, if_pos happ, hs, Option.map_some]
  · intro t ht hne
    show Function.update l.client.thread tid _ t = none
    rw [Function.update_of_ne hne]
    exact h.others t ht hne

end Link

end Ebdr
