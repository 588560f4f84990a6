import Ebdr.Protocol.Link

/-!
# Chunk integrity

What is written at a `start_lba` of the target has been read at the same `start_lba` of the source,
for the same request (`chunk_integrity`), in runs in which no short transfer passes for a whole one,
a thread is started only while no other one is running, and the two sides agree on the sizes. The
program takes a `recv` that returns 0 for a whole chunk, and writes what its buffer held before
(`written_after_eof`).

The proof follows the one request that can be outstanding (`Talk`): its header is on the way, is at
the server, has been read for, or its reply is on the way, and nothing else is.
-/

namespace Ebdr

open ByteMem CInt Lts

namespace Link

open Client

/-! ### The property and its condition -/

/-- The buffer `m` holds the bytes read for the last request, which was for the place of `h`. -/
def Answer (cfg : Config) (c : Conn) (h : ClientHeader) (m : Mem) : Prop :=
  ∃ r rest, c.server.served = r :: rest ∧ c.server.served.length = c.asked ∧
    r.startLba = cfg.server.startLba h.currPos h.chunkPos ∧ r.size = bufSizeInBytes ∧
      ∀ i < bufSizeInBytes, m i = r.bytes i

/-- A buffer that is handed to `chunk_write_client` for a place holds the 4096 bytes that
`chunk_read_server` read at this place for the request, the last one sent. -/
def Intact (cfg : Config) (l : Link) : Prop :=
  ∀ tid pos chunkId, l.client.phaseOf tid = some (.write pos chunkId) →
    ∃ r rest, l.conn.server.served = r :: rest ∧ l.conn.server.served.length = l.conn.asked ∧
      r.startLba = cfg.client.startLba pos chunkId ∧ r.size = bufSizeInBytes ∧
        ∀ i < bufSizeInBytes, l.buff tid i = r.bytes i

/-- A server's receive or read fails or is complete. -/
def WholeServer : ServerEvent → Prop
  | .recvHeader r => r = none ∨ r = some headerSize
  | .getData r _ => r = none ∨ r = some bufSizeInBytes
  | .getBitmap _ _ | .chunkWrite _ | .terminate | .other _ _ => True

/-- A receive, a read of the source, and the send of a termination header fail or are complete; the
server's only matter while the client has not closed the connection. -/
def Whole (l : Link) : LinkEvent → Prop
  | .send tid r => l.client.phaseOf tid = some .sendTermination → r = none ∨ r = some headerSize
  | .recv _ r timedOut => r = none ∨ r = some bufSizeInBytes ∨ timedOut = true
  | .bitmap n => n = bitmapSizeMax
  | .server e => l.client.socketUp = false ∨ WholeServer e
  | .client _ | .metadata _ => True

/-- A thread is started, or a bitmap requested, when no thread is running and no bitmap awaited. -/
def StartsAlone (l : Link) : LinkEvent → Prop
  | .client e => Wire.Begins l.client e →
    (∀ t < l.client.nextTid, l.client.thread t = none) ∧ l.client.awaiting = false
  | .metadata _ =>
    (∀ t < l.client.nextTid, l.client.thread t = none) ∧ l.client.awaiting = false
  | .send _ _ | .recv _ _ _ | .bitmap _ | .server _ => True

def Orderly (l : Link) (e : LinkEvent) : Prop := Whole l e ∧ StartsAlone l e

instance (e : ServerEvent) : Decidable (WholeServer e) := by
  unfold WholeServer
  split <;> infer_instance

instance (l : Link) (e : LinkEvent) : Decidable (Orderly l e) := by
  have : Decidable (Whole l e) := by
    unfold Whole
    split <;> infer_instance
  have : Decidable (StartsAlone l e) := by
    unfold StartsAlone
    split <;> infer_instance
  unfold Orderly
  infer_instance

/-! ### The outstanding request -/

def IsTermination (cfg : Config) (m : Mem) : Prop :=
  ∃ h : ClientHeader, h.opcode = .rplcTermination ∧ m = h.encode cfg

/-- The server's header object holds `h`. -/
def HeaderIs (cfg : Config) (t : ServerThread) (h : ClientHeader) : Prop :=
  ∀ i < headerSize, t.header i = h.encode cfg i

/-- The server has nothing to answer. -/
def Calm (cfg : Config) (t : ServerThread) : Prop :=
  t.phase = .recvHeader ∨ t.phase = .returned ∨
    (t.phase = .dispatch ∧ ∃ h : ClientHeader, h.opcode = .rplcTermination ∧ HeaderIs cfg t h)

/-- The reads that a request still has to bring. -/
def owed (h : ClientHeader) : Nat := if h.opcode = .data then 1 else 0

/-- Where the outstanding request is, if there is one. -/
inductive Talk (cfg : Config) (c : Conn) : Option ClientHeader → Prop
  | idle {n : Nat} {m : Mem} (toClient : c.toClient.pending = 0)
      (toServer : c.toServer.Queue headerSize (IsTermination cfg) n m 0) (calm : Calm cfg c.server)
      (count : c.server.served.length = c.asked) : Talk cfg c none
  | queued {h : ClientHeader} {n k : Nat} (toClient : c.toClient.pending = 0)
      (toServer : c.toServer.Queue headerSize (IsTermination cfg) n (h.encode cfg) k)
      (le : k ≤ headerSize) (calm : Calm cfg c.server)
      (count : c.server.served.length + owed h = c.asked) : Talk cfg c (some h)
  | arrived {h : ClientHeader} (toClient : c.toClient.pending = 0)
      (toServer : c.toServer.pending = 0) (phase : c.server.phase = .dispatch)
      (header : HeaderIs cfg c.server h)
      (count : c.server.served.length + owed h = c.asked) : Talk cfg c (some h)
  | read {h : ClientHeader} (toClient : c.toClient.pending = 0) (toServer : c.toServer.pending = 0)
      (phase : c.server.phase = .chunkWrite) (answer : Answer cfg c h c.server.rbuff) :
      Talk cfg c (some h)
  | answered {h : ClientHeader} {m : Mem} {k : Nat} (toServer : c.toServer.pending = 0)
      (phase : c.server.phase = .recvHeader ∨ c.server.phase = .returned)
      (toClient : c.toClient.pending = k) (holds : c.toClient.Holds 0 m k)
      (le : k ≤ bufSizeInBytes) (answer : Answer cfg c h m) : Talk cfg c (some h)
  | bitmapSent {h : ClientHeader} (opcode : h.opcode = .bitmapMetadata)
      (toServer : c.toServer.pending = 0)
      (phase : c.server.phase = .recvHeader ∨ c.server.phase = .returned)
      (toClient : c.toClient.pending ≤ bitmapSizeMax)
      (count : c.server.served.length = c.asked) : Talk cfg c (some h)
  /-- There will be no answer. -/
  | refused {h : ClientHeader} (toClient : c.toClient.pending = 0)
      (toServer : c.toServer.pending = 0)
      (phase : c.server.phase = .recvHeader ∨ c.server.phase = .returned ∨
        (c.server.phase = .chunkWrite ∧ c.server.socketUp = false)) : Talk cfg c (some h)

theorem finds_of_headerIs {cfg : Config} {t : ServerThread} {h : ClientHeader}
    (hp : t.phase = .dispatch) (hh : HeaderIs cfg t h) : t.Finds cfg h.opcode := by
  unfold HeaderIs headerSize at hh
  refine ⟨hp, ?_, ?_⟩
  · rw [ServerThread.opcode, ← opcode_encode cfg h]
    apply loadLE_congr
    intro i hi
    exact hh _ (by omega)
  · rw [ServerThread.partnerId, ← partnerId_encode cfg h]
    apply loadLE_congr
    intro i hi
    exact hh _ (by omega)

/-- The server computes the place from the header's fields; their reduction to 64 bits does not
show. -/
theorem startLba_of_headerIs {cfg : Config} {t : ServerThread} {h : ClientHeader}
    (hh : HeaderIs cfg t h) :
    cfg.server.startLba t.currPos t.chunkPos = cfg.server.startLba h.currPos h.chunkPos := by
  unfold HeaderIs headerSize at hh
  have hcurr : t.currPos = ulong h.currPos := by
    rw [ServerThread.currPos, ← currPos_encode cfg h]
    apply loadLE_congr
    intro i hi
    exact hh _ (by omega)
  have hchunk : t.chunkPos = ulong h.chunkPos := by
    rw [ServerThread.chunkPos, ← chunkPos_encode cfg h]
    apply loadLE_congr
    intro i hi
    exact hh _ (by omega)
  rw [hcurr, hchunk, Geometry.startLba, Geometry.startLba, ulong, ulong, ulong, ulong, Nat.add_mod,
    Nat.mod_mul_mod, Nat.mod_mul_mod, ← Nat.add_mod]

theorem code_injective {o o' : Opcode} (h : o.code = o'.code) : o = o' := by
  cases o <;> cases o' <;> first | rfl | cases h

theorem finds_unique {cfg : Config} {t : ServerThread} {o o' : Opcode} (h : t.Finds cfg o)
    (h' : t.Finds cfg o') : o = o' :=
  code_injective (h.2.1.symm.trans h'.2.1)

theorem Calm.finds {cfg : Config} {t : ServerThread} (h : Calm cfg t) (hp : t.phase = .dispatch) :
    t.Finds cfg .rplcTermination := by
  rcases h with h | h | ⟨-, hd, hop, hh⟩
  · rw [hp] at h
    cases h
  · rw [hp] at h
    cases h
  · rw [← hop]
    exact finds_of_headerIs hp hh

/-! ### Steps of the server -/

theorem Talk.move {cfg : Config} {c : Conn} {a : Option ClientHeader} {t : ServerThread}
    (ht : Talk cfg c a) (hp : c.server.phase = .recvHeader)
    (hp' : t.phase = .recvHeader ∨ t.phase = .returned) (hs : t.served = c.server.served) :
    Talk cfg { c with server := t } a := by
  have hcalm : Calm cfg t := hp'.imp id Or.inl
  cases ht with
  | idle h1 h2 _ h4 => exact .idle h1 h2 hcalm (by rw [← h4, ← hs])
  | queued h1 h2 h3 _ h5 => exact .queued h1 h2 h3 hcalm (by rw [← h5, ← hs])
  | arrived _ _ h3 _ _ | read _ _ h3 _ =>
    rw [hp] at h3
    cases h3
  | answered h1 _ h3 h4 h5 h6 =>
    refine .answered h1 hp' h3 h4 h5 ?_
    unfold Answer at h6 ⊢
    dsimp only
    rwa [hs]
  | bitmapSent h1 h2 _ h4 h5 => exact .bitmapSent h1 h2 hp' h4 (by rw [← h5, ← hs])
  | refused h1 h2 _ => exact .refused h1 h2 (hp'.imp id Or.inl)

theorem Talk.recvHeader {cfg : Config} {c : Conn} {a : Option ClientHeader} (ht : Talk cfg c a)
    (hp : c.server.phase = .recvHeader) (hle : headerSize ≤ c.toServer.pending) :
    Talk cfg { c with
      toServer := c.toServer.take headerSize
      server := { c.server with
        phase := .dispatch
        header := c.toServer.fill c.server.header headerSize } } a := by
  have hpos : 0 < headerSize := by decide
  have hcalm : ∀ x, IsTermination cfg x → c.toServer.Holds 0 x headerSize →
      Calm cfg { c.server with
        phase := .dispatch
        header := c.toServer.fill c.server.header headerSize } := by
    rintro x ⟨h, hop, rfl⟩ hx
    exact Or.inr (Or.inr ⟨rfl, h, hop, hx.fill⟩)
  cases ht with
  | @idle n m h1 h2 _ h4 =>
    cases n with
    | zero =>
      have hpend := h2.pending
      omega
    | succ n =>
      obtain ⟨hrest, x, hx, hold⟩ := h2.take
      exact .idle h1 hrest (hcalm x hx hold) h4
  | @queued h n k h1 h2 h3 _ h5 =>
    cases n with
    | zero =>
      have hpend := h2.pending
      obtain rfl : k = headerSize := by omega
      have hnone : c.toServer.pending - headerSize = 0 := by omega
      exact .arrived h1 hnone rfl (Stream.Holds.fill h2.last) h5
    | succ n =>
      obtain ⟨hrest, x, hx, hold⟩ := h2.take
      exact .queued h1 hrest h3 (hcalm x hx hold) h5
  | arrived _ _ h3 _ _ | read _ _ h3 _ =>
    rw [hp] at h3
    cases h3
  | answered h1 _ _ _ _ _ => omega
  | bitmapSent _ h2 _ _ _ => omega
  | refused _ h2 _ => omega

/-- A server that looks at a header: the request has arrived, or it is a termination, and handling it
answers nobody. -/
theorem Talk.dispatch {cfg : Config} {c : Conn} {a : Option ClientHeader} (ht : Talk cfg c a)
    (hp : c.server.phase = .dispatch) :
    (∃ h, a = some h ∧ c.toClient.pending = 0 ∧ c.toServer.pending = 0 ∧
        HeaderIs cfg c.server h ∧ c.server.served.length + owed h = c.asked) ∨
      (c.server.Finds cfg .rplcTermination ∧ ∀ t : ServerThread, t.phase = .recvHeader →
        t.served = c.server.served → Talk cfg { c with server := t } a) := by
  cases ht with
  | arrived h1 h2 _ h4 h5 => exact Or.inl ⟨_, rfl, h1, h2, h4, h5⟩
  | idle h1 h2 h3 h4 =>
    refine Or.inr ⟨h3.finds hp, fun t ht hs => ?_⟩
    exact .idle h1 h2 (Or.inl ht) (by rw [← h4, ← hs])
  | queued h1 h2 h3 h4 h5 =>
    refine Or.inr ⟨h4.finds hp, fun t ht hs => ?_⟩
    exact .queued h1 h2 h3 (Or.inl ht) (by rw [← h5, ← hs])
  | read _ _ h3 _ => simp [hp] at h3
  | answered _ h2 _ _ _ _ => simp [hp] at h2
  | bitmapSent _ _ h3 _ _ => simp [hp] at h3
  | refused _ _ h3 => simp [hp] at h3

theorem Talk.of_finds {cfg : Config} {c : Conn} {a : Option ClientHeader} {o : Opcode}
    (ht : Talk cfg c a) (hf : c.server.Finds cfg o) (ho : o ≠ .rplcTermination) :
    ∃ h, a = some h ∧ h.opcode = o ∧ c.toClient.pending = 0 ∧ c.toServer.pending = 0 ∧
      HeaderIs cfg c.server h ∧ c.server.served.length + owed h = c.asked := by
  rcases ht.dispatch hf.1 with ⟨h, ha, h1, h2, hh, hcount⟩ | ⟨hterm, -⟩
  · exact ⟨h, ha, finds_unique (finds_of_headerIs hf.1 hh) hf, h1, h2, hh, hcount⟩
  · exact absurd (finds_unique hf hterm) ho

theorem Talk.terminate {cfg : Config} {c : Conn} {a : Option ClientHeader} (ht : Talk cfg c a)
    (hf : c.server.Finds cfg .rplcTermination) : Talk cfg c.terminate a := by
  have hphase : c.terminate.server.phase = .recvHeader := by
    unfold Conn.terminate
    split <;> rfl
  have hserved : c.terminate.server.served = c.server.served := by
    unfold Conn.terminate
    split <;> rfl
  have hrest : c.terminate = { c with server := c.terminate.server } := by
    unfold Conn.terminate
    split <;> rfl
  rw [hrest]
  rcases ht.dispatch hf.1 with ⟨h, rfl, h1, h2, -, -⟩ | ⟨-, hnext⟩
  · exact .refused h1 h2 (Or.inl hphase)
  · exact hnext _ hphase hserved

theorem Talk.getData {cfg : Config} {c c' : Conn} {a : Option ClientHeader} {r : Option Nat}
    {m : Mem} (ht : Talk cfg c a) (hf : c.server.Finds cfg .data)
    (hr : r = none ∨ r = some bufSizeInBytes) (hc : c.getData cfg r m = some c') :
    Talk cfg c' a ∧ c'.asked = c.asked ∧ a ≠ none := by
  obtain ⟨h, rfl, hop, h1, h2, hh, hcount⟩ := ht.of_finds hf (by decide)
  unfold Conn.getData at hc
  split at hc
  · cases hc
    exact ⟨.refused h1 h2 (Or.inl rfl), rfl, nofun⟩
  · rcases hr with rfl | rfl
    · cases hc
      exact ⟨.refused h1 h2 (Or.inr (Or.inr ⟨rfl, rfl⟩)), rfl, nofun⟩
    · dsimp only at hc
      rw [if_pos (le_refl _)] at hc
      cases hc
      refine ⟨.read h1 h2 rfl ⟨_, _, rfl, ?_, startLba_of_headerIs hh, rfl, ?_⟩, rfl, nofun⟩
      · rw [owed, if_pos hop] at hcount
        exact hcount
      · intro i hi
        dsimp only
        rw [copyBytes_of_lt hi, Nat.zero_add]

theorem Talk.getBitmap {cfg : Config} {c c' : Conn} {a : Option ClientHeader} {r : Option Nat}
    {m : Mem} (ht : Talk cfg c a) (hf : c.server.Finds cfg .bitmapMetadata)
    (hc : c.getBitmap m r = some c') : Talk cfg c' a ∧ c'.asked = c.asked ∧ a ≠ none := by
  obtain ⟨h, rfl, hop, h1, h2, -, hcount⟩ := ht.of_finds hf (by decide)
  unfold Conn.getBitmap at hc
  dsimp only at hc
  split at hc
  · cases hc
    exact ⟨.refused h1 h2 (Or.inl rfl), rfl, by simp⟩
  · split at hc
    · rename_i k hk
      cases hc
      have hpend : c.toClient.pending + k ≤ bitmapSizeMax := by omega
      have hdata : owed h = 0 := by rw [owed, hop, if_neg (by decide)]
      rw [hdata, Nat.add_zero] at hcount
      exact ⟨.bitmapSent hop h2 (Or.inl rfl) hpend hcount, rfl, by simp⟩
    · cases hc

theorem Talk.chunkWrite {cfg : Config} {c c' : Conn} {a : Option ClientHeader} {r : Option Nat}
    (ht : Talk cfg c a) (hp : c.server.phase = .chunkWrite) (hc : c.chunkWrite r = some c') :
    Talk cfg c' a ∧ c'.asked = c.asked ∧ a ≠ none := by
  unfold Conn.chunkWrite at hc
  cases ht with
  | idle _ _ h3 _ | queued _ _ _ h3 _ => simp [Calm, hp] at h3
  | arrived _ _ h3 _ _ => simp [hp] at h3
  | answered _ h2 _ _ _ _ => simp [hp] at h2
  | bitmapSent _ _ h3 _ _ => simp [hp] at h3
  | read h1 h2 _ h4 =>
    split at hc
    · cases hc
      exact ⟨.refused h1 h2 (Or.inl rfl), rfl, by simp⟩
    · split at hc
      · rename_i k hk
        cases hc
        have hpend : c.toClient.pending + k = k := by omega
        have hold := Stream.holds_send c.toClient c.server.rbuff k
        rw [h1] at hold
        exact ⟨.answered h2 (Or.inl rfl) hpend hold hk.2 h4, rfl, by simp⟩
      · cases hc
  | refused h1 h2 h3 =>
    have hdown : c.server.socketUp = false := by
      rcases h3 with h3 | h3 | ⟨-, h3⟩
      · rw [hp] at h3
        cases h3
      · rw [hp] at h3
        cases h3
      · exact h3
    split at hc
    · cases hc
      exact ⟨.refused h1 h2 (Or.inl rfl), rfl, by simp⟩
    · rw [hdown, if_neg (by simp)] at hc
      cases hc

/-- **Step lemma**, for the server: the outstanding request stays outstanding, and nothing is read
when there is none. -/
theorem talk_server {cfg : Config} {c c' : Conn} {a : Option ClientHeader} {e : ServerEvent}
    (ht : Talk cfg c a) (hw : WholeServer e)
    (hask : ∀ h, a = some h → h.opcode = .data ∨ h.opcode = .bitmapMetadata)
    (hc : c.serverStep cfg true e = some c') :
    Talk cfg c' a ∧ c'.asked = c.asked ∧ (a = none → c'.server.served = c.server.served) := by
  cases e with
  | recvHeader r =>
    obtain ⟨hp, hc⟩ := Option.ite_none_right_eq_some.mp hc
    unfold Conn.recvHeader at hc
    rcases hw with rfl | rfl
    · dsimp only at hc
      split at hc
      · cases hc
        exact ⟨ht.move hp (Or.inr rfl) rfl, rfl, fun _ => rfl⟩
      · cases hc
        exact ⟨ht.move hp (Or.inr rfl) rfl, rfl, fun _ => rfl⟩
    · dsimp only at hc
      split at hc
      · rename_i hd
        cases hc
        exact ⟨ht.recvHeader hp hd.2.2.1, rfl, fun _ => rfl⟩
      · cases hc
  | getBitmap m r =>
    obtain ⟨hf, hc⟩ := Option.ite_none_right_eq_some.mp hc
    obtain ⟨h1, h2, h3⟩ := ht.getBitmap hf hc
    exact ⟨h1, h2, fun ha => absurd ha h3⟩
  | getData r m =>
    obtain ⟨hf, hc⟩ := Option.ite_none_right_eq_some.mp hc
    obtain ⟨h1, h2, h3⟩ := ht.getData hf hw hc
    exact ⟨h1, h2, fun ha => absurd ha h3⟩
  | chunkWrite r =>
    obtain ⟨hp, hc⟩ := Option.ite_none_right_eq_some.mp hc
    obtain ⟨h1, h2, h3⟩ := ht.chunkWrite hp hc
    exact ⟨h1, h2, fun ha => absurd ha h3⟩
  | terminate =>
    obtain ⟨hf, hc⟩ := Option.ite_none_right_eq_some.mp hc
    cases hc
    refine ⟨ht.terminate hf, ?_, fun _ => ?_⟩ <;>
    · unfold Conn.terminate
      split <;> rfl
  | other m k =>
    obtain ⟨hd, hc⟩ := Option.ite_none_right_eq_some.mp hc
    obtain ⟨hp, hmeta, hdata, hterm⟩ := hd
    rcases ht.dispatch hp with ⟨h, ha, -, -, hh, -⟩ | ⟨hf, -⟩
    · have hfinds := finds_of_headerIs hp hh
      rcases hask _ ha with hop | hop <;> rw [hop] at hfinds
      · exact absurd hfinds hdata
      · exact absurd hfinds hmeta
    · exact absurd hf hterm

/-! ### Steps of the client apart from the connection -/

/-- While the termination is sent, the header object says so. -/
def Ending (s : Client) : Prop :=
  ∀ tid ph, s.phaseOf tid = some ph → ph = .resetBit ∨ ph = .sendTermination →
    s.header.opcode = .rplcTermination

/-- Where a thread gets without a send or a receive. -/
def NextOk (s s' : Client) (ph : ResyncPhase) : ResyncPhase → Prop
  | .write _ _ => False
  | .resetBit => s'.header.opcode = .rplcTermination
  | .sendTermination => ph = .resetBit ∧ s'.header = s.header
  | _ => True

theorem nextOk_setPhase {s s1 : Client} {tid : Nat} {ph ph' : ResyncPhase}
    (h : NextOk s s1 ph ph') :
    ∀ th, (s1.setPhase tid ph').thread tid = some th →
      NextOk s (s1.setPhase tid ph') ph th.phase := by
  intro th hth
  rw [Wire.setPhase_phase hth]
  exact h

theorem nextOk_endThread {s s1 : Client} {tid : Nat} {ph : ResyncPhase} :
    ∀ th, (s1.endThread tid).thread tid = some th →
      NextOk s (s1.endThread tid) ph th.phase := by
  intro th hth
  simp [endThread] at hth

theorem nextOk_run {g : Geometry} {s s' : Client} {tid : Nat} {ok : Bool} {th : ResyncThread}
    (hth : s.thread tid = some th) (hapart : Apart s (.run tid ok))
    (h : s.runThread g tid ok = some s') :
    ∀ th', s'.thread tid = some th' → NextOk s s' th.phase th'.phase := by
  obtain ⟨ph, x⟩ := th
  have hphase : s.phaseOf tid = some ph := by rw [phaseOf, hth, Option.map_some]
  rw [Apart, hphase] at hapart
  cases threadStep_of_run hth h with
  | sent | received | sendLost | recvLost | sendTermination => exact hapart.elim
  | @look pos hpos hrun m =>
    apply nextOk_setPhase
    cases bit m pos <;> exact trivial
  | terminate => exact nextOk_setPhase rfl
  | resetBit => exact nextOk_setPhase ⟨rfl, rfl⟩
  | chunkReleased | connLost | completed | release => exact nextOk_endThread
  | _ => exact nextOk_setPhase trivial

/-- What a step of the client apart from the connection leaves. -/
structure Leaves (s s' : Client) : Prop where
  awaiting : s'.awaiting = s.awaiting
  socket : s'.socketUp = true → s.socketUp = true
  write : ∀ tid pos c, s'.phaseOf tid = some (.write pos c) →
    s.phaseOf tid = some (.write pos c) ∧ s'.socketUp = s.socketUp
  ending : Ending s → Ending s'

theorem leaves_of_same {s s' : Client} (ha : s'.awaiting = s.awaiting)
    (hs : s'.socketUp = s.socketUp) (ht : s'.thread = s.thread) (hh : s'.header = s.header) :
    Leaves s s' where
  awaiting := ha
  socket := by
    intro h
    rwa [← hs]
  write := by
    intro tid pos c h
    refine ⟨?_, hs⟩
    rwa [phaseOf, ht] at h
  ending := by
    intro hend tid ph hph hor
    rw [phaseOf, ht] at hph
    rw [hh]
    exact hend tid ph hph hor

theorem leaves_of_phases {s s' : Client} (ha : s'.awaiting = s.awaiting)
    (hs : s'.socketUp = true → s.socketUp = true)
    (hph : ∀ tid ph, s'.phaseOf tid = some ph → ph = .created) : Leaves s s' where
  awaiting := ha
  socket := hs
  write := by
    intro tid pos c h
    cases hph tid _ h
  ending := by
    intro _ tid ph h hor
    rw [hph tid ph h] at hor
    rcases hor with hor | hor <;> cases hor

theorem phaseOf_resyncInit {s : Client} {pos : Nat} (h : ∀ t, s.thread t = none) :
    ∀ tid ph, (s.resyncInit pos).phaseOf tid = some ph → ph = .created := by
  intro tid ph hph
  by_cases ht : tid = s.nextTid
  · rw [phaseOf, resyncInit, ht] at hph
    dsimp only at hph
    rw [Function.update_self] at hph
    exact (Option.some.inj hph).symm
  · have hnone : Function.update s.thread s.nextTid (some ⟨.created, false⟩) tid = none := by
      rw [Function.update_of_ne ht]
      exact h tid
    rw [phaseOf, resyncInit] at hph
    dsimp only at hph
    rw [hnone] at hph
    cases hph

theorem phaseOf_touches {s s' : Client} {tid t : Nat} {th : ResyncThread} {ph : ResyncPhase}
    (hs : Single s) (hth : s.thread tid = some th) (ht : Touches tid s s')
    (hph : s'.phaseOf t = some ph) : t = tid := by
  by_contra hne
  obtain rfl := hs.eq_slot hth
  rw [phaseOf, ht.others t hne hne, hs.only t hne] at hph
  cases hph

theorem leaves_run {g : Geometry} {s s' : Client} {tid : Nat} {ok : Bool} (hs : Single s)
    (hapart : Apart s (.run tid ok)) (h : s.runThread g tid ok = some s') : Leaves s s' := by
  obtain ⟨th, hth, -⟩ := Option.bind_eq_some_iff.mp h
  have htouch := touches_run h
  have hnext := nextOk_run hth hapart h
  refine ⟨htouch.awaiting, htouch.socket, ?_, ?_⟩
  · intro t pos c hph
    obtain rfl := phaseOf_touches hs hth htouch hph
    obtain ⟨th', hth', hp⟩ := Option.map_eq_some_iff.mp hph
    have hok := hnext th' hth'
    rw [hp] at hok
    exact hok.elim
  · intro hend t ph hph hor
    obtain rfl := phaseOf_touches hs hth htouch hph
    obtain ⟨th', hth', hp⟩ := Option.map_eq_some_iff.mp hph
    have hok := hnext th' hth'
    rw [hp] at hok
    rcases hor with rfl | rfl
    · exact hok
    · obtain ⟨hreset, hheader⟩ := hok
      rw [hheader]
      refine hend t .resetBit ?_ (Or.inl rfl)
      rw [phaseOf, hth, Option.map_some, hreset]

/-- **Step lemma**, for the steps of the client apart from the connection. -/
theorem leaves_step {g : Geometry} {s s' : Client} {e : Client.Event} (hs : Single s)
    (hapart : Apart s e)
    (halone : Wire.Begins s e → (∀ t < s.nextTid, s.thread t = none) ∧ s.awaiting = false)
    (h : s.step g e = some s') : Leaves s s' := by
  cases stepCase_of_step h with
  | metadata | bitmap => exact hapart.elim
  | run hrun => exact leaves_run hs hapart hrun
  | @endCancelled tid ph hth =>
    have htouch : Touches tid s (s.endThread tid) :=
      touches_endThread tid ⟨⟨rfl, rfl, rfl⟩, rfl, id, rfl⟩
    refine leaves_of_phases rfl id fun t ph hph => ?_
    obtain rfl := phaseOf_touches hs hth htouch hph
    simp [phaseOf, endThread] at hph
  | pause | idle => exact leaves_of_same rfl rfl rfl rfl
  | launch hl _ hup =>
    have hnone : ∀ t, s.thread t = none := hs.none_of (halone (Wire.begins_of_launches hl)).1
    have hconn : e ≠ .recoveryConn := by
      rintro rfl
      have hp : s.connState ≠ .pause := hapart
      rw [launches, if_neg hp] at hl
      cases hl
    obtain rfl := hup.resolve_right hconn
    exact leaves_of_phases rfl id (phaseOf_resyncInit hnone)

theorem queue_of_apart {w : Wire} {e : Client.Event} (h : Apart w.client e) :
    w.queue e = w.inFlight := by
  cases e with
  | run tid ok =>
    unfold Apart at h
    unfold Wire.queue
    dsimp only at h ⊢
    split at h
    · exact h.elim
    · exact h.elim
    · exact h.elim
    · rename_i hsend hrecv _
      split
      · rename_i heq
        exact absurd heq (hsend _ _)
      · rename_i heq
        exact absurd heq (hrecv _ _)
      · rfl
  | recoveryConn =>
    have hp : w.client.connState ≠ .pause := h
    rw [Wire.queue, if_neg hp]
  | metadata | bitmap m => exact h.elim
  | _ => rfl

/-! ### The invariant -/

/-- The request in flight, as the server sees it. -/
def Outstanding (w : Wire) : Option ClientHeader → Prop
  | none => w.client.awaiting = false ∧ w.inFlight = []
  | some h =>
    (w.client.awaiting = true ∧ w.inFlight = [] ∧ h.opcode = .bitmapMetadata) ∨
      (w.client.awaiting = false ∧ ∃ pos c, w.inFlight = [⟨pos, c⟩] ∧ h = ⟨.data, pos, c⟩)

/-- The streams and the server agree with what is in flight. -/
def Sync (cfg : Config) (w : Wire) (c : Conn) : Prop :=
  w.client.socketUp = true → ∃ a, Outstanding w a ∧ Talk cfg c a

structure LinkInv (cfg : Config) (l : Link) : Prop where
  wire : ∃ q b, Wire.WireInv ⟨l.client, q, b⟩ ∧ Sync cfg ⟨l.client, q, b⟩ l.conn
  ending : Ending l.client
  written : ∀ tid pos c, l.client.phaseOf tid = some (.write pos c) →
    l.client.socketUp = true ∧ Answer cfg l.conn ⟨.data, pos, c⟩ (l.buff tid)

theorem linkInv_boot (cfg : Config) (header : Mem) (buff : Nat → Mem) :
    LinkInv cfg (boot header buff) where
  wire := by
    refine ⟨[], fun _ => none, Wire.wireInv_boot, fun _ => ⟨none, ⟨rfl, rfl⟩, ?_⟩⟩
    exact .idle (m := cfg.rest) rfl (Stream.queue_of_empty rfl) (Or.inl rfl) rfl
  ending := by
    intro tid ph hph
    cases hph
  written := by
    intro tid pos c hph
    cases hph

theorem Outstanding.ask {w : Wire} {a : Option ClientHeader} (h : Outstanding w a) :
    ∀ x, a = some x → x.opcode = .data ∨ x.opcode = .bitmapMetadata := by
  rintro x rfl
  rcases h with ⟨-, -, hop⟩ | ⟨-, pos, c, -, rfl⟩
  · exact Or.inr hop
  · exact Or.inl rfl

theorem Outstanding.eq_none {w : Wire} {a : Option ClientHeader} {tid : Nat} {th : ResyncThread}
    (h : Outstanding w a) (hw : Wire.WireInv w) (hth : w.client.thread tid = some th)
    (hr : ∀ pos c, th.phase ≠ .recv pos c) : a = none := by
  cases a with
  | none => rfl
  | some x =>
    rcases h with ⟨haw, -, -⟩ | ⟨-, pos, c, hq, -⟩
    · rw [hw.alone haw] at hth
      cases hth
    · rw [hw.empty hth hr] at hq
      cases hq

theorem awaiting_of_thread {w : Wire} {tid : Nat} {th : ResyncThread} (hw : Wire.WireInv w)
    (hth : w.client.thread tid = some th) : w.client.awaiting = false := by
  rw [Bool.eq_false_iff]
  intro haw
  rw [hw.alone haw] at hth
  cases hth

theorem enabled_run_true {w : Wire} {tid : Nat} :
    w.Enabled (.run tid true) ↔
      ∀ pos c, w.client.phaseOf tid = some (.recv pos c) → w.inFlight ≠ [] := by
  unfold Wire.Enabled
  dsimp only
  split
  · rename_i pos c hph
    constructor
    · intro h _ _ _
      exact h
    · intro h
      exact h pos c hph
  · rename_i hno
    refine iff_of_true trivial ?_
    intro pos c hph
    exact absurd hph (hno pos c)

theorem enabled_run {w : Wire} {tid : Nat} {ok : Bool} {ph : ResyncPhase}
    (hph : w.client.phaseOf tid = some ph) (hr : ∀ pos c, ph ≠ .recv pos c) :
    w.Enabled (.run tid ok) := by
  cases ok with
  | false => trivial
  | true =>
    rw [enabled_run_true]
    intro pos c hrecv
    rw [hph] at hrecv
    exact absurd (Option.some.inj hrecv) (hr pos c)

theorem wire_step {g : Geometry} {s c : Client} {e : Client.Event} {q : List Request}
    {b : Nat → Option Request} (hw : Wire.WireInv ⟨s, q, b⟩)
    (hen : (⟨s, q, b⟩ : Wire).Enabled e)
    (halone : Wire.Begins s e → (∀ t < s.nextTid, s.thread t = none) ∧ s.awaiting = false)
    (hc : s.step g e = some c) :
    Wire.WireInv ⟨c, (⟨s, q, b⟩ : Wire).queue e, (⟨s, q, b⟩ : Wire).buffers e⟩ := by
  refine Wire.wireInv_step (e := .client e) hw halone (g := g) ?_
  simp only [Wire.step]
  rw [if_pos hen, hc, Option.map_some]

theorem phaseOf_setPhase {s s1 : Client} {tid t : Nat} {th : ResyncThread} {ph ph' : ResyncPhase}
    (hs : Single s) (hth : s.thread tid = some th) (ht : Touches tid s (s1.setPhase tid ph))
    (h : (s1.setPhase tid ph).phaseOf t = some ph') : t = tid ∧ ph' = ph := by
  obtain rfl := phaseOf_touches hs hth ht h
  obtain ⟨th', hth', rfl⟩ := Option.map_eq_some_iff.mp h
  exact ⟨rfl, Wire.setPhase_phase hth'⟩

theorem ending_setPhase {s s1 : Client} {tid : Nat} {th : ResyncThread} {ph : ResyncPhase}
    (hs : Single s) (hth : s.thread tid = some th) (ht : Touches tid s (s1.setPhase tid ph))
    (hreset : ph ≠ .resetBit) (hsend : ph ≠ .sendTermination) : Ending (s1.setPhase tid ph) := by
  intro t ph' hph hlast
  obtain ⟨-, rfl⟩ := phaseOf_setPhase hs hth ht hph
  exact absurd hlast (not_or.mpr ⟨hreset, hsend⟩)

theorem not_writing_setPhase {s s1 : Client} {tid : Nat} {th : ResyncThread} {ph : ResyncPhase}
    (hs : Single s) (hth : s.thread tid = some th) (ht : Touches tid s (s1.setPhase tid ph))
    (hwrite : ∀ pos c, ph ≠ .write pos c) {t pos c : Nat} :
    (s1.setPhase tid ph).phaseOf t ≠ some (.write pos c) := by
  intro hph
  exact hwrite pos c (phaseOf_setPhase hs hth ht hph).2.symm

/-- **Step lemma**, for the steps of the client apart from the connection. -/
theorem LinkInv.apart {cfg : Config} {l : Link} {c : Client} {e : Client.Event}
    (hi : LinkInv cfg l) (hapart : Apart l.client e) (halone : StartsAlone l (.client e))
    (hc : l.client.step cfg.client e = some c) : LinkInv cfg ⟨c, l.buff, l.conn⟩ := by
  obtain ⟨q, b, hw, hsync⟩ := hi.wire
  have hleaves : Leaves l.client c := leaves_step hw.single hapart halone hc
  have hen : (⟨l.client, q, b⟩ : Wire).Enabled e := by
    cases e with
    | metadata | bitmap m => exact hapart.elim
    | run tid ok =>
      cases ok with
      | false => trivial
      | true =>
        rw [enabled_run_true]
        intro pos c hph
        unfold Apart at hapart
        dsimp only at hapart hph
        rw [hph] at hapart
        exact hapart.elim
    | _ => trivial
  have hw' := wire_step hw hen halone hc
  rw [queue_of_apart (w := ⟨l.client, q, b⟩) hapart] at hw'
  refine ⟨⟨q, _, hw', ?_⟩, hleaves.ending hi.ending, ?_⟩
  · intro hup
    obtain ⟨a, ha, ht⟩ := hsync (hleaves.socket hup)
    refine ⟨a, ?_, ht⟩
    cases a with
    | none => exact ⟨hleaves.awaiting.trans ha.1, ha.2⟩
    | some h =>
      rcases ha with ⟨haw, hq, hop⟩ | ⟨haw, hrest⟩
      · exact Or.inl ⟨hleaves.awaiting.trans haw, hq, hop⟩
      · exact Or.inr ⟨hleaves.awaiting.trans haw, hrest⟩
  · intro tid pos k hph
    obtain ⟨hold, hsock⟩ := hleaves.write tid pos k hph
    obtain ⟨hup, hans⟩ := hi.written tid pos k hold
    exact ⟨hsock.trans hup, hans⟩

theorem LinkInv.lost {cfg : Config} {l : Link} {s : Client} {tid : Nat} {th : ResyncThread}
    {q : List Request} {b : Nat → Option Request} {buff : Nat → Mem} {conn : Conn}
    (hi : LinkInv cfg l) (hth : l.client.thread tid = some th)
    (ht : Touches tid l.client (s.setPhase tid .connLost)) (hdown : s.socketUp = false)
    (hw : Wire.WireInv ⟨s.setPhase tid .connLost, q, b⟩) :
    LinkInv cfg ⟨s.setPhase tid .connLost, buff, conn⟩ := by
  obtain ⟨_, _, hw0, _⟩ := hi.wire
  refine ⟨⟨q, b, hw, ?_⟩, ending_setPhase hw0.single hth ht nofun nofun, ?_⟩
  · intro hup
    have hup' : s.socketUp = true := hup
    rw [hdown] at hup'
    cases hup'
  · intro t pos c hph
    exact absurd hph (not_writing_setPhase hw0.single hth ht nofun)

/-- **Step lemma**, for the send of a resync thread. -/
theorem LinkInv.send {cfg : Config} {l l' : Link} {tid : Nat} {r : Option Nat} (hi : LinkInv cfg l)
    (hacc : Accepts l.client r) (hwhole : Whole l (.send tid r)) (h : l.send cfg tid r = some l') :
    LinkInv cfg l' := by
  obtain ⟨q, b, hw, hsync⟩ := hi.wire
  unfold Link.send at h
  dsimp only at h
  split at h
  case h_3 => cases h
  case h_1 pos k hph =>
    obtain ⟨⟨ph, x⟩, hth, rfl⟩ := Option.map_eq_some_iff.mp hph
    obtain ⟨c, hc, rfl⟩ := Option.map_eq_some_iff.mp h
    have htouch : Touches tid l.client c := touches_run hc
    have hslot := hw.single.eq_slot hth
    have haw : l.client.awaiting = false := awaiting_of_thread hw hth
    have hen : (⟨l.client, q, b⟩ : Wire).Enabled (.run tid r.isSome) := enabled_run hph (by simp)
    have hw' := wire_step hw hen (fun hb => absurd rfl hb) hc
    obtain ⟨hheader, hq⟩ := hw.flight _ (hslot ▸ hth)
    cases threadStep_of_run hth hc with
    | sent hx hok =>
      obtain ⟨n, rfl⟩ := Option.isSome_iff_exists.mp hok
      have hqueue : (⟨l.client, q, b⟩ : Wire).queue (.run tid (some n).isSome) = [⟨pos, k⟩] := by
        rw [Wire.queue]
        dsimp only
        rw [hph]
        dsimp only [Option.isSome_some]
        rw [if_pos rfl, hheader, if_pos rfl, show q = [] from hq, List.nil_append]
      rw [hqueue] at hw'
      refine ⟨⟨_, _, hw', ?_⟩, ending_setPhase hw.single hth htouch (by simp) (by simp), ?_⟩
      · intro hup
        obtain ⟨a, ha, ht⟩ := hsync hup
        obtain rfl := ha.eq_none hw hth (by simp)
        refine ⟨some ⟨.data, pos, k⟩, Or.inr ⟨haw, pos, k, rfl, rfl⟩, ?_⟩
        cases ht with
        | idle h1 h2 h3 h4 =>
          have hcount : l.conn.server.served.length + owed ⟨.data, pos, k⟩ = l.conn.asked + 1 := by
            rw [h4]
            rfl
          have hsend : l.sendHeader cfg l.client.header (some n) =
              l.conn.toServer.send (ClientHeader.encode cfg ⟨.data, pos, k⟩) n := by
            rw [show l.client.header = ⟨.data, pos, k⟩ from hheader]
            rfl
          show Talk cfg { l.conn with
            toServer := l.sendHeader cfg l.client.header (some n)
            asked := l.conn.asked + 1 } _
          rw [hsend]
          exact .queued h1 (h2.start _ n) hacc.1 h3 hcount
      · intro t pos' k' hpt
        exact absurd hpt (not_writing_setPhase hw.single hth htouch (by simp))
    | sendLost => exact hi.lost hth htouch rfl hw'
  case h_2 hph =>
    obtain ⟨⟨ph, x⟩, hth, rfl⟩ := Option.map_eq_some_iff.mp hph
    obtain ⟨c, hc, rfl⟩ := Option.map_eq_some_iff.mp h
    have htouch : Touches tid l.client c := touches_run hc
    have hen : (⟨l.client, q, b⟩ : Wire).Enabled (.run tid true) := enabled_run hph (by simp)
    have hw' := wire_step hw hen (fun hb => absurd rfl hb) hc
    have hqueue : (⟨l.client, q, b⟩ : Wire).queue (.run tid true) = q := by
      rw [Wire.queue, hph]
    rw [hqueue] at hw'
    cases threadStep_of_run hth hc
    refine ⟨⟨_, _, hw', ?_⟩, ending_setPhase hw.single hth htouch (by simp) (by simp), ?_⟩
    · intro hup
      obtain ⟨a, ha, ht⟩ := hsync hup
      obtain rfl := ha.eq_none hw hth (by simp)
      refine ⟨none, ha, ?_⟩
      cases ht with
      | idle h1 h2 h3 h4 =>
        rcases hwhole hph with rfl | rfl
        · exact .idle h1 h2 h3 h4
        · have hterm : IsTermination cfg (l.client.header.encode cfg) :=
            ⟨l.client.header, hi.ending tid _ hph (Or.inr rfl), rfl⟩
          exact .idle h1 (h2.snoc hterm) h3 h4
    · intro t pos' k' hpt
      exact absurd hpt (not_writing_setPhase hw.single hth htouch (by simp))

/-- A whole chunk is received: it is the answer, and nothing else is on the way. -/
theorem Talk.received {cfg : Config} {c : Conn} {pos k : Nat}
    (ht : Talk cfg c (some ⟨.data, pos, k⟩)) (buff : Mem) (hle : bufSizeInBytes ≤ c.toClient.pending) :
    Talk cfg { c with toClient := c.toClient.take bufSizeInBytes } none ∧
      Answer cfg c ⟨.data, pos, k⟩ (c.toClient.fill buff bufSizeInBytes) := by
  have hpos : 0 < bufSizeInBytes := by decide
  cases ht with
  | queued h1 _ _ _ _ => omega
  | arrived h1 _ _ _ _ => omega
  | read h1 _ _ _ => omega
  | bitmapSent hop _ _ _ _ => cases hop
  | refused h1 _ _ => omega
  | @answered _ m n h1 h2 h3 h4 h5 h6 =>
    obtain rfl : n = bufSizeInBytes := by omega
    obtain ⟨r, rest, hserved, hcount, hlba, hsize, hbytes⟩ := h6
    have hnone : c.toClient.pending - bufSizeInBytes = 0 := by omega
    refine ⟨.idle (m := m) hnone (Stream.queue_of_empty h1) (h2.imp id Or.inl) hcount, ?_⟩
    refine ⟨r, rest, hserved, hcount, hlba, hsize, ?_⟩
    intro i hi
    rw [h4.fill i hi]
    exact hbytes i hi

theorem Talk.bitmapReceived {cfg : Config} {c : Conn} {h : ClientHeader}
    (ht : Talk cfg c (some h)) (hle : bitmapSizeMax ≤ c.toClient.pending) :
    Talk cfg { c with toClient := c.toClient.take bitmapSizeMax } none := by
  have hpos : bufSizeInBytes < bitmapSizeMax := by decide
  cases ht with
  | queued h1 _ _ _ _ => omega
  | arrived h1 _ _ _ _ => omega
  | read h1 _ _ _ => omega
  | answered _ _ _ _ _ _ => omega
  | refused h1 _ _ => omega
  | bitmapSent _ h2 h3 h4 h5 =>
    have hnone : c.toClient.pending - bitmapSizeMax = 0 := by omega
    exact .idle (m := cfg.rest) hnone (Stream.queue_of_empty h2) (h3.imp id Or.inl) h5

/-- **Step lemma**, for the receive of a resync thread. -/
theorem LinkInv.recv {cfg : Config} {l l' : Link} {tid : Nat} {r : Option Nat} {timedOut : Bool}
    (hi : LinkInv cfg l) (hwhole : Whole l (.recv tid r timedOut))
    (h : l.recv cfg tid r timedOut = some l') : LinkInv cfg l' := by
  obtain ⟨q, b, hw, hsync⟩ := hi.wire
  unfold Link.recv at h
  split at h
  case h_2 => cases h
  rename_i pos k hph
  obtain ⟨⟨ph, x⟩, hth, rfl⟩ := Option.map_eq_some_iff.mp hph
  have haw : l.client.awaiting = false := awaiting_of_thread hw hth
  obtain ⟨-, hq⟩ := hw.flight _ (hw.single.eq_slot hth ▸ hth)
  have hen : ∀ ok, (⟨l.client, q, b⟩ : Wire).Enabled (.run tid ok) := by
    intro ok
    cases ok with
    | false => trivial
    | true =>
      rw [enabled_run_true]
      intro _ _ _
      rw [show q = [⟨pos, k⟩] from hq]
      simp
  cases r with
  | none =>
    dsimp only at h
    obtain ⟨c, hc, rfl⟩ := Option.map_eq_some_iff.mp h
    have hw' := wire_step hw (hen false) (fun hb => absurd rfl hb) hc
    cases threadStep_of_run hth hc with
    | received hx hok => cases hok
    | recvLost => exact hi.lost hth (touches_run hc) rfl hw'
  | some n =>
    dsimp only at h
    split at h
    case isFalse => cases h
    rename_i hd
    obtain ⟨hup, -, hle, -⟩ := hd
    obtain ⟨c, hc, rfl⟩ := Option.map_eq_some_iff.mp h
    have htouch := touches_run hc
    have hw' := wire_step hw (hen _) (fun hb => absurd rfl hb) hc
    cases threadStep_of_run hth hc with
    | received hx hok =>
      obtain rfl : n = bufSizeInBytes := by
        rcases hwhole with hn | hn | hn
        · cases hn
        · exact Option.some.inj hn
        · rw [hn] at hok
          cases hok
      rw [hok] at hw'
      have hqueue : (⟨l.client, q, b⟩ : Wire).queue (.run tid true) = [] := by
        rw [Wire.queue, hph]
        dsimp only
        rw [if_pos rfl, show q = [⟨pos, k⟩] from hq, List.tail_cons]
      rw [hqueue] at hw'
      obtain ⟨a, ha, ht⟩ := hsync hup
      obtain rfl : a = some ⟨.data, pos, k⟩ := by
        cases a with
        | none =>
          have hnil : q = [] := ha.2
          rw [show q = [⟨pos, k⟩] from hq] at hnil
          cases hnil
        | some x =>
          rcases ha with ⟨haw', -, -⟩ | ⟨-, pos', k', hq', rfl⟩
          · rw [show l.client.awaiting = true from haw'] at haw
            cases haw
          · cases (show q = [⟨pos, k⟩] from hq).symm.trans hq'
            rfl
      obtain ⟨hidle, hans⟩ := ht.received (l.buff tid) hle
      have hending := ending_setPhase hw.single hth htouch (by simp) (by simp)
      refine ⟨⟨_, _, hw', fun _ => ⟨none, ⟨haw, rfl⟩, hidle⟩⟩, hending, ?_⟩
      · intro t pos' k' hpt
        obtain ⟨rfl, hph'⟩ := phaseOf_setPhase hw.single hth htouch hpt
        cases hph'
        refine ⟨hup, ?_⟩
        dsimp only
        rw [Function.update_self]
        exact hans
    | recvLost => exact hi.lost hth htouch rfl hw'

/-- **Step lemma**, for the metadata command. -/
theorem LinkInv.metadata {cfg : Config} {l : Link} {c : Client} {r : Option Nat}
    (hi : LinkInv cfg l) (hacc : Accepts l.client r) (halone : StartsAlone l (.metadata r))
    (hc : l.client.step cfg.client .metadata = some c) :
    LinkInv cfg ⟨c, l.buff, { l.conn with toServer := l.sendHeader cfg c.header r }⟩ := by
  obtain ⟨q, b, hw, hsync⟩ := hi.wire
  have hnone : ∀ t, l.client.thread t = none := hw.single.none_of halone.1
  have hw' := wire_step hw (e := .metadata) trivial (fun _ => halone) hc
  have hq : q = [] := hw.idle (hnone _)
  obtain ⟨-, rfl⟩ := command_eq_some hc
  have hthread := (sameSlot_requestMetadata l.client).thread
  have hsock : l.client.requestMetadata.socketUp = l.client.socketUp := by
    unfold requestMetadata
    split <;> rfl
  have hop : l.client.requestMetadata.header.opcode = .bitmapMetadata := rfl
  have hphase : ∀ tid, l.client.requestMetadata.phaseOf tid = none := by
    intro tid
    rw [phaseOf, hthread, hnone, Option.map_none]
  refine ⟨⟨_, _, hw', ?_⟩, ?_, ?_⟩
  · intro hup
    have hup' : l.client.socketUp = true := hsock.symm.trans hup
    obtain ⟨a, ha, ht⟩ := hsync hup'
    obtain rfl : a = none := by
      cases a with
      | none => rfl
      | some x =>
        rcases ha with ⟨haw, -, -⟩ | ⟨-, pos, k, hq', -⟩
        · have hfalse : l.client.awaiting = false := halone.2
          rw [show l.client.awaiting = true from haw] at hfalse
          cases hfalse
        · rw [show q = [_] from hq'] at hq
          cases hq
    refine ⟨some l.client.requestMetadata.header, Or.inl ⟨rfl, hq, hop⟩, ?_⟩
    have howed : owed l.client.requestMetadata.header = 0 := by
      rw [owed, hop, if_neg (by decide)]
    cases ht with
    | idle h1 h2 h3 h4 =>
      have hcount : l.conn.server.served.length + owed l.client.requestMetadata.header =
          l.conn.asked := by rw [howed, h4, Nat.add_zero]
      cases r with
      | none => exact .queued h1 h2.nothing (Nat.zero_le _) h3 hcount
      | some n => exact .queued h1 (h2.start _ n) hacc.1 h3 hcount
  · intro tid ph hph
    dsimp only at hph
    rw [hphase] at hph
    cases hph
  · intro tid pos k hph
    dsimp only at hph
    rw [hphase] at hph
    cases hph

/-- **Step lemma**, for the receive of the bitmap. -/
theorem LinkInv.bitmap {cfg : Config} {l : Link} {c : Client} {m : Mem} (hi : LinkInv cfg l)
    (hle : bitmapSizeMax ≤ l.conn.toClient.pending)
    (hc : l.client.step cfg.client (.bitmap m) = some c) :
    LinkInv cfg ⟨c, l.buff, { l.conn with toClient := l.conn.toClient.take bitmapSizeMax }⟩ := by
  obtain ⟨q, b, hw, hsync⟩ := hi.wire
  have hc' := hc
  simp only [Client.step, receiveBitmap] at hc
  split at hc
  case isFalse => cases hc
  rename_i haw
  have hnone : ∀ t, l.client.thread t = none := hw.alone haw
  have hq : q = [] := hw.idle (hnone _)
  have hw' := wire_step hw (e := .bitmap m) hq (fun hb => absurd rfl hb) hc'
  split at hc
  case h_2 | h_3 => cases hc
  cases hc
  refine ⟨⟨_, _, hw', ?_⟩, ?_, ?_⟩
  · intro hup
    obtain ⟨a, ha, ht⟩ := hsync hup
    cases a with
    | none =>
      have hawf : l.client.awaiting = false := ha.1
      rw [haw] at hawf
      cases hawf
    | some x => exact ⟨none, ⟨rfl, hq⟩, ht.bitmapReceived hle⟩
  · intro tid ph hph
    rw [phaseOf] at hph
    dsimp only at hph
    rw [hnone] at hph
    cases hph
  · intro tid pos k hph
    rw [phaseOf] at hph
    dsimp only at hph
    rw [hnone] at hph
    cases hph

/-- **Step lemma**, for the steps of the server. -/
theorem LinkInv.server {cfg : Config} {l : Link} {c : Conn} {e : ServerEvent} (hi : LinkInv cfg l)
    (hwhole : Whole l (.server e)) (hc : l.conn.serverStep cfg l.client.socketUp e = some c) :
    LinkInv cfg ⟨l.client, l.buff, c⟩ := by
  obtain ⟨q, b, hw, hsync⟩ := hi.wire
  have htalk : l.client.socketUp = true → ∀ a, Outstanding ⟨l.client, q, b⟩ a →
      Talk cfg l.conn a →
        Talk cfg c a ∧ c.asked = l.conn.asked ∧
          (a = none → c.server.served = l.conn.server.served) := by
    intro hup a ha ht
    have hwe : WholeServer e := hwhole.resolve_left (by simp [hup])
    rw [hup] at hc
    exact talk_server ht hwe ha.ask hc
  refine ⟨⟨q, b, hw, ?_⟩, hi.ending, ?_⟩
  · intro hup
    obtain ⟨a, ha, ht⟩ := hsync hup
    exact ⟨a, ha, (htalk hup a ha ht).1⟩
  · intro tid pos k hph
    obtain ⟨hup, r, rest, hserved, hcount, hbytes⟩ := hi.written tid pos k hph
    obtain ⟨th, hth, hp⟩ := Option.map_eq_some_iff.mp hph
    obtain ⟨a, ha, ht⟩ := hsync hup
    -- while a thread writes, nothing is outstanding
    obtain rfl := ha.eq_none hw hth fun pos' k' hr => by
      rw [hp] at hr
      cases hr
    obtain ⟨-, hasked, hsame⟩ := htalk hup none ha ht
    rw [← hsame rfl] at hserved hcount
    rw [← hasked] at hcount
    exact ⟨hup, r, rest, hserved, hcount, hbytes⟩

/-- **Step lemma.** -/
theorem linkInv_step {cfg : Config} {l l' : Link} {e : LinkEvent} (hi : LinkInv cfg l)
    (hord : Orderly l e) (h : l.step cfg e = some l') : LinkInv cfg l' := by
  obtain ⟨hwhole, halone⟩ := hord
  cases e with
  | client e =>
    obtain ⟨hapart, h⟩ := Option.ite_none_right_eq_some.mp h
    obtain ⟨c, hc, rfl⟩ := Option.map_eq_some_iff.mp h
    exact hi.apart hapart halone hc
  | send tid r =>
    obtain ⟨hacc, h⟩ := Option.ite_none_right_eq_some.mp h
    exact hi.send hacc hwhole h
  | recv tid r timedOut => exact hi.recv hwhole h
  | metadata r =>
    obtain ⟨hacc, h⟩ := Option.ite_none_right_eq_some.mp h
    obtain ⟨c, hc, rfl⟩ := Option.map_eq_some_iff.mp h
    exact hi.metadata hacc halone hc
  | bitmap n =>
    obtain ⟨hd, h⟩ := Option.ite_none_right_eq_some.mp h
    obtain ⟨c, hc, rfl⟩ := Option.map_eq_some_iff.mp h
    obtain rfl : n = bitmapSizeMax := hwhole
    exact hi.bitmap hd.2.2.1 hc
  | server e =>
    obtain ⟨c, hc, rfl⟩ := Option.map_eq_some_iff.mp h
    exact hi.server hwhole hc

/-! ### Chunk integrity -/

/-- **Chunk integrity.** Where both sides hold the same sizes, in a run in which no short transfer
passes for a whole one and a thread is started only while no other one is running, every buffer that
is handed to `chunk_write_client` holds the 4096 bytes that were read from the source at the same
place for this request. -/
theorem chunk_integrity {cfg : Config} (hg : cfg.client = cfg.server) {header : Mem}
    {buff : Nat → Mem} {es : List LinkEvent} {l : Link}
    (hm : Meets (step cfg) Orderly (boot header buff) es)
    (hr : run (step cfg) (boot header buff) es = some l) : Intact cfg l := by
  have hi : LinkInv cfg l :=
    run_inv (fun l e l' hi hok hs => linkInv_step hi hok hs) (linkInv_boot cfg header buff) hm hr
  intro tid pos chunkId hph
  obtain ⟨-, hans⟩ := hi.written tid pos chunkId hph
  rw [hg]
  exact hans

/-- Partner 0 with two chunks to a grain. -/
def twoChunks : Config := ⟨0, by decide, fun _ => 0, ⟨16, 8⟩, ⟨16, 8⟩⟩

/-- The bitmap with bit 0 is exchanged, a resync sends its first header. -/
def firstHeader : List LinkEvent :=
  [.metadata (some 280), .server (.recvHeader (some 280)),
    .server (.getBitmap (oneBit 0) (some 16384)), .bitmap 16384, .client .resync,
    .client (.run 0 true), .client (.run 0 true), .client (.run 0 true), .send 0 (some 280),
    .server (.recvHeader (some 280))]

theorem chunk_integrity_first :
    ∃ l, run (step twoChunks) (boot (fun _ => 0) fun _ _ => 0)
        (firstHeader ++ [.server (.getData (some 4096) fun _ => 3),
          .server (.chunkWrite (some 4096)), .recv 0 (some 4096) false]) = some l ∧
      l.client.phaseOf 0 = some (.write 0 0) ∧ l.buff 0 4095 = 3 ∧ Intact twoChunks l := by
  have hsome : (run (step twoChunks) (boot (fun _ => 0) fun _ _ => 0)
      (firstHeader ++ [.server (.getData (some 4096) fun _ => 3),
        .server (.chunkWrite (some 4096)), .recv 0 (some 4096) false])).map
          (fun l => (l.client.phaseOf 0, l.buff 0 4095)) = some (some (.write 0 0), 3) := by decide
  obtain ⟨l, hl, hval⟩ := Option.map_eq_some_iff.mp hsome
  rw [Prod.mk.injEq] at hval
  exact ⟨l, hl, hval.1, hval.2, chunk_integrity rfl (by decide) hl⟩

/-- The source cannot be read, so the server closes the connection. The client's `recv` returns 0,
and the client writes what its buffer held before. -/
theorem written_after_eof :
    ¬ ∀ (cfg : Config) (header : Mem) (buff : Nat → Mem) (es : List LinkEvent) (l : Link),
      cfg.client = cfg.server → run (step cfg) (boot header buff) es = some l → Intact cfg l := by
  intro h
  have hsome : (run (step twoChunks) (boot (fun _ => 0) fun _ _ => 0)
      (firstHeader ++ [.server (.getData none fun _ => 0), .server (.chunkWrite none),
        .recv 0 (some 0) false])).map
          (fun l => (l.client.phaseOf 0, l.conn.server.served.length)) =
            some (some (.write 0 0), 0) := by decide
  obtain ⟨l, hl, hval⟩ := Option.map_eq_some_iff.mp hsome
  rw [Prod.mk.injEq] at hval
  obtain ⟨r, rest, hserved, -⟩ := h _ _ _ _ l rfl hl 0 0 0 hval.1
  rw [hserved] at hval
  cases hval.2

end Link

end Ebdr
