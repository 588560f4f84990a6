import Ebdr.Protocol.Consistency
import Ebdr.Protocol.Transfer
import Ebdr.Server.Progress

/-!
# A round brings the target up to date

A round is a metadata request with its resync and its termination. Between rounds the half that the
kernel does not write is clear (`Rested`), so that when a round is over a byte of the target is that
of the source unless a write has marked its grain since the request (`round_synchronises`). From every
state at rest such a round can be had (`target_catches_up`).
-/

namespace Ebdr

open ByteMem CInt Lts Tracking

/-- The write marks grain `b` of a disk of `gib` GiB: the grains from that of its first sector to that
of `bio_end_sector`. -/
def Bio.Marks (gib : Nat) (bio : Bio) (b : Nat) : Prop :=
  bio.biSector / (16 * gib) ≤ b ∧ b ≤ bioEndSector bio / (16 * gib)

namespace Session

open Client Server

variable {cfg : Config} {gib : Nat} {d : SrcDisk} {s s' : Session} {e : SessionEvent}

/-- No write of the event marks grain `b`. -/
def SparesGrain (gib b : Nat) : SessionEvent → Prop
  | .write bio _ => bio.isWrite = true → ¬ bio.Marks gib b
  | _ => True

theorem spares_write {bio : Bio} {b : Nat} (hgib : 1 ≤ gib) (hfit : 2 * gib < 2 ^ 31)
    (hscript : ScriptDevice gib cfg.pid s.server) (hin : bio.isWrite = true → bio.Inside gib)
    (hsp : bio.isWrite = true → ¬ bio.Marks gib b) :
    Tracker.Spares b (s.server.label cfg.pid (.write (cfg.pid + 1) bio)) := by
  cases hw : bio.isWrite with
  | false =>
    rw [label, if_neg (by simp [hw])]
    trivial
  | true =>
    obtain ⟨area, u, hb⟩ := hscript
    rw [label, if_pos ⟨rfl, hw⟩, hb]
    rintro ⟨hfirst, hlast⟩
    obtain ⟨-, hpos, hend⟩ := hin hw
    have hsmall : 0 < 16 * gib := by omega
    have hsector : bio.biSector / (16 * gib) < 131072 :=
      (Nat.div_lt_iff_lt_mul hsmall).mpr (by omega)
    have hlt : ∀ y, toInt (ebdrFindPos (scriptBitmap gib area u) y) =
        (min (y / (16 * gib)) 131071 : Nat) := by
      intro y
      rw [Kernel.script_findPos hgib hfit, toInt_of_lt (by omega)]
    rw [firstBit, hlt] at hfirst
    rw [lastBit, hlt] at hlast
    exact hsp hw ⟨by omega, by omega⟩

theorem spares_label {b : Nat} (hgib : 1 ≤ gib) (hfit : 2 * gib < 2 ^ 31)
    (hscript : ScriptDevice gib cfg.pid s.server) (hin : StaysInside gib e)
    (hen : s.Enabled cfg e) (hsp : SparesGrain gib b e) {f : Server.Event}
    (hf : serverPart cfg e = some f) : Tracker.Spares b (s.server.label cfg.pid f) := by
  cases e with
  | write bio data =>
    cases hf
    exact spares_write hgib hfit hscript hin hsp
  | server g =>
    cases hf
    cases f with
    | write i bio =>
      have hother : i ≠ cfg.pid + 1 := hen
      rw [label, if_neg fun h => hother h.1]
      trivial
    | recvMetadata q | recvTerminate q | run q | connPause q | connResume q | loadRow q state =>
      rw [label]
      split <;> trivial
    | control | restart => trivial
  | getBitmap | sendBitmap | terminate =>
    cases hf
    rw [label, if_pos rfl]
    trivial
  | _ => cases hf

/-- **Step lemma**, for a grain that is not written. -/
theorem settling_step {b : Nat} (hsz : ScriptSizes cfg gib d) (hc : Control cfg gib d s)
    (hok : Steady cfg gib s e) (hreq : e ≠ .getBitmap) (hsp : SparesGrain gib b e)
    (h : Stepped cfg s e s') (hs : (s.server.view cfg.pid d).Settling b) :
    (s'.server.view cfg.pid d).Settling b := by
  rcases tracker_step hc hok h with ⟨-, hsame⟩ | ⟨f, hf, hl, -, hstep⟩
  · rw [hsame]
    exact hs
  · have hdvd : 8 ∣ d.bitmapSize := by
      rw [hsz.half]
      decide
    refine Tracker.settling_step hc.rounds.rounds (bounded_view hdvd) hl ?_ ?_ hs hstep
    · intro hlabel
      rw [label_request hlabel] at hf
      exact hreq (serverPart_metadata h.enabled hf)
    · exact spares_label hsz.pos hsz.fit hc.script hok.inside h.enabled hsp hf

theorem settling_getBitmap {b : Nat} (hc : Control cfg gib d s)
    (hok : Steady cfg gib s .getBitmap) (h : Stepped cfg s .getBitmap s')
    (hb : b ∉ s.passive cfg d) : (s'.server.view cfg.pid d).Settling b := by
  rcases tracker_step hc hok h with ⟨hno, -⟩ | ⟨f, hf, -, -, hstep⟩
  · cases hno
  · cases hf
    rw [label, if_pos rfl] at hstep
    exact Tracker.settling_request (eq_false_of_ne_true hb) hstep

/-! ### Between rounds -/

/-- No round is under way: none was asked for yet, or the last one is over. -/
def Rests (cfg : Config) (s : Session) : Prop :=
  s.server.phase cfg.pid = .idle ∧
    (s.server.ubitmap cfg.pid = none ∨ s.server.partnerState cfg.pid = .released)

/-- Bit by bit, what the rounds before leave in the half that the kernel does not write. -/
def Rested (cfg : Config) (d : SrcDisk) (s : Session) : Prop :=
  ∀ b, (s.server.view cfg.pid d).Rested b

theorem Rested.clear (h : s.Rested cfg d) (hr : s.Rests cfg) : s.passive cfg d = ∅ := by
  refine Set.eq_empty_iff_forall_notMem.mpr fun b hb => ?_
  have hrests : (s.server.view cfg.pid d).Rests := by
    refine ⟨hr.1, hr.2.imp (fun hm => ?_) fun hr => decide_eq_true hr⟩
    rw [view, hm]
    rfl
  have hset : (s.server.view cfg.pid d).dirty (s.server.view cfg.pid d).active.other b = true := hb
  rw [(h b).clear hrests] at hset
  cases hset

theorem Start.rested (h : Start cfg gib d s) (hp : s.passive cfg d = ∅) : s.Rested cfg d := by
  intro b
  have hidle : (s.server.view cfg.pid d).phase = .idle := h.ready.idle cfg.pid
  rw [Tracker.Rested, hidle]
  intro _
  have hb : b ∉ s.passive cfg d := by
    rw [hp]
    exact fun hb => hb.elim
  exact eq_false_of_ne_true hb

/-- **Step lemma.** -/
theorem rested_step (hsz : ScriptSizes cfg gib d) (hc : Control cfg gib d s)
    (hok : Steady cfg gib s e) (h : Stepped cfg s e s') (hs : s.Rested cfg d) : s'.Rested cfg d := by
  rcases tracker_step hc hok h with ⟨-, hsame⟩ | ⟨f, -, hl, -, hstep⟩
  · rw [Rested, hsame]
    exact hs
  · have hdvd : 8 ∣ d.bitmapSize := by
      rw [hsz.half]
      decide
    exact fun b => Tracker.rested_step hc.rounds.rounds (bounded_view hdvd) hl (hs b) hstep

theorem rested_run (hsz : ScriptSizes cfg gib d) {es : List SessionEvent}
    (hi : DirectInv cfg gib d s) (hs : s.Rested cfg d) (hm : Meets (step cfg) (Direct cfg gib d) s es)
    (hr : run (step cfg) s es = some s') : s'.Rested cfg d := by
  have hend := Lts.run_inv (I := fun u => DirectInv cfg gib d u ∧ u.Rested cfg d)
    (fun u e u' hu hok hs => ⟨direct_step hsz hu.1 hok hs,
      rested_step hsz hu.1.control hok.toSteady (stepped hs) hu.2⟩) ⟨hi, hs⟩ hm hr
  exact hend.2

/-- The round of partner `pid` is over. -/
def RoundOver (cfg : Config) (s : Session) : Prop :=
  s.server.phase cfg.pid = .idle ∧ s.server.partnerState cfg.pid = .released

/-- A grain that no write has marked since the request is clear in both halves when the round is
over. -/
theorem clear_after_round {b : Nat} (hsz : ScriptSizes cfg gib d) (hi : DirectInv cfg gib d s)
    {fs : List SessionEvent} (hb : b ∉ s.passive cfg d)
    (hm : Meets (step cfg) (Direct cfg gib d) s (.getBitmap :: fs))
    (hone : .getBitmap ∉ fs) (hsp : ∀ e ∈ fs, SparesGrain gib b e)
    (hr : run (step cfg) s (.getBitmap :: fs) = some s') (hover : s'.RoundOver cfg) :
    b ∉ s'.active cfg d ∧ b ∉ s'.passive cfg d := by
  obtain ⟨t, ht, hr⟩ := run_cons_some.mp hr
  have hstart : DirectInv cfg gib d t ∧ (t.server.view cfg.pid d).Settling b :=
    ⟨direct_step hsz hi hm.1 ht,
      settling_getBitmap hi.control hm.1.toSteady (stepped ht) hb⟩
  have hrest : ∀ e ∈ fs, e ≠ .getBitmap ∧ SparesGrain gib b e :=
    fun e he => ⟨fun heq => hone (heq ▸ he), hsp e he⟩
  have hend := Lts.run_inv
    (I := fun u => DirectInv cfg gib d u ∧ (u.server.view cfg.pid d).Settling b)
    (fun u e u' hu hok hs => ⟨direct_step hsz hu.1 hok.1 hs,
      settling_step hsz hu.1.control hok.1.toSteady hok.2.1 hok.2.2 (stepped hs) hu.2⟩)
    hstart (meets_and.mpr ⟨hm.2 t ht, meets_of_forall t hrest⟩) hr
  have hclear := hend.2.clear hover.1 (decide_eq_true hover.2)
  constructor
  · intro hmark
    have hset : (s'.server.view cfg.pid d).dirty _ b = true := hmark
    rw [hclear] at hset
    cases hset
  · intro hmark
    have hset : (s'.server.view cfg.pid d).dirty _ b = true := hmark
    rw [hclear] at hset
    cases hset

theorem DirectInv.synced {y : Nat} (hi : DirectInv cfg gib d s) (hy : y < gib * 2 ^ 30)
    (ha : grainOf gib y ∉ s.active cfg d) (hp : grainOf gib y ∉ s.passive cfg d) :
    s.target y = s.disk y := by
  refine ((hi.data.recorded y hy).resolve_right ?_).1
  rintro (h | h)
  · exact ha h
  · exact hp h

/-! ### Steps without writes -/

/-- The event writes nothing to the device. -/
def Quiet : SessionEvent → Prop
  | .write bio _ => bio.isWrite = false
  | _ => True

theorem Quiet.spares {b : Nat} (h : Quiet e) : SparesGrain gib b e := by
  cases e with
  | write bio data =>
    intro hw
    have hq : bio.isWrite = false := h
    rw [hw] at hq
    cases hq
  | _ => trivial

/-- A step of the run script's session that is no metadata request and writes nothing to the
device. -/
def Lull (cfg : Config) (gib : Nat) (d : SrcDisk) (s : Session) (e : SessionEvent) : Prop :=
  Direct cfg gib d s e ∧ e ≠ .getBitmap ∧ Quiet e

theorem steady_of_link {f : LinkEvent} (hl : s.linkPart cfg e = some f) (hf : Link.Fine s.link f)
    (hserver : ∀ g ∈ serverPart cfg e,
      RoundEvent g ∧ KeepsIndex s.server g ∧ NotPassed cfg.pid s.server g)
    (hin : StaysInside gib e) (hwhole : WholeWrite e) : Steady cfg gib s e where
  server := hserver
  link := by
    intro g hg
    obtain rfl : f = g := Option.some.inj (hl.symm.trans hg)
    exact hf.orderly
  client := by
    intro g hg
    obtain rfl : f = g := Option.some.inj (hl.symm.trans hg)
    exact hf.client
  connected := fun _ => hf.up
  inside := hin
  whole := hwhole

variable {P : Session → Prop}

theorem can_event {f : LinkEvent} {Q : Link → Prop} {sv : Server} (hl : s.linkPart cfg e = some f)
    (h : Link.Goes cfg s.link f Q) (hen : s.Enabled cfg e) (hsv : s.stepServer cfg e = some sv)
    (hok : Link.Fine s.link f → Lull cfg gib d s e)
    (hnext : ∀ l, Q l → Can (step cfg) (Lull cfg gib d) P
      ⟨l, sv, s.nextDisk e, s.nextUnderWay e, s.nextTarget cfg e, s.nextSrcFd cfg e⟩) :
    Can (step cfg) (Lull cfg gib d) P s := by
  obtain ⟨hfine, l, hs, hq⟩ := h
  refine (hnext l hq).next ?_ (hok hfine)
  have hlink : s.stepLink cfg e = some l := by
    rw [stepLink, hl]
    exact hs
  rw [step, if_pos hen, hsv, Option.bind_some, hlink, Option.map_some]

theorem can_link {f : LinkEvent} {Q : Link → Prop} (h : Link.Goes cfg s.link f Q)
    (hother : s.OtherLink cfg f)
    (hnext : ∀ l, Q l → Can (step cfg) (Lull cfg gib d) P { s with link := l }) :
    Can (step cfg) (Lull cfg gib d) P s := by
  have hserver : s.stepServer cfg (.link f) = some s.server := rfl
  refine can_event (e := .link f) rfl h hother hserver (fun hfine => ?_) hnext
  refine ⟨⟨steady_of_link rfl hfine (fun g hg => ?_) trivial trivial, by simp, by simp⟩, by simp,
    trivial⟩
  cases hg

theorem can_snap (h : Can (step cfg) (Lull cfg gib d) P { s with srcFd := true }) :
    Can (step cfg) (Lull cfg gib d) P s := by
  refine h.next (e := .snap true) rfl ⟨⟨?_, by simp, by simp⟩, by simp, trivial⟩
  exact steady_of_server (fun f hf => (by cases hf)) rfl (by simp) trivial trivial

theorem can_server (hunder : s.underWay = []) {Q : Server → Prop}
    (h : Can Server.step (RunsOnly cfg.pid) Q s.server) :
    Can (step cfg) (Lull cfg gib d)
      (fun t => t.link = s.link ∧ t.underWay = [] ∧ t.srcFd = s.srcFd ∧ Q t.server) s := by
  refine Can.mono (P := fun t =>
    ∃ sv, (t.server = sv ∧ t.link = s.link ∧ t.underWay = [] ∧ t.srcFd = s.srcFd) ∧ Q sv) ?_ ?_
  · refine h.lift (f := SessionEvent.server) ?_ ⟨rfl, rfl, hunder, rfl⟩
    rintro sv e sv' t ⟨rfl, hl, hu, ho⟩ ⟨rfl, hp, hk⟩ hs
    have hen : t.Enabled cfg (.server (.run cfg.pid)) := fun _ => hp
    refine ⟨⟨⟨?_, by simp, fun _ _ _ _ _ => hu⟩, by simp, trivial⟩,
      { t with server := sv' }, ?_, rfl, hl, hu, ho⟩
    · refine steady_of_server (fun f hf => ?_) rfl (by simp) trivial trivial
      obtain rfl : .run cfg.pid = f := Option.some.inj hf
      refine ⟨trivial, hk, ?_⟩
      unfold NotPassed
      rw [label, if_pos rfl]
      split <;> trivial
    · have hserver : t.stepServer cfg (.server (.run cfg.pid)) = some sv' := hs
      rw [step, if_pos hen, hserver]
      rfl
  · rintro t ⟨sv, ⟨rfl, hl, hu, ho⟩, hq⟩
    exact ⟨hl, hu, ho, hq⟩

/-! ### One chunk -/

/-- A resync thread is in phase `ph`, the connection is quiet, the source disk is open, and the server
is as `sv`. -/
structure Copying (cfg : Config) (sv : Server) (tid : Nat) (ph : ResyncPhase) (s : Session) :
    Prop where
  running : Link.Running tid ph s.link
  conn : Link.ConnAt .recvHeader .inUse 0 0 s.link.conn
  server : s.server = sv
  underWay : s.underWay = []
  srcFd : s.srcFd = true

variable {sv : Server} {tid pos c : Nat} {ph : ResyncPhase}

theorem can_thread {Q : Link → Prop} (h : Link.Running tid ph s.link)
    (hph : ∀ pos c, ph ≠ .write pos c)
    (hg : Link.Goes cfg s.link (.client (.run tid true)) Q)
    (hnext : ∀ l, Q l → Can (step cfg) (Lull cfg gib d) P { s with link := l }) :
    Can (step cfg) (Lull cfg gib d) P s := by
  refine can_link hg ?_ hnext
  have hno : s.writing tid = none := by
    unfold writing
    rw [h.phaseOf]
    cases ph with
    | write pos c => exact absurd rfl (hph pos c)
    | _ => rfl
  exact hno

/-- The bytes of the chunk that the server's header is about. -/
def sourceBytes (cfg : Config) (s : Session) : Mem := fun i =>
  let t := s.link.conn.server
  s.disk ((chunkOffset (cfg.server.startLba t.currPos t.chunkPos)).getD 0 + i)

theorem readsDisk_sourceBytes (cfg : Config) (s : Session) :
    s.ReadsDisk cfg (s.sourceBytes cfg) := by
  intro off hoff i _
  simp only [sourceBytes, Option.mem_def.mp hoff, Option.getD_some]

theorem can_getData {Q : Link → Prop} (hfree : s.Free cfg) (hopen : s.srcFd = true)
    (h : Link.Goes cfg s.link
      (.server (.getData (some bufSizeInBytes) (s.sourceBytes cfg))) Q)
    (hnext : ∀ l, Q l → Can (step cfg) (Lull cfg gib d) P { s with link := l }) :
    Can (step cfg) (Lull cfg gib d) P s := by
  have hserver : s.stepServer cfg (.getData (some bufSizeInBytes) (s.sourceBytes cfg)) =
      some s.server := rfl
  refine can_event (e := .getData _ _) rfl h hfree hserver (fun hfine => ?_) hnext
  refine ⟨⟨steady_of_link rfl hfine (fun g hg => ?_) trivial trivial, ?_, by simp⟩, by simp, trivial⟩
  · cases hg
  · rintro r m he
    cases he
    exact ⟨readsDisk_sourceBytes cfg s, fun _ => hopen⟩

theorem can_writeChunk (h : Link.Running tid (.write pos c) s.link)
    (hoff : (chunkOffset (cfg.client.startLba pos c)).isSome = true)
    (hnext : ∀ l target, Link.Running tid (.chunk pos (c + 1)) l → l.conn = s.link.conn →
      Can (step cfg) (Lull cfg gib d) P { s with link := l, target := target }) :
    Can (step cfg) (Lull cfg gib d) P s := by
  have hwr : s.writing tid = some (pos, c) := by
    unfold writing
    rw [h.phaseOf]
  have hok : s.writeOk cfg tid (some bufSizeInBytes) = true := by
    rw [writeOk, writeOffset, hwr]
    simpa using hoff
  have hl : s.linkPart cfg (.writeChunk tid (some bufSizeInBytes)) =
      some (.client (.run tid true)) := by
    rw [linkPart, hok]
  have hserver : s.stepServer cfg (.writeChunk tid (some bufSizeInBytes)) = some s.server := rfl
  refine can_event hl h.write ?_ hserver (fun hfine => ?_) (fun l hl' => hnext l _ hl'.1 hl'.2)
  · refine ⟨by simp [hwr], fun k hk => ?_⟩
    rw [← Option.some.inj hk]
  · refine ⟨⟨steady_of_link hl hfine (fun g hg => ?_) trivial (Or.inr rfl), by simp, by simp⟩,
      by simp, trivial⟩
    cases hg

theorem can_chunk (hfree : sv.phase cfg.pid = .idle)
    (hoff : (chunkOffset (cfg.client.startLba pos c)).isSome = true)
    (hc : c < cfg.client.loopBound) (h : Copying cfg sv tid (.chunk pos c) s) :
    Can (step cfg) (Lull cfg gib d) (Copying cfg sv tid (.chunk pos (c + 1))) s := by
  obtain ⟨hrun, hconn, hsv, hunder, hopen⟩ := h
  have hidle : s.server.phase cfg.pid = .idle := by
    rw [hsv]
    exact hfree
  refine can_thread hrun (by simp) (hrun.chunk hc) fun l1 h1 => ?_
  obtain ⟨hrun1, hheader, hconn1⟩ := h1
  have hat1 : Link.ConnAt .recvHeader .inUse 0 0 l1.conn := hconn1 ▸ hconn
  refine can_link (hrun1.send hat1) trivial fun l2 h2 => ?_
  obtain ⟨hrun2, hat2, hold2⟩ := h2
  refine can_link (hat2.recvHeader hold2 hrun2.up) hidle fun l3 h3 => ?_
  obtain ⟨hc3, hat3, hf3⟩ := h3
  rw [hheader] at hf3
  have hup3 : l3.client.socketUp = true := by
    rw [hc3]
    exact hrun2.up
  refine can_getData hidle hopen (hat3.getData hf3 hup3 _) fun l4 h4 => ?_
  obtain ⟨hc4, hat4⟩ := h4
  have hup4 : l4.client.socketUp = true := by
    rw [hc4]
    exact hup3
  refine can_link (hat4.chunkWrite hup4) hidle fun l5 h5 => ?_
  obtain ⟨hc5, hat5⟩ := h5
  have hrun5 : Link.Running tid (.recv pos c) l5 := hrun2.congr (hc5.trans (hc4.trans hc3))
  refine can_link (hrun5.recv hat5) trivial fun l6 h6 => ?_
  obtain ⟨hrun6, hat6⟩ := h6
  refine can_writeChunk hrun6 hoff fun l7 target hrun7 hconn7 => ?_
  exact can_of ⟨hrun7, hconn7 ▸ hat6, hsv, hunder, hopen⟩

/-! ### The resync -/

/-- The chunks of the bitmap lie where `lseek` can go. -/
def OffsetsFit (g : Geometry) : Prop :=
  ∀ pos < bitmapSizeMax * 8, ∀ c < g.loopBound, (chunkOffset (g.startLba pos c)).isSome = true

theorem can_move {ph' : ResyncPhase} (h : Copying cfg sv tid ph s) (hph : ∀ pos c, ph ≠ .write pos c)
    (hg : Link.Goes cfg s.link (.client (.run tid true)) fun l =>
      Link.Running tid ph' l ∧ l.conn = s.link.conn) :
    Can (step cfg) (Lull cfg gib d) (Copying cfg sv tid ph') s := by
  refine can_thread h.running hph hg fun l hl => can_of ⟨hl.1, ?_, h.server, h.underWay, h.srcFd⟩
  dsimp only
  rw [hl.2]
  exact h.conn

theorem can_position (hfree : sv.phase cfg.pid = .idle) (hoff : OffsetsFit cfg.client)
    (hpos : pos < bitmapSizeMax * 8) (h : Copying cfg sv tid (.test pos) s) :
    Can (step cfg) (Lull cfg gib d) (Copying cfg sv tid (.test (pos + 1))) s := by
  have hrecord : ∀ t, Copying cfg sv tid (.record pos) t →
      Can (step cfg) (Lull cfg gib d) (Copying cfg sv tid (.test (pos + 1))) t :=
    fun t ht => can_move ht (by simp) ht.running.record
  refine can_thread h.running (by simp) (h.running.test hpos) fun l hl => ?_
  obtain ⟨hl, hconn⟩ := hl
  have hat : Link.ConnAt .recvHeader .inUse 0 0 l.conn := hconn ▸ h.conn
  rcases hl with hrun | hrun
  · refine (can_of_count (P := fun c => Copying cfg sv tid (.chunk pos c)) (n := cfg.client.loopBound)
      (s := { s with link := l }) (fun c hc t ht => can_chunk hfree (hoff pos hpos c hc) hc ht)
      ⟨hrun, hat, h.server, h.underWay, h.srcFd⟩).bind fun t ht => ?_
    exact (can_move ht (by simp) (ht.running.chunkEnd (le_refl _))).bind hrecord
  · exact hrecord _ ⟨hrun, hat, h.server, h.underWay, h.srcFd⟩

/-- Nothing is under way: no round and no resync thread, no request of another partner in its window,
and the connection is open and empty. -/
structure AtRest (cfg : Config) (s : Session) : Prop where
  link : Link.Unused s.link
  awaiting : s.link.client.awaiting = false
  conn : ∃ io, Link.ConnAt .recvHeader io 0 0 s.link.conn
  rests : s.Rests cfg
  windows : ∀ q, ¬ s.server.InWindow q
  underWay : s.underWay = []

theorem AtRest.free (h : AtRest cfg s) : s.Free cfg := h.rests.1

/-- The thread has ended, and its termination is at the server. -/
structure Ended (cfg : Config) (sv : Server) (s : Session) : Prop where
  link : Link.Unused s.link
  awaiting : s.link.client.awaiting = false
  conn : ∃ io, Link.ConnAt .dispatch io 0 0 s.link.conn
  finds : s.link.conn.server.Finds cfg .rplcTermination
  server : s.server = sv
  underWay : s.underWay = []

theorem can_resync (hfree : sv.phase cfg.pid = .idle) (hoff : OffsetsFit cfg.client)
    (h : Copying cfg sv tid (.test 0) s) :
    Can (step cfg) (Lull cfg gib d) (Ended cfg sv) s := by
  refine (can_of_count (P := fun pos => Copying cfg sv tid (.test pos)) (n := bitmapSizeMax * 8)
    (fun pos hpos t ht => can_position hfree hoff hpos ht) h).bind fun s1 h1 => ?_
  refine (can_move h1 (by simp) (h1.running.testEnd (le_refl _))).bind fun s2 h2 => ?_
  refine (can_move h2 (by simp) h2.running.loopEnd).bind fun s3 h3 => ?_
  refine can_thread h3.running (by simp) h3.running.terminate fun l4 h4 => ?_
  obtain ⟨hrun4, hop4, hconn4⟩ := h4
  refine can_thread hrun4 (by simp) (hrun4.resetBit hop4) fun l5 h5 => ?_
  obtain ⟨hrun5, hop5, hconn5⟩ := h5
  have hat5 : Link.ConnAt .recvHeader .inUse 0 0 l5.conn := by
    rw [hconn5, hconn4]
    exact h3.conn
  refine can_link (hrun5.sendTermination hat5) trivial fun l6 h6 => ?_
  obtain ⟨hrun6, hat6, hold6⟩ := h6
  refine can_thread hrun6 (by simp) hrun6.release fun l7 h7 => ?_
  obtain ⟨hun7, haw7, hconn7⟩ := h7
  have hat7 : Link.ConnAt .recvHeader .inUse headerSize 0 l7.conn := hconn7 ▸ hat6
  have hidle : s3.server.phase cfg.pid = .idle := by
    rw [h3.server]
    exact hfree
  refine can_link (hat7.recvHeader (by rwa [hconn7]) hun7.up) hidle fun l8 h8 => ?_
  obtain ⟨hc8, hat8, hf8⟩ := h8
  rw [hop5] at hf8
  exact can_of ⟨hun7.congr hc8, hc8 ▸ haw7, ⟨_, hat8⟩, hf8, h3.server, h3.underWay⟩

theorem offsetsFit (hsz : ScriptSizes cfg gib d) : OffsetsFit cfg.client := by
  intro pos hpos c hc
  have hfit := hsz.fit
  have hgrain : gib * 2 ^ 30 / 131072 / 512 = 16 * gib := by omega
  have hloops : cfg.client.loopBound = 16 * gib / 8 := by
    have hchunks : (scriptGeometry gib).grainSize / (scriptGeometry gib).chunkSize < 2 ^ 31 := by
      show gib * 2 ^ 30 / 131072 / 512 / 8 < 2 ^ 31
      omega
    rw [hsz.client, Geometry.loopBound_of_lt hchunks]
    show gib * 2 ^ 30 / 131072 / 512 / 8 = 16 * gib / 8
    rw [hgrain]
  have hlba : pos * (16 * gib) ≤ 131071 * (16 * gib) :=
    Nat.mul_le_mul_right _ (by unfold bitmapSizeMax at hpos; omega)
  have hchunk : c * 8 < 16 * gib := by omega
  have hsmall : pos * (16 * gib) + c * 8 < 2 ^ 53 := by omega
  have hstart : cfg.client.startLba pos c = pos * (16 * gib) + c * 8 := by
    rw [hsz.client]
    show ulong (pos * (gib * 2 ^ 30 / 131072 / 512) + c * 8) = _
    rw [hgrain, ulong_of_lt (by omega)]
  rw [hstart, chunkOffset, ulong_of_lt (by omega), if_pos (by omega)]
  rfl

/-! ### The round -/

/-- The client's request is at the server, and the source disk is open. -/
structure Asked (cfg : Config) (sv : Server) (s : Session) : Prop where
  link : Link.Unused s.link
  awaiting : s.link.client.awaiting = true
  area : ∃ m, s.link.client.bitmapArea = .allocated m
  conn : ∃ io, Link.ConnAt .dispatch io 0 0 s.link.conn
  finds : s.link.conn.server.Finds cfg .bitmapMetadata
  server : s.server = sv
  underWay : s.underWay = []
  srcFd : s.srcFd = true

theorem can_ask (h : AtRest cfg s) :
    Can (step cfg) (Lull cfg gib d) (Asked cfg s.server) s := by
  obtain ⟨io, hat⟩ := h.conn
  refine can_snap ?_
  refine can_link (h.link.metadata h.awaiting hat) trivial fun l1 h1 => ?_
  obtain ⟨hun1, ⟨haw1, ha1⟩, hat1, hdr, hop, hold⟩ := h1
  refine can_link (hat1.recvHeader hold hun1.up) h.free fun l2 h2 => ?_
  obtain ⟨hc2, hat2, hf2⟩ := h2
  rw [hop] at hf2
  exact can_of ⟨hun1.congr hc2, hc2 ▸ haw1, hc2 ▸ ha1, ⟨io, hat2⟩, hf2, rfl, h.underWay, rfl⟩

theorem request_step (hi : DirectInv cfg gib d s) (h : Asked cfg sv s)
    (hfree : sv.phase cfg.pid = .idle) (hw : ∀ q, ¬ sv.InWindow q) :
    Direct cfg gib d s .getBitmap ∧ ∃ server, Working cfg.pid d server ∧
      server.phase cfg.pid = .created ∧
        s.step cfg .getBitmap = some { s with server := server } := by
  have hidle : s.server.phase cfg.pid = .idle := by
    rw [h.server]
    exact hfree
  obtain ⟨server, hs, hwork, hp⟩ := working_request hi.control.rounds hidle (by rwa [h.server])
  refine ⟨⟨⟨fun g hg => ?_, fun g hg => ?_, fun g hg => ?_, fun _ => h.link.up, trivial, trivial⟩,
    by simp, by simp⟩, server, hwork, hp, ?_⟩
  · cases hg
    refine ⟨trivial, fun v hv => (by cases hv), ?_⟩
    rw [NotPassed, hidle]
    trivial
  · cases hg
  · cases hg
  · have hen : s.Enabled cfg .getBitmap := h.finds
    have hserver : s.stepServer cfg .getBitmap = some server := hs
    rw [step, if_pos hen, hserver]
    rfl

theorem can_fetch (hsz : ScriptSizes cfg gib d) (h : Asked cfg sv s) (hw : Working cfg.pid d sv)
    (hl : Loaded cfg.pid d sv) :
    Can (step cfg) (Lull cfg gib d)
      (fun t => ∃ tid, Copying cfg (sv.setPhase cfg.pid .idle) tid (.test 0) t) s := by
  obtain ⟨hs, hidle, -, -, -⟩ := send_step hw hl
  obtain ⟨io, hat⟩ := h.conn
  have hsize : bitmapSizeMax = d.bitmapSize := by
    rw [hsz.half]
    rfl
  have hserver : s.stepServer cfg (.sendBitmap (some bitmapSizeMax)) =
      some (sv.setPhase cfg.pid .idle) := by
    rw [← h.server] at hs ⊢
    exact hs
  refine can_event rfl (hat.getBitmap h.finds h.link.up _) ?_ hserver (fun hfine => ?_)
    fun l1 h1 => ?_
  · rw [← h.server] at hl
    refine ⟨hl.1, fun k hk ub hub => ?_⟩
    obtain ⟨ub', hub', hsz'⟩ := hl.2
    obtain rfl : ub' = ub := Option.some.inj (hub'.symm.trans hub)
    rw [← Option.some.inj hk, hsz', hsize]
  · rw [← h.server] at hw
    refine ⟨⟨steady_of_link rfl hfine (fun g hg => ?_) trivial trivial, by simp, by simp⟩, by simp,
      trivial⟩
    cases hg
    refine ⟨trivial, hw.keepsIndex, ?_⟩
    unfold NotPassed
    rw [label, if_pos rfl]
    split <;> trivial
  · obtain ⟨hc1, hat1⟩ := h1
    have hun1 := h.link.congr hc1
    refine can_link (hun1.bitmap (hc1 ▸ h.awaiting) (hc1 ▸ h.area) hat1) trivial fun l2 h2 => ?_
    obtain ⟨hun2, ⟨haw2, ha2⟩, hat2⟩ := h2
    refine can_link (hun2.resync haw2 ha2) trivial fun l3 h3 => ?_
    obtain ⟨hla3, hc3⟩ := h3
    have hchunk : cfg.client.chunkSize ≠ 0 := by
      rw [hsz.client]
      show (8 : Nat) ≠ 0
      decide
    have hno : ∀ t : Session, t.link = l3 → t.writing l2.client.nextTid = none := by
      rintro t rfl
      rw [writing, Client.phaseOf, hla3.thread, Option.map_some]
    refine can_link (hla3.start hchunk) (hno _ rfl) fun l4 h4 => ?_
    obtain ⟨hrun4, hc4⟩ := h4
    refine can_of ⟨_, hrun4, ?_, rfl, h.underWay, h.srcFd⟩
    dsimp only
    rw [hc4, hc3]
    exact hat2

theorem can_finish (hi : DirectInv cfg gib d s) (h : Ended cfg sv s)
    (hfree : sv.phase cfg.pid = .idle) (hw : ∀ q, ¬ sv.InWindow q)
    (hheld : sv.partnerState cfg.pid ≠ .released) (hub : (sv.ubitmap cfg.pid).isSome = true) :
    Can (step cfg) (Lull cfg gib d) (fun t => t.RoundOver cfg ∧ AtRest cfg t) s := by
  rw [← h.server] at hfree hw hheld hub
  obtain ⟨server, g, hs, hwork, hp⟩ := working_terminate hi.control.rounds hfree hw hheld hub
  have hserver : s.stepServer cfg .terminate = some server := hs
  obtain ⟨io, hat⟩ := h.conn
  refine can_event (e := .terminate) rfl (hat.terminate h.finds h.link.up) hfree hserver
    (fun hfine => ?_) fun l hl => ?_
  · refine ⟨⟨steady_of_link rfl hfine (fun g hg => ?_) trivial trivial, by simp, by simp⟩, by simp,
      trivial⟩
    cases hg
    refine ⟨trivial, fun v hv => (by cases hv), ?_⟩
    rw [NotPassed, hfree]
    trivial
  · obtain ⟨hc, hat'⟩ := hl
    have hun := h.link.congr hc
    have haw : l.client.awaiting = false := hc ▸ h.awaiting
    refine (can_server (s := ⟨l, server, _, _, _, _⟩) h.underWay (can_clear hwork hp)).mono ?_
    rintro t ⟨rfl, hunder, -, hidle, hreleased, hwin⟩
    exact ⟨⟨hidle, hreleased⟩, hun, haw, hat', ⟨hidle, Or.inr hreleased⟩, hwin, hunder⟩

theorem Lull.keeps (hsz : ScriptSizes cfg gib d) (s : Session) (e : SessionEvent) (s' : Session)
    (hi : DirectInv cfg gib d s) (hok : Lull cfg gib d s e) (h : s.step cfg e = some s') :
    DirectInv cfg gib d s' := direct_step hsz hi hok.1 h

theorem can_serve (hsz : ScriptSizes cfg gib d) (hi : DirectInv cfg gib d s)
    (h : Asked cfg s.server s) (hw : Working cfg.pid d s.server)
    (hp : s.server.phase cfg.pid = .created) :
    Can (step cfg) (Lull cfg gib d) (fun t => t.RoundOver cfg ∧ AtRest cfg t) s := by
  have hmax : d.bitmapSize ≤ bitmapSizeMax := by
    rw [hsz.half]
    decide
  have hkeep := Lull.keeps hsz
  refine ((can_server h.underWay (can_load hmax hw hp)).keep hkeep hi).bind fun t ht => ?_
  obtain ⟨⟨hlink, hunder, hopen, hwork, hload⟩, hit⟩ := ht
  have hasked : Asked cfg t.server t := by
    obtain ⟨h1, h2, h3, h4, h5, -, -, h8⟩ := h
    rw [← hlink] at h1 h2 h3 h4 h5
    exact ⟨h1, h2, h3, h4, h5, rfl, hunder, hopen.trans h8⟩
  obtain ⟨-, hidle, hwin, hheld, hub⟩ := send_step hwork hload
  refine ((can_fetch hsz hasked hwork hload).keep hkeep hit).bind fun u hu => ?_
  obtain ⟨⟨tid, hcopy⟩, hiu⟩ := hu
  refine ((can_resync hidle (offsetsFit hsz) hcopy).keep hkeep hiu).bind fun v hv => ?_
  exact can_finish hv.2 hv.1 hidle hwin hheld hub

/-- A whole round is possible. -/
theorem round_possible (hsz : ScriptSizes cfg gib d) (hi : DirectInv cfg gib d s)
    (h : AtRest cfg s) :
    ∃ es t fs s', Meets (step cfg) (Lull cfg gib d) s es ∧ run (step cfg) s es = some t ∧
      t.server = s.server ∧ Meets (step cfg) (Direct cfg gib d) t (.getBitmap :: fs) ∧
        .getBitmap ∉ fs ∧ (∀ e ∈ fs, Quiet e) ∧
          run (step cfg) t (.getBitmap :: fs) = some s' ∧ s'.RoundOver cfg ∧ AtRest cfg s' := by
  obtain ⟨es, t, hm, hr, hask, hit⟩ := (can_ask h).keep (Lull.keeps hsz) hi
  obtain ⟨hreq, server, hwork, hp, hs⟩ := request_step hit hask h.free h.windows
  have hstart : Asked cfg server { t with server := server } :=
    ⟨hask.link, hask.awaiting, hask.area, hask.conn, hask.finds, rfl, hask.underWay, hask.srcFd⟩
  obtain ⟨fs, s', hm', hr', hover⟩ := can_serve hsz (direct_step hsz hit hreq hs) hstart hwork hp
  have hevents := forall_of_meets (F := fun e => e ≠ .getBitmap ∧ Quiet e)
    (fun _ _ hok => hok.2) hm' hr'
  refine ⟨es, t, fs, s', hm, hr, hask.server, ⟨hreq, fun u hu => ?_⟩, fun hin => ?_,
    fun e he => (hevents e he).2, run_cons_some.mpr ⟨_, hs, hr'⟩, hover⟩
  · obtain rfl := Option.some.inj (hs.symm.trans hu)
    exact hm'.mono fun _ _ hok => hok.1
  · exact (hevents _ hin).1 rfl

theorem passive_congr (h : s'.server = s.server) : s'.passive cfg d = s.passive cfg d := by
  unfold passive
  rw [h]

theorem disk_same {es : List SessionEvent} (hq : ∀ e ∈ es, Quiet e) (hunder : s.underWay = [])
    (hr : run (step cfg) s es = some s') : s'.disk = s.disk ∧ s'.underWay = [] := by
  refine Lts.run_inv (I := fun t => t.disk = s.disk ∧ t.underWay = [])
    (fun t e t' ht hok hs => ?_) ⟨rfl, hunder⟩ (meets_of_forall s hq) hr
  obtain ⟨hdisk, hempty⟩ := ht
  have hst := stepped hs
  rw [hst.disk, hst.underWay]
  cases e with
  | write bio data =>
    refine ⟨hdisk, ?_⟩
    rw [nextUnderWay, if_neg (by simp [show bio.isWrite = false from hok])]
    exact hempty
  | land n =>
    have hlt : n < t.underWay.length := hst.enabled
    rw [hempty] at hlt
    exact absurd hlt (Nat.not_lt_zero n)
  | _ => exact ⟨hdisk, hempty⟩

/-! ### The whole round -/

/-- **A round synchronises.** In the run script's session, when a round is over that was asked for
while none was under way, and no write has marked the grain of a byte since the request, the byte is
the same on both disks, and its grain is clear in both halves again. -/
theorem round_synchronises (hsz : ScriptSizes cfg gib d) {s0 : Session}
    {es fs : List SessionEvent} (h0 : Start cfg gib d s0) (hempty : s0.passive cfg d = ∅)
    (hm : Meets (step cfg) (Direct cfg gib d) s0 (es ++ .getBitmap :: fs))
    (hone : .getBitmap ∉ fs) (hr : run (step cfg) s0 es = some s) (hrests : s.Rests cfg)
    (hr' : run (step cfg) s (.getBitmap :: fs) = some s') (hover : s'.RoundOver cfg) {y : Nat}
    (hy : y < gib * 2 ^ 30) (hsp : ∀ e ∈ fs, SparesGrain gib (grainOf gib y) e) :
    s'.target y = s'.disk y ∧ grainOf gib y ∉ s'.active cfg d ∧
      grainOf gib y ∉ s'.passive cfg d := by
  obtain ⟨hm1, hm2⟩ := meets_append.mp hm
  have hi := direct_run hsz h0.direct hm1 hr
  have hclear : grainOf gib y ∉ s.passive cfg d := by
    rw [(rested_run hsz h0.direct (h0.rested hempty) hm1 hr).clear hrests]
    exact fun hb => hb.elim
  obtain ⟨ha, hp⟩ := clear_after_round hsz hi hclear (hm2 s hr) hone hsp hr' hover
  exact ⟨(direct_run hsz hi (hm2 s hr) hr').synced hy ha hp, ha, hp⟩

theorem passive_oneGib : oneGib.passive oneGibConfig ⟨16384, 0⟩ = ∅ := by
  refine Set.eq_empty_iff_forall_notMem.mpr fun b hb => ?_
  obtain ⟨hlt, hbit⟩ := Bool.and_eq_true_iff.mp hb
  have hmem : oneGibKernel.mem 0 = zeroWords 8 (fun _ => 0) 0 2048 := rfl
  have hzero : bit (oneGibKernel.mem 0)
      (8 * (⟨16384, 0⟩ : SrcDisk).off
        (oneGib.server.view oneGibConfig.pid ⟨16384, 0⟩).active.other + b) = false := by
    rw [hmem, bit_zeroWords]
    split
    · rfl
    · simp [bit]
  exact absurd (hzero.symm.trans hbit) (by simp)

theorem atRest_firstSector (h : run (step oneGibConfig) oneGib firstSector = some s) :
    AtRest oneGibConfig s := by
  obtain ⟨s1, h1, h⟩ := run_cons_some.mp h
  obtain ⟨s2, h2, h⟩ := run_cons_some.mp h
  obtain rfl : s2 = s := Option.some.inj h
  have hst1 := stepped h1
  have hst2 := stepped h2
  have hlink : s2.link = oneGib.link := (hst2.linkSame rfl).trans (hst1.linkSame rfl)
  have hwrite := hst1.server (.write 1 ⟨0, 512, true⟩) rfl
  rw [Server.step] at hwrite
  obtain ⟨k, -, hk⟩ := Option.map_eq_some_iff.mp hwrite
  have hserver : s2.server = { oneGib.server with kernel := k } :=
    (hst2.serverSame rfl).trans hk.symm
  refine ⟨?_, ?_, ?_, ?_, fun q => ?_, ?_⟩
  · rw [hlink]
    exact ⟨fun _ _ => rfl, by decide, rfl, rfl⟩
  · rw [hlink]
    rfl
  · rw [hlink]
    exact ⟨_, rfl, rfl, rfl, rfl, rfl⟩
  · rw [Rests, hserver]
    exact ⟨rfl, Or.inl rfl⟩
  · rw [hserver]
    exact id
  · rw [hst2.underWay, nextUnderWay, hst1.underWay]
    rfl

theorem round_synchronises_first :
    ∃ es t fs s', run (step oneGibConfig) oneGib es = some t ∧
      run (step oneGibConfig) t (.getBitmap :: fs) = some s' ∧ s'.target 0 = s'.disk 0 := by
  obtain ⟨s, hs, -⟩ := run_firstSector
  have hi := direct_run sizes_oneGib start_oneGib.direct direct_firstSector hs
  obtain ⟨es, t, fs, s', hm1, hr1, hsame, hm2, hone, hq, hr2, hover, -⟩ :=
    round_possible sizes_oneGib hi (atRest_firstSector hs)
  have hr := run_append_some.mpr ⟨s, hs, hr1⟩
  have hm : Meets (step oneGibConfig) (Direct oneGibConfig 1 ⟨16384, 0⟩) oneGib
      ((firstSector ++ es) ++ .getBitmap :: fs) := by
    refine meets_append.mpr ⟨meets_append.mpr ⟨direct_firstSector, fun u hu => ?_⟩, fun u hu => ?_⟩
    · obtain rfl := Option.some.inj (hs.symm.trans hu)
      exact hm1.mono fun _ _ hok => hok.1
    · obtain rfl := Option.some.inj (hr.symm.trans hu)
      exact hm2
  have hrests : t.Rests oneGibConfig := by
    rw [Rests, hsame]
    exact (atRest_firstSector hs).rests
  exact ⟨_, t, fs, s', hr, hr2, (round_synchronises sizes_oneGib start_oneGib passive_oneGib hm hone
    hr hrests hr2 hover (by decide) fun e he => (hq e he).spares).1⟩

/-- **The target can always catch up.** In the run script's session, from every state that is reached
and at rest, some run without writes ends a round with a target that is a copy of the disk, and is at
rest again. -/
theorem target_catches_up (hsz : ScriptSizes cfg gib d) {s0 : Session} {es : List SessionEvent}
    (h0 : Start cfg gib d s0) (hempty : s0.passive cfg d = ∅)
    (hm : Meets (step cfg) (Direct cfg gib d) s0 es) (hr : run (step cfg) s0 es = some s)
    (hrest : AtRest cfg s) :
    ∃ fs s', Meets (step cfg) (Direct cfg gib d) s fs ∧ (∀ e ∈ fs, Quiet e) ∧
      run (step cfg) s fs = some s' ∧ s'.RoundOver cfg ∧ AtRest cfg s' ∧ s'.disk = s.disk ∧
        ∀ y < gib * 2 ^ 30, s'.target y = s.disk y := by
  have hi := direct_run hsz h0.direct hm hr
  have hrested := rested_run hsz h0.direct (h0.rested hempty) hm hr
  obtain ⟨es1, t, fs, s', hm1, hr1, hsame, hm2, hone, hq, hr2, hover, hagain⟩ :=
    round_possible hsz hi hrest
  have hm1' : Meets (step cfg) (Direct cfg gib d) s es1 := hm1.mono fun _ _ hok => hok.1
  have hit := direct_run hsz hi hm1' hr1
  have hquiet : ∀ e ∈ es1 ++ .getBitmap :: fs, Quiet e := by
    intro e he
    rcases List.mem_append.mp he with he | he
    · exact (forall_of_meets (F := Quiet) (fun _ _ hok => hok.2.2) hm1 hr1) e he
    · rcases List.mem_cons.mp he with rfl | he
      · trivial
      · exact hq e he
  have hrun := run_append_some.mpr ⟨t, hr1, hr2⟩
  obtain ⟨hdisk, -⟩ := disk_same hquiet hrest.underWay hrun
  refine ⟨es1 ++ .getBitmap :: fs, s', meets_append.mpr ⟨hm1', fun u hu => ?_⟩, hquiet, hrun, hover,
    hagain, hdisk, fun y hy => ?_⟩
  · obtain rfl := Option.some.inj (hr1.symm.trans hu)
    exact hm2
  · have hclear : grainOf gib y ∉ t.passive cfg d := by
      rw [passive_congr hsame, hrested.clear hrest.rests]
      exact fun hb => hb.elim
    obtain ⟨ha, hp⟩ := clear_after_round hsz hit hclear hm2 hone (fun e he => (hq e he).spares) hr2
      hover
    rw [← hdisk]
    exact (direct_run hsz hit hm2 hr2).synced hy ha hp

theorem target_catches_up_first :
    ∃ s fs s', run (step oneGibConfig) oneGib firstSector = some s ∧ s.target 0 = 0 ∧
      run (step oneGibConfig) s fs = some s' ∧ s'.target 0 = 7 := by
  obtain ⟨s, hs, hdisk, htarget⟩ := run_firstSector
  obtain ⟨fs, s', -, -, hr, -, -, -, hcopy⟩ := target_catches_up sizes_oneGib start_oneGib
    passive_oneGib direct_firstSector hs (atRest_firstSector hs)
  exact ⟨s, fs, s', hs, htarget, hr, (hcopy 0 (by decide)).trans hdisk⟩

end Session

end Ebdr
