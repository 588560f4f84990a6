import Ebdr.Protocol.Exchange
import Ebdr.Server.Shipment

/-!
# Every difference between the two disks is marked

In a regular run of a session, on a disk with the sizes of the run script, a byte of the target
differs from the source's only if the bit of its grain is set in one of the two halves
(`differences_marked`).

The invariant is in two parts. `Control` says how far the server's thread, the connection and the
client have come together. `Data` says what is up to date outside which marks: the target outside
both halves; what has been copied since the last bitmap, and what is being copied, outside the half
that the kernel writes; and before the other half is cleared, the whole target outside the half that
the kernel writes (`stage`).
-/

namespace Ebdr

open ByteMem CInt Lts Tracking

namespace Session

open Client Server

/-! ### What a step is -/

/-- The parts of a step. -/
structure Stepped (cfg : Config) (s : Session) (e : SessionEvent) (s' : Session) : Prop where
  enabled : s.Enabled cfg e
  server : ∀ f, serverPart cfg e = some f → s.server.step f = some s'.server
  serverSame : serverPart cfg e = none → s'.server = s.server
  link : ∀ f, s.linkPart cfg e = some f → s.link.step cfg f = some s'.link
  linkSame : s.linkPart cfg e = none → s'.link = s.link
  disk : s'.disk = s.nextDisk e
  underWay : s'.underWay = s.nextUnderWay e
  target : s'.target = s.nextTarget cfg e
  srcFd : s'.srcFd = s.nextSrcFd cfg e

theorem stepped {cfg : Config} {s s' : Session} {e : SessionEvent} (h : s.step cfg e = some s') :
    Stepped cfg s e s' := by
  obtain ⟨hen, h⟩ := Option.ite_none_right_eq_some.mp h
  obtain ⟨sv, hsv, h⟩ := Option.bind_eq_some_iff.mp h
  obtain ⟨l, hl, rfl⟩ := Option.map_eq_some_iff.mp h
  unfold stepServer at hsv
  unfold stepLink at hl
  refine ⟨hen, ?_, ?_, ?_, ?_, rfl, rfl, rfl, rfl⟩
  · intro f hf
    rw [hf] at hsv
    exact hsv
  · intro hf
    rw [hf] at hsv
    exact (Option.some.inj hsv).symm
  · intro f hf
    rw [hf] at hl
    exact hl
  · intro hf
    rw [hf] at hl
    exact (Option.some.inj hl).symm

/-! ### The device of the run script -/

/-- The device of partner `p` has the sizes that the run script gives to a disk of `gib` GiB. -/
def ScriptDevice (gib p : Nat) (s : Server) : Prop :=
  ∃ area u, s.kernel.bitmapOf (p + 1) = some (scriptBitmap gib area u)

theorem ScriptDevice.congr {gib p : Nat} {s s' : Server} (h : ScriptDevice gib p s)
    (hk : s'.kernel.bitmapOf (p + 1) = s.kernel.bitmapOf (p + 1)) : ScriptDevice gib p s' := by
  unfold ScriptDevice
  rw [hk]
  exact h

theorem scriptDevice_run {gib p q : Nat} {d : SrcDisk} {s s' : Server} (hi : RoundInv p d s)
    (h : ScriptDevice gib p s) (hs : Server.ThreadStep q s s') : ScriptDevice gib p s' := by
  cases hs with
  | @flip g k hp ub hub d' hd' hk k' hf =>
    obtain ⟨a, hok⟩ := hi.coherent.disk p d hi.disk
    obtain ⟨a', hok', rfl⟩ := hi.coherent.flip hp hd' hf
    have hb := hok.bitmapOf hi.coherent.kernel
    by_cases hpq : p = q
    · subst hpq
      obtain rfl : a = a' := Option.some.inj (hok.device.bitmap.symm.trans hok'.device.bitmap)
      obtain ⟨area, u, hs⟩ := h
      rw [hb, Option.some.injEq] at hs
      refine ⟨⟨d'.area, s.kernel.halfOff (p + 1) (s.kernel.bitmaps a).bmapUser.half.other⟩,
        (s.kernel.bitmaps a).bmapUser.other, ?_⟩
      simp only [Kernel.bitmapOf, Server.setPhase, setUbitmap, Kernel.setBitmap,
        if_pos (hi.coherent.kernel.created_lt hok.created), hok.device.bitmap, Option.map_some,
        Function.update_self, Kernel.flipped, hs, scriptBitmap]
    · have haa := hi.coherent.bitmap_ne hok.created hok'.created hok.device hok'.device (by omega)
      apply h.congr
      simp only [Kernel.bitmapOf, Server.setPhase, setUbitmap, Kernel.setBitmap,
        if_pos (hi.coherent.kernel.created_lt hok.created), hok.device.bitmap, Option.map_some,
        Function.update_of_ne haa]
  | choose =>
    apply h.congr
    unfold choose
    split <;> rfl
  | index | getUser | copy | keep | send | clear | clearEnd => exact h.congr rfl

theorem scriptDevice_step {gib p : Nat} {d : SrcDisk} {s s' : Server} {e : Server.Event}
    (hi : RoundInv p d s) (he : RoundEvent e) (h : ScriptDevice gib p s)
    (hs : s.step e = some s') : ScriptDevice gib p s' := by
  cases Server.stepCase_of_step hs with
  | write hk =>
    obtain ⟨r, m, rfl⟩ := Kernel.ebdrMakeRequest_cases hk
    exact h.congr rfl
  | run ht => exact scriptDevice_run hi h ht
  | metadata | terminated | terminate => exact h.congr rfl
  | connPause | connResume | loadRow | control | restart => exact he.elim

theorem write_marks {gib p : Nat} {d : SrcDisk} {s s' : Server} {bio : Bio} (hgib : 1 ≤ gib)
    (hfit : 2 * gib < 2 ^ 31) (hi : RoundInv p d s) (h : ScriptDevice gib p s)
    (hs : s.step (.write (p + 1) bio) = some s') (hin : bio.Inside gib) {y : Nat}
    (h1 : 512 * bio.biSector ≤ y) (h2 : y < 512 * bio.biSector + bio.biSize) :
    (s'.view p d).dirty (s'.view p d).active (grainOf gib y) = true := by
  obtain ⟨area, u, hb⟩ := h
  have hl : s.label p (.write (p + 1) bio) =
      .write (firstBit (scriptBitmap gib area u) bio) (lastBit (scriptBitmap gib area u) bio) := by
    rw [label, if_pos ⟨rfl, hin.1⟩, hb]
  have hview := view_step hi.coherent hi.disk (e := .write (p + 1) bio) trivial hs
  rw [hl, Tracker.step, Option.some.injEq] at hview
  have hx : bio.Writes (y / 512) := by
    refine ⟨?_, ?_⟩ <;> omega
  obtain ⟨hfirst, hlast, -⟩ := Kernel.script_bits area u hgib hfit hin hx
  rw [← hview]
  dsimp only
  rw [decide_eq_true ⟨rfl, hfirst, hlast⟩, Bool.true_or]

/-! ### The server's thread and the connection -/

structure Control (cfg : Config) (gib : Nat) (d : SrcDisk) (s : Session) : Prop where
  link : Link.LinkInv cfg s.link
  client : Client.Inv cfg.client s.link.client
  rounds : RoundInv cfg.pid d s.server
  script : ScriptDevice gib cfg.pid s.server
  /-- While the server works on a metadata request, the client waits for the bitmap. -/
  serving : (s.server.phase cfg.pid).Loading → s.link.client.awaiting = true ∧
    s.link.client.socketUp = true ∧ s.link.conn.server.Finds cfg .bitmapMetadata
  /-- In a handler the server has nothing under way to the client. -/
  quiet : ¬ s.Free cfg → s.link.conn.toClient.pending = 0

theorem free_of_not {cfg : Config} {s : Session} (h : ¬ s.Free cfg) :
    (s.server.phase cfg.pid).Loading ∨ (s.server.phase cfg.pid).Clearing :=
  (Phase.cases_loading _).resolve_left h

theorem not_free_of_loading {cfg : Config} {s : Session} (h : (s.server.phase cfg.pid).Loading) :
    ¬ s.Free cfg := by
  intro hf
  rw [Free] at hf
  rw [hf] at h
  exact h

theorem not_free_of_clearing {cfg : Config} {s : Session}
    (h : (s.server.phase cfg.pid).Clearing) : ¬ s.Free cfg := by
  intro hf
  rw [Free] at hf
  rw [hf] at h
  exact h

variable {cfg : Config} {gib : Nat} {d : SrcDisk} {s s' : Session} {e : SessionEvent}

theorem serverPart_metadata (hen : s.Enabled cfg e)
    (h : serverPart cfg e = some (.recvMetadata cfg.pid)) : e = .getBitmap := by
  cases e with
  | server f =>
    rw [Option.some.inj h] at hen
    exact absurd rfl hen
  | getBitmap => rfl
  | _ => cases h

theorem serverPart_terminate (hen : s.Enabled cfg e)
    (h : serverPart cfg e = some (.recvTerminate cfg.pid)) : e = .terminate := by
  cases e with
  | server f =>
    rw [Option.some.inj h] at hen
    exact absurd rfl hen
  | terminate => rfl
  | _ => cases h

theorem tracker_step (hc : Control cfg gib d s) (hok : Steady cfg gib s e)
    (h : Stepped cfg s e s') :
    (serverPart cfg e = none ∧ s'.server = s.server) ∨
      ∃ f, serverPart cfg e = some f ∧ Tracker.RoundLabel (s.server.label cfg.pid f) ∧
        (s.server.view cfg.pid d).Ahead (s.server.label cfg.pid f) ∧
          (s.server.view cfg.pid d).step (d.bitmapSize / 8) (s.server.label cfg.pid f) =
            some (s'.server.view cfg.pid d) := by
  cases hp : serverPart cfg e with
  | none => exact Or.inl ⟨rfl, h.serverSame hp⟩
  | some f =>
    obtain ⟨hround, -, hpassed⟩ := hok.server f hp
    refine Or.inr ⟨f, rfl, label_round hround, ahead_of_notPassed hpassed, ?_⟩
    exact view_step hc.rounds.coherent hc.rounds.disk (noControl_of_round hround) (h.server f hp)

theorem phase_step (hc : Control cfg gib d s) (hok : Steady cfg gib s e)
    (h : Stepped cfg s e s') :
    ((s'.server.phase cfg.pid).Loading →
        (s.server.phase cfg.pid).Loading ∨ e = .getBitmap) ∧
      ((s'.server.phase cfg.pid).Clearing →
        (s.server.phase cfg.pid).Clearing ∨ e = .terminate) := by
  rcases tracker_step hc hok h with ⟨-, hsame⟩ | ⟨f, hf, hl, -, hstep⟩
  · rw [hsame]
    exact ⟨Or.inl, Or.inl⟩
  · obtain ⟨h1, h2⟩ := Tracker.phase_step hl hstep
    refine ⟨fun hlo => (h1 hlo).imp_right fun hreq => ?_,
      fun hcl => (h2 hcl).imp_right fun hreq => ?_⟩
    · rw [label_request hreq] at hf
      exact serverPart_metadata h.enabled hf
    · rw [label_terminate hreq] at hf
      exact serverPart_terminate h.enabled hf

theorem halves_step (hc : Control cfg gib d s) (hok : Steady cfg gib s e)
    (h : Stepped cfg s e s') :
    Tracker.Halves (d.bitmapSize / 8) (s.server.view cfg.pid d) (s'.server.view cfg.pid d) := by
  rcases tracker_step hc hok h with ⟨-, hsame⟩ | ⟨f, -, hl, -, hstep⟩
  · rw [hsame]
    exact Tracker.halves_of_eq rfl rfl
  · exact Tracker.halves_step hc.rounds.rounds hl hstep

/-- In a handler the server's thread does not use the connection, except to send the bitmap. -/
theorem clientSide_of_busy (hf : ¬ s.Free cfg) (hen : s.Enabled cfg e) {f : LinkEvent}
    (hl : s.linkPart cfg e = some f) : Link.ClientSide f ∨ ∃ r, e = .sendBitmap r := by
  cases e with
  | link g =>
    cases hl
    cases f with
    | server g =>
      cases g with
      | recvHeader | chunkWrite | other => exact absurd hen hf
      | getBitmap | getData | terminate => exact hen.elim
    | _ => exact Or.inl trivial
  | sendBitmap r => exact Or.inr ⟨r, rfl⟩
  | getData | terminate => exact absurd hen hf
  | writeChunk =>
    cases hl
    exact Or.inl trivial
  | _ => cases hl

theorem free_of_sendBitmap {r : Option Nat} (h : Stepped cfg s (.sendBitmap r) s') :
    s'.Free cfg := by
  have hrun := Server.threadStep_of_run (h.server _ rfl)
  have hp : s.server.phase cfg.pid = .loaded := h.enabled.1
  unfold Free
  generalize s'.server = t at hrun
  cases hrun with
  | send => exact Function.update_self _ _ _
  | index hq | getUser hq | choose hq | copy hq | flip hq | keep hq | clear hq | clearEnd hq =>
    rw [hp] at hq
    cases hq

theorem alone_conditions {l : Link} (hi : Link.LinkInv cfg l) {g : Client.Event} {c : Client}
    (h : l.client.step cfg.client g = some c) :
    ReceivesAhead l.client g ∧ TestsReceived l.client g := by
  cases g with
  | bitmap m =>
    obtain ⟨haw, -⟩ := bitmap_received h
    refine ⟨fun t _ th hth => ?_, trivial⟩
    rw [hi.alone haw t] at hth
    cases hth
  | run tid ok =>
    refine ⟨trivial, fun haw pos hpos => ?_⟩
    rw [testedPos, hi.alone haw tid] at hpos
    cases hpos
  | _ => exact ⟨trivial, trivial⟩

theorem inv_link (hg : LoopsEnough cfg.client) (hc : Control cfg gib d s)
    (hok : Steady cfg gib s e) (h : Stepped cfg s e s') :
    Link.LinkInv cfg s'.link ∧ Client.Inv cfg.client s'.link.client := by
  cases hl : s.linkPart cfg e with
  | none =>
    rw [h.linkSame hl]
    exact ⟨hc.link, hc.client⟩
  | some f =>
    have hs := h.link f hl
    refine ⟨Link.linkInv_step hc.link (hok.link f hl) hs, ?_⟩
    rcases Link.step_client hs with ⟨g, hg', hstep⟩ | ⟨-, hsame⟩
    · obtain ⟨hends, hfresh⟩ := hok.client f hl g hg'
      obtain ⟨hahead, htest⟩ := alone_conditions hc.link hstep
      exact inv_step hg hc.link.single hc.client hends hfresh hahead htest hstep
    · rw [hsame]
      exact hc.client

/-- A step on the connection leaves the client waiting while the server works on its request. -/
theorem serving_step (hc : Control cfg gib d s) (hok : Steady cfg gib s e)
    (h : Stepped cfg s e s') (hlo : (s'.server.phase cfg.pid).Loading) :
    s'.link.client.awaiting = true ∧ s'.link.client.socketUp = true ∧
      s'.link.conn.server.Finds cfg .bitmapMetadata := by
  rcases (phase_step hc hok h).1 hlo with hlo0 | rfl
  · have hbusy := not_free_of_loading hlo0
    obtain ⟨haw, hup, hf⟩ := hc.serving hlo0
    cases hl : s.linkPart cfg e with
    | none =>
      rw [h.linkSame hl]
      exact ⟨haw, hup, hf⟩
    | some f =>
      rcases clientSide_of_busy hbusy h.enabled hl with hside | ⟨r, rfl⟩
      · rcases Link.awaiting_step hc.link (hok.link f hl) hside haw (h.link f hl) with
          ⟨n, rfl⟩ | ⟨haw', hup', hconn⟩
        · -- there is no bitmap to receive
          obtain ⟨⟨-, -, hle, -⟩, -⟩ := Option.ite_none_right_eq_some.mp (h.link _ hl)
          have hn : n = bitmapSizeMax := (hok.link _ hl).1
          have hpos : 0 < bitmapSizeMax := by decide
          have hpend := hc.quiet hbusy
          omega
        · rw [hconn]
          exact ⟨haw', hup'.trans hup, hf⟩
      · exact absurd (free_of_sendBitmap h) (not_free_of_loading hlo)
  · have hsame := h.linkSame rfl
    have hup := hok.connected (Or.inl rfl)
    have hf : s.link.conn.server.Finds cfg .bitmapMetadata := h.enabled
    rw [hsame]
    exact ⟨(hc.link.metadata_found hup hf).1, hup, hf⟩

theorem quiet_step (hc : Control cfg gib d s) (hok : Steady cfg gib s e)
    (h : Stepped cfg s e s') (hbusy' : ¬ s'.Free cfg) : s'.link.conn.toClient.pending = 0 := by
  by_cases hbusy : s.Free cfg
  · -- a handler starts
    have hstart : e = .getBitmap ∨ e = .terminate := by
      rcases free_of_not hbusy' with hlo | hcl
      · refine Or.inl (((phase_step hc hok h).1 hlo).resolve_left fun hl => ?_)
        exact not_free_of_loading hl hbusy
      · refine Or.inr (((phase_step hc hok h).2 hcl).resolve_left fun hl => ?_)
        exact not_free_of_clearing hl hbusy
    rcases hstart with rfl | rfl
    · rw [h.linkSame rfl]
      exact (hc.link.metadata_found (hok.connected (Or.inl rfl)) h.enabled).2.1
    · have hs := h.link _ rfl
      obtain ⟨q, b, a, -, -, ht⟩ := hc.link.talk (hok.connected (Or.inr ⟨_, rfl⟩))
      obtain ⟨c, hcs, hl'⟩ := Option.map_eq_some_iff.mp hs
      have hto := (Link.serverChange hcs).toClient (by simp) (by simp) (by simp)
      obtain ⟨hf, -⟩ := Option.ite_none_right_eq_some.mp hcs
      rw [← hl']
      dsimp only
      rw [hto]
      exact ht.pending_of_dispatch hf.1
  · have hpend := hc.quiet hbusy
    cases hl : s.linkPart cfg e with
    | none =>
      rw [h.linkSame hl]
      exact hpend
    | some f =>
      rcases clientSide_of_busy hbusy h.enabled hl with hside | ⟨r, rfl⟩
      · have hle := Link.toClient_step hside (h.link f hl)
        omega
      · exact absurd (free_of_sendBitmap h) hbusy'

/-- **Step lemma**, for the control part. -/
theorem control_step (hg : LoopsEnough cfg.client) (hc : Control cfg gib d s)
    (hok : Steady cfg gib s e) (h : Stepped cfg s e s') : Control cfg gib d s' := by
  obtain ⟨hlink, hclient⟩ := inv_link hg hc hok h
  have hserver : RoundInv cfg.pid d s'.server ∧ ScriptDevice gib cfg.pid s'.server := by
    cases hp : serverPart cfg e with
    | none =>
      rw [h.serverSame hp]
      exact ⟨hc.rounds, hc.script⟩
    | some f =>
      obtain ⟨hround, hkeeps, -⟩ := hok.server f hp
      exact ⟨roundInv_step hc.rounds hround hkeeps (h.server f hp),
        scriptDevice_step hc.rounds hround hc.script (h.server f hp)⟩
  exact ⟨hlink, hclient, hserver.1, hserver.2, serving_step hc hok h, quiet_step hc hok h⟩

/-! ### What is up to date -/

/-- The bytes copied since the last bitmap. -/
def copiedBytes (gib : Nat) (s : Session) : Set Nat :=
  {y | ∃ lba ∈ s.link.client.history.written, y ∈ chunkBytes gib lba}

structure Data (cfg : Config) (gib : Nat) (d : SrcDisk) (s : Session) : Prop where
  carried : (s.server.view cfg.pid d).Carried
  awaited : s.link.client.awaiting = true → s.link.client.socketUp = true →
    Link.Awaited (s.passive cfg d) s.link
  /-- The target, outside both halves. -/
  recorded : Fresh (grainOf gib) s.source (s.active cfg d ∪ s.passive cfg d) (diskBytes gib) s.target
  copied : s.link.client.awaiting = false →
    Fresh (grainOf gib) s.source (s.active cfg d) (copiedBytes gib s) s.target
  /-- The chunk that is being copied. -/
  read : InTransfer s.link.client → ∀ r rest, s.link.conn.server.served = r :: rest →
    s.link.conn.server.served.length = s.link.conn.asked →
      Fresh (grainOf gib) s.source (s.active cfg d) (chunkBytes gib r.startLba)
        (chunkValue r.startLba r.bytes)
  /-- The other half is no longer needed; or it is not cleared, and the client has all its bits. -/
  stage : Fresh (grainOf gib) s.source (s.active cfg d) (diskBytes gib) s.target ∨
    (Link.NoEnd cfg s.link.conn ∧ ¬ (s.server.phase cfg.pid).Clearing ∧
      (s.link.client.awaiting = false →
        ∀ b ∈ s.passive cfg d, bit s.link.client.history.received b = true))

theorem chunkBytes_subset (gib lba : Nat) : chunkBytes gib lba ⊆ diskBytes gib :=
  fun _ hy => hy.1

theorem copiedBytes_subset (gib : Nat) (s : Session) : copiedBytes gib s ⊆ diskBytes gib := by
  rintro y ⟨lba, -, hy⟩
  exact hy.1

/-- What a step without a flip does to the two halves. -/
structure Keeps (cfg : Config) (d : SrcDisk) (s s' : Session) : Prop where
  more : s.active cfg d ⊆ s'.active cfg d
  less : s'.passive cfg d ⊆ s.passive cfg d
  same : (s.server.phase cfg.pid).Clearing ∨ s.passive cfg d ⊆ s'.passive cfg d

/-- The flip of the server's thread. -/
structure Flips (cfg : Config) (d : SrcDisk) (s : Session) (e : SessionEvent) (s' : Session) :
    Prop where
  event : e = .server (.run cfg.pid)
  copied : ∃ g k, s.server.phase cfg.pid = .copying g k true ∧ d.bitmapSize / 8 ≤ k
  active : s'.active cfg d = s.passive cfg d
  passive : s'.passive cfg d = s.active cfg d
  after : s'.server.phase cfg.pid = .loaded
  link : s'.link = s.link
  source : s'.source = s.source
  target : s'.target = s.target

theorem event_of_flip (h : Stepped cfg s e s') {g : Half} {k : Nat}
    (hok : Steady cfg gib s e) (hp : s.server.phase cfg.pid = .copying g k true)
    (hp' : s'.server.phase cfg.pid = .loaded) : e = .server (.run cfg.pid) := by
  have hne : ∀ f, serverPart cfg e = some f → f.partner = some cfg.pid := by
    intro f hf
    by_contra hno
    have hr : f ≠ .restart := by
      rintro rfl
      cases e with
      | server f =>
        rw [Option.some.inj hf] at h
        exact h.enabled.elim
      | _ => cases hf
    have hsame := Server.step_same hno hr (h.server f hf)
    rw [hsame.phase, hp] at hp'
    cases hp'
  cases e with
  | server f =>
    have hpart := hne f rfl
    have hother : s.OtherServer cfg f := h.enabled
    cases f with
    | run q =>
      obtain rfl := Option.some.inj hpart
      rfl
    | recvMetadata q | recvTerminate q => exact absurd (Option.some.inj hpart) hother
    | connPause | connResume | loadRow => exact (hok.server _ rfl).1.elim
    | write | control | restart => cases hpart
  | write bio data => cases hne _ rfl
  | getBitmap | terminate =>
    obtain ⟨hidle, -⟩ := Option.ite_none_right_eq_some.mp (h.server _ rfl)
    rw [hp] at hidle
    cases hidle
  | sendBitmap r =>
    have hl : s.server.phase cfg.pid = .loaded := h.enabled.1
    rw [hp] at hl
    cases hl
  | land | link | getData | writeChunk | snap =>
    rw [h.serverSame rfl, hp] at hp'
    cases hp'

theorem Flips.before (h : Flips cfg d s e s') : (s.server.phase cfg.pid).Loading := by
  obtain ⟨g, k, hp, -⟩ := h.copied
  rw [hp]
  trivial

theorem keeps_or_flips (hc : Control cfg gib d s) (hok : Steady cfg gib s e)
    (h : Stepped cfg s e s') : Keeps cfg d s s' ∨ Flips cfg d s e s' := by
  cases halves_step hc hok h with
  | keep hact hmore hless hsame =>
    refine Or.inl ⟨?_, ?_, hsame.imp_right fun hs => ?_⟩
    · intro b hb
      show (s'.server.view cfg.pid d).dirty (s'.server.view cfg.pid d).active b = true
      rw [hact]
      exact hmore b hb
    · intro b hb
      apply hless b
      have hb' : (s'.server.view cfg.pid d).dirty (s'.server.view cfg.pid d).active.other b = true :=
        hb
      rwa [hact] at hb'
    · intro b hb
      show (s'.server.view cfg.pid d).dirty (s'.server.view cfg.pid d).active.other b = true
      rw [hact]
      exact hs b hb
  | flip hact hdirty hcop hp' =>
    obtain ⟨g, k, hp, hk⟩ := hcop
    have hps : s.server.phase cfg.pid = .copying g k true := hp
    obtain rfl := event_of_flip h hok hps hp'
    refine Or.inr ⟨rfl, ⟨g, k, hps, hk⟩, ?_, ?_, hp', h.linkSame rfl, ?_, h.target⟩
    · unfold active passive
      rw [hact, hdirty]
    · unfold active passive
      rw [hact, hdirty, Half.other_other]
    · unfold source
      rw [h.disk, h.underWay]
      rfl

/-! ### The source -/

/-- Between two flips, the source changes only where a bit of the kernel's half says so. -/
theorem source_step (hgib : 1 ≤ gib) (hfit : 2 * gib < 2 ^ 31) (hc : Control cfg gib d s)
    (hok : Steady cfg gib s e) (h : Stepped cfg s e s') :
    Evolves (grainOf gib) (s'.active cfg d) (diskBytes gib) s.source s'.source := by
  have hdisk := h.disk
  have hunder := h.underWay
  cases e with
  | write bio data =>
    have hcontent : s'.source.content = s.source.content := hdisk
    cases hw : bio.isWrite with
    | false =>
      rw [nextUnderWay, hw, if_neg (by simp)] at hunder
      refine Evolves.land (fun y _ => by rw [hcontent]) ?_
      rintro y ⟨w, hmem, hcov⟩
      exact ⟨w, hunder ▸ hmem, hcov⟩
    | true =>
      rw [nextUnderWay, hw, if_pos rfl] at hunder
      refine Evolves.announce (W := {y | (⟨bio, data⟩ : Submitted).Covers y}) ?_ hcontent ?_
      · rintro y - ⟨h1, h2⟩
        exact write_marks hgib hfit hc.rounds hc.script (h.server _ rfl) (hok.inside hw) h1 h2
      · ext y
        show (∃ w ∈ s'.underWay, w.Covers y) ↔ (∃ w ∈ s.underWay, w.Covers y) ∨ _
        rw [hunder]
        simp [or_and_right, exists_or]
  | land n =>
    have hn : n < s.underWay.length := h.enabled
    have hw : s.underWay[n]? = some s.underWay[n] := List.getElem?_eq_getElem hn
    refine Evolves.land (fun y hfree => ?_) ?_
    · show s'.disk y = s.disk y
      rw [hdisk, nextDisk, hw, Option.map_some, Option.getD_some]
      exact Submitted.apply_of_not_covers fun hcov => hfree ⟨_, List.getElem_mem hn, hcov⟩
    · rintro y ⟨w, hmem, hcov⟩
      rw [hunder] at hmem
      exact ⟨w, List.mem_of_mem_eraseIdx hmem, hcov⟩
  | server | link | getBitmap | sendBitmap | getData | writeChunk | terminate | snap =>
    refine Evolves.land (fun y _ => congrFun hdisk y) ?_
    rintro y ⟨w, hmem, hcov⟩
    rw [hunder] at hmem
    exact ⟨w, hmem, hcov⟩

/-! ### The target -/

/-- What a step copies to the target. -/
structure Copied (cfg : Config) (gib : Nat) (d : SrcDisk) (s s' : Session) (C : Set Nat)
    (u : Nat → UInt8) : Prop where
  inside : C ⊆ diskBytes gib
  fresh : Fresh (grainOf gib) s.source (s.active cfg d) C u
  target : ∀ y ∈ C, s'.target y = u y
  rest : ∀ y ∈ diskBytes gib, y ∉ C → s'.target y = s.target y
  history : s'.link.client.awaiting = false →
    (s.link.client.awaiting = false ∧ copiedBytes gib s' ⊆ copiedBytes gib s ∪ C) ∨
      copiedBytes gib s' = ∅

theorem linkPart_bitmap {n : Nat} (h : s.linkPart cfg e = some (.bitmap n)) :
    e = .link (.bitmap n) := by
  cases e with
  | link f => rw [Option.some.inj h]
  | _ => cases h

theorem linkPart_write {tid pos c : Nat} (hen : s.Enabled cfg e)
    (h : s.linkPart cfg e = some (.client (.run tid true)))
    (hph : s.link.client.phaseOf tid = some (.write pos c)) :
    ∃ r, e = .writeChunk tid r ∧ s.writeOk cfg tid r = true := by
  cases e with
  | link f =>
    rw [Option.some.inj h] at hen
    have hno : s.writing tid = none := hen
    rw [writing, hph] at hno
    cases hno
  | writeChunk tid' r =>
    have hev := LinkEvent.client.inj (Option.some.inj h)
    obtain ⟨rfl, hok⟩ := Client.Event.run.inj hev
    exact ⟨r, rfl, hok⟩
  | _ => cases h

theorem history_step (h : Stepped cfg s e s') :
    (s'.link.client.history.received = s.link.client.history.received ∧
        s'.link.client.history.written = s.link.client.history.written ∧
          (s'.link.client.awaiting = false → s.link.client.awaiting = false)) ∨
      (∃ n, e = .link (.bitmap n) ∧ s'.link.client.history =
        ⟨s.link.conn.toClient.fill (fun _ => 0) n, [], false⟩) ∨
      (∃ tid r pos c, e = .writeChunk tid r ∧ s.writeOk cfg tid r = true ∧
        s.link.client.phaseOf tid = some (.write pos c) ∧
          s'.link.client.history.received = s.link.client.history.received ∧
            s'.link.client.history.written =
              cfg.client.startLba pos c :: s.link.client.history.written ∧
                s'.link.client.awaiting = s.link.client.awaiting) := by
  cases hl : s.linkPart cfg e with
  | none =>
    rw [h.linkSame hl]
    exact Or.inl ⟨rfl, rfl, id⟩
  | some f =>
    have hstep := h.link f hl
    rcases Link.step_client hstep with ⟨g, hg, hs⟩ | ⟨-, hsame⟩
    · have hcase := historyStep_of_step hs
      generalize s'.link.client = c' at hcase ⊢
      cases hcase with
      | keep h1 h2 h3 => exact Or.inl ⟨h1, h2, h3⟩
      | bitmap hhist =>
        obtain ⟨n, rfl, rfl⟩ := Link.bitmap_of_clientPart hstep hg
        exact Or.inr (Or.inl ⟨n, linkPart_bitmap hl, hhist⟩)
      | @wrote tid pos c _ hph hrec hwr haw =>
        rw [Link.write_of_clientPart hstep hg hph] at hl
        obtain ⟨r, rfl, hok⟩ := linkPart_write h.enabled hl hph
        exact Or.inr (Or.inr ⟨tid, r, pos, c, rfl, hok, hph, hrec, hwr, haw⟩)
    · rw [hsame]
      exact Or.inl ⟨rfl, rfl, id⟩

theorem chunk_fresh (hcs : cfg.client = cfg.server) (hc : Control cfg gib d s)
    (hd : Data cfg gib d s) {tid pos c : Nat}
    (hph : s.link.client.phaseOf tid = some (.write pos c)) :
    Fresh (grainOf gib) s.source (s.active cfg d) (chunkBytes gib (cfg.client.startLba pos c))
      (chunkValue (cfg.client.startLba pos c) (s.link.buff tid)) := by
  obtain ⟨-, r, rest, hserved, hcount, hlba, -, hbytes⟩ := hc.link.written tid pos c hph
  have hread := hd.read ⟨tid, pos, c, Or.inr hph⟩ r rest hserved hcount
  rw [hlba, ← hcs] at hread
  intro y hy
  have hval : chunkValue (cfg.client.startLba pos c) (s.link.buff tid) y =
      chunkValue (cfg.client.startLba pos c) r.bytes y := by
    obtain ⟨-, off, hoff, h1, h2⟩ := hy
    unfold chunkValue
    rw [hoff, Option.getD_some]
    exact hbytes _ (by omega)
  rw [hval]
  exact hread y hy

theorem copiedBytes_cons {lba : Nat} {lbas : List Nat}
    (h : s.link.client.history.written = lbas)
    (h' : s'.link.client.history.written = lba :: lbas) :
    copiedBytes gib s' ⊆ copiedBytes gib s ∪ chunkBytes gib lba := by
  rintro y ⟨l, hl, hy⟩
  rw [h', List.mem_cons] at hl
  rcases hl with rfl | hl
  · exact Or.inr hy
  · exact Or.inl ⟨l, h ▸ hl, hy⟩

theorem copiedBytes_of_eq
    (h : s'.link.client.history.written = s.link.client.history.written) :
    copiedBytes gib s' = copiedBytes gib s := by
  unfold copiedBytes
  rw [h]

theorem copied_nothing (ht : s'.target = s.target)
    (hh : s'.link.client.awaiting = false →
      (s.link.client.awaiting = false ∧ copiedBytes gib s' = copiedBytes gib s) ∨
        copiedBytes gib s' = ∅) : Copied cfg gib d s s' ∅ fun _ => 0 where
  inside := Set.empty_subset _
  fresh := fun _ hy => hy.elim
  target := fun _ hy => hy.elim
  rest := fun y _ _ => congrFun ht y
  history := fun haw => (hh haw).imp_left fun h => ⟨h.1, by rw [h.2, Set.union_empty]⟩

theorem not_written_of_eq {tid : Nat} {r : Option Nat} (h : Stepped cfg s (.writeChunk tid r) s')
    (hwok : s.writeOk cfg tid r = true) :
    s'.link.client.history.written ≠ s.link.client.history.written := by
  have hstep := h.link _ rfl
  rw [hwok] at hstep
  obtain ⟨-, hstep⟩ := Option.ite_none_right_eq_some.mp hstep
  obtain ⟨t, hs, hl⟩ := Option.map_eq_some_iff.mp hstep
  obtain ⟨hwriting, -⟩ := h.enabled
  obtain ⟨pos, c, hph⟩ : ∃ pos c, s.link.client.phaseOf tid = some (.write pos c) := by
    unfold writing at hwriting
    split at hwriting
    · rename_i pos c hph
      exact ⟨pos, c, hph⟩
    · exact absurd rfl hwriting
  obtain ⟨⟨ph, x⟩, hth, hp⟩ := Option.map_eq_some_iff.mp hph
  dsimp only at hp
  subst hp
  rw [← hl]
  cases Client.threadStep_of_run hth hs with
  | written => exact List.cons_ne_self _ _
  | writeFailed _ hf => cases hf

/-- **Step lemma**, for the target. -/
theorem copy_step (hcs : cfg.client = cfg.server) (hc : Control cfg gib d s)
    (hd : Data cfg gib d s) (hok : Steady cfg gib s e) (h : Stepped cfg s e s') :
    ∃ C u, Copied cfg gib d s s' C u := by
  rcases history_step h with ⟨-, hwr, haw⟩ | ⟨n, rfl, hhist⟩ | ⟨tid, r, pos, c, rfl, hwok, hph, -, hwr, haw⟩
  · -- nothing is recorded as written, so nothing is written
    have hsame : s'.target = s.target := by
      rw [h.target]
      cases e with
      | writeChunk tid r =>
        apply nextTarget_of_not_ok
        by_contra hwok
        exact not_written_of_eq h (eq_true_of_ne_false hwok) hwr
      | _ => rfl
    exact ⟨∅, _, copied_nothing hsame fun haw' =>
      Or.inl ⟨haw haw', copiedBytes_of_eq hwr⟩⟩
  · refine ⟨∅, _, copied_nothing h.target fun _ => Or.inr ?_⟩
    unfold copiedBytes
    rw [hhist]
    simp
  · -- a chunk is written whole
    obtain ⟨hoff, hr⟩ := Bool.and_eq_true_iff.mp hwok
    obtain ⟨off, hoff⟩ := Option.isSome_iff_exists.mp hoff
    obtain ⟨k, rfl⟩ := Option.isSome_iff_exists.mp hr
    obtain rfl : k = bufSizeInBytes := by
      rcases hok.whole with hn | hn
      · cases hn
      · exact Option.some.inj hn
    have hchunk : chunkOffset (cfg.client.startLba pos c) = some off := by
      rw [writeOffset, writing, hph] at hoff
      exact hoff
    have htarget : s'.target = copyBytes s.target off (s.link.buff tid) 0 bufSizeInBytes := by
      rw [h.target, nextTarget_of_ok hoff]
    refine ⟨chunkBytes gib (cfg.client.startLba pos c),
      chunkValue (cfg.client.startLba pos c) (s.link.buff tid), chunkBytes_subset _ _,
      chunk_fresh hcs hc hd hph, ?_, ?_, fun haw' => Or.inl ⟨haw.symm.trans haw', ?_⟩⟩
    · rintro y ⟨-, off', hoff', h1, h2⟩
      obtain rfl : off = off' := Option.some.inj (hchunk.symm.trans hoff')
      rw [htarget, copyBytes, if_pos ⟨h1, h2⟩, chunkValue, hchunk, Option.getD_some, Nat.zero_add]
    · intro y hy hno
      rw [htarget, copyBytes, if_neg fun hin => hno ⟨hy, off, hchunk, hin.1, hin.2⟩]
    · exact copiedBytes_cons rfl hwr

/-! ### The other half is no longer needed -/

theorem chunk_bounds {y lba : Nat} (h1 : lba ≤ y / 512) (h2 : y / 512 < lba + 8) :
    lba * 512 ≤ y ∧ y < lba * 512 + bufSizeInBytes := by
  unfold bufSizeInBytes
  omega

theorem mem_chunkBytes (hfit : 2 * gib < 2 ^ 31) {y lba : Nat} (hy : y < gib * 2 ^ 30)
    (h1 : lba ≤ y / 512) (h2 : y / 512 < lba + 8) : y ∈ chunkBytes gib lba := by
  obtain ⟨hstart, hend⟩ := chunk_bounds h1 h2
  have hlong : ulong (lba * 512) = lba * 512 := ulong_of_lt (by omega)
  have hoff : chunkOffset lba = some (lba * 512) := by
    rw [chunkOffset, hlong, if_pos (by omega)]
  exact ⟨hy, lba * 512, hoff, hstart, hend⟩

/-- When a thread sends its termination, everything marked in the other half has been copied. -/
theorem clean_of_termination (hgib : 1 ≤ gib) (hfit : 2 * gib < 2 ^ 31)
    (hcfg : cfg.client = scriptGeometry gib) (hsize : d.bitmapSize = 16384)
    (hc : Control cfg gib d s) (hd : Data cfg gib d s) {tid : Nat} {th : ResyncThread}
    (hth : s.link.client.thread tid = some th) (hph : th.phase = .sendTermination)
    (hlive : th.cancelled = false) :
    Fresh (grainOf gib) s.source (s.active cfg d) (diskBytes gib) s.target := by
  rcases hd.stage with hclean | ⟨-, -, hbits⟩
  · exact hclean
  have haw := hc.link.not_awaiting hth
  have hcopied : CopiedBelow cfg.client s.link.client.history (bitmapSizeMax * 8) :=
    hc.client.phaseOk hc.link.single hth hph hlive
  refine hd.recorded.discharge (hd.copied haw) fun y hy hmark => ?_
  have hset := hbits haw _ hmark
  have hlt : grainOf gib y < 8 * 16384 := by
    have hview : (s.server.view cfg.pid d).dirty (s.server.view cfg.pid d).active.other
        (grainOf gib y) = true := hmark
    rw [Server.view] at hview
    have hb := of_decide_eq_true (Bool.and_eq_true_iff.mp hview).1
    rwa [hsize] at hb
  obtain ⟨c, hcount, h1, h2⟩ := script_chunk hgib hfit (x := y / 512) hlt
  have hmax : grainOf gib y < bitmapSizeMax * 8 := by
    unfold bitmapSizeMax
    omega
  rw [hcfg] at hcopied
  exact ⟨_, hcopied _ hmax hmax hset c hcount, mem_chunkBytes hfit hy h1 h2⟩

/-! ### Steps of the invariant -/

/-- The sizes of the run script, for a disk of `gib` GiB: grain and chunk on both sides, and the
halves of the mapped area. -/
structure ScriptSizes (cfg : Config) (gib : Nat) (d : SrcDisk) : Prop where
  pos : 1 ≤ gib
  fit : 2 * gib < 2 ^ 31
  client : cfg.client = scriptGeometry gib
  server : cfg.server = scriptGeometry gib
  half : d.bitmapSize = 16384

theorem ScriptSizes.loops (h : ScriptSizes cfg gib d) : LoopsEnough cfg.client := by
  have hfit := h.fit
  have hchunks : (scriptGeometry gib).grainSize / (scriptGeometry gib).chunkSize < 2 ^ 31 := by
    show gib * 2 ^ 30 / 131072 / 512 / 8 < 2 ^ 31
    omega
  rw [LoopsEnough, h.client, Geometry.loopBound_of_lt hchunks]

theorem carried_step (hsz : ScriptSizes cfg gib d) (hc : Control cfg gib d s)
    (hd : Data cfg gib d s) (hok : Steady cfg gib s e) (h : Stepped cfg s e s') :
    (s'.server.view cfg.pid d).Carried := by
  rcases tracker_step hc hok h with ⟨-, hsame⟩ | ⟨f, -, hl, hahead, hstep⟩
  · rw [hsame]
    exact hd.carried
  · have hdvd : 8 ∣ d.bitmapSize := by
      rw [hsz.half]
      decide
    exact Tracker.carried_step hc.rounds.rounds (bounded_view hdvd) hd.carried hl hahead hstep

theorem sent_bits (hd : Data cfg gib d s) (hp : s.server.phase cfg.pid = .loaded) {b : Nat}
    (hb : b ∈ s.passive cfg d) : bit (s.bitmapArea cfg) b = true := by
  have hcarried := hd.carried
  have hph : (s.server.view cfg.pid d).phase = .loaded := hp
  rw [Tracker.Carried, hph] at hcarried
  obtain ⟨ub, hub, hbit⟩ := (Option.any_eq_true _ _).mp (hcarried b hb)
  rw [bitmapArea, hub]
  exact hbit

theorem awaited_step (hc : Control cfg gib d s) (hd : Data cfg gib d s)
    (hok : Steady cfg gib s e) (h : Stepped cfg s e s')
    (haw : s'.link.client.awaiting = true) (hup : s'.link.client.socketUp = true) :
    Link.Awaited (s'.passive cfg d) s'.link := by
  rcases keeps_or_flips hc hok h with hkeeps | hflips
  · have hlink : Link.Awaited (s.passive cfg d) s'.link := by
      cases hl : s.linkPart cfg e with
      | none =>
        have hsame := h.linkSame hl
        rw [hsame] at haw hup ⊢
        exact hd.awaited haw hup
      | some f =>
        refine Link.awaited_step hc.link (hok.link f hl) ?_ hd.awaited (h.link f hl) haw hup
        rintro m r rfl b hb
        cases e with
        | sendBitmap r' =>
          cases hl
          exact sent_bits hd h.enabled.1 hb
        | link f =>
          cases hl
          exact h.enabled.elim
        | _ => cases hl
    refine ⟨hlink.reads, fun hne => ?_⟩
    obtain ⟨m, hold, hbits⟩ := hlink.sent hne
    exact ⟨m, hold, fun b hb => hbits b (hkeeps.less hb)⟩
  · have hpend := hc.quiet (not_free_of_loading hflips.before)
    rw [hflips.link] at haw hup ⊢
    exact ⟨(hd.awaited haw hup).reads, fun hne => absurd hpend hne⟩

theorem fresh_step {K C : Set Nat} {u : Nat → UInt8} {A : Set Nat} (hK : K ⊆ diskBytes gib)
    (hA : s.active cfg d ⊆ A) (hcopy : Copied cfg gib d s s' C u)
    (hsrc : Evolves (grainOf gib) (s'.active cfg d) (diskBytes gib) s.source s'.source)
    (hf : Fresh (grainOf gib) s.source A K s.target) :
    Fresh (grainOf gib) s'.source (A ∪ s'.active cfg d) (K ∪ C) s'.target := by
  have hover : Fresh (grainOf gib) s.source A (K ∪ C) s'.target :=
    hf.overwrite (hcopy.fresh.mono hA (le_refl _)) hcopy.target
      fun y hy hno => hcopy.rest y (hK hy) hno
  refine hover.evolve Set.subset_union_left fun y hy hfree => ?_
  have hdisk : y ∈ diskBytes gib := hy.elim (fun h => hK h) fun h => hcopy.inside h
  exact (hsrc y hdisk hfree).imp_right Or.inr

/-- **Step lemma**, for what has been copied. -/
theorem copied_step (hsz : ScriptSizes cfg gib d) (hc : Control cfg gib d s)
    (hd : Data cfg gib d s) (hok : Steady cfg gib s e) (h : Stepped cfg s e s')
    (haw' : s'.link.client.awaiting = false) :
    Fresh (grainOf gib) s'.source (s'.active cfg d) (copiedBytes gib s') s'.target := by
  rcases keeps_or_flips hc hok h with hkeeps | hflips
  · obtain ⟨C, u, hcopy⟩ := copy_step (hsz.client.trans hsz.server.symm) hc hd hok h
    have hsrc := source_step hsz.pos hsz.fit hc hok h
    rcases hcopy.history haw' with ⟨haw, hsub⟩ | hempty
    · refine (fresh_step (copiedBytes_subset gib s) (le_refl _) hcopy hsrc (hd.copied haw)).mono
        ?_ hsub
      exact Set.union_subset hkeeps.more (le_refl _)
    · rw [hempty]
      exact fun _ hy => hy.elim
  · have haw := (hc.serving hflips.before).1
    rw [hflips.link] at haw'
    exact absurd (haw.symm.trans haw') (by simp)

/-- **Step lemma**, for a target that is up to date outside the kernel's half. -/
theorem clean_step (hsz : ScriptSizes cfg gib d) (hc : Control cfg gib d s)
    (hd : Data cfg gib d s) (hok : Steady cfg gib s e) (h : Stepped cfg s e s')
    (hkeeps : Keeps cfg d s s')
    (hclean : Fresh (grainOf gib) s.source (s.active cfg d) (diskBytes gib) s.target) :
    Fresh (grainOf gib) s'.source (s'.active cfg d) (diskBytes gib) s'.target := by
  obtain ⟨C, u, hcopy⟩ := copy_step (hsz.client.trans hsz.server.symm) hc hd hok h
  have hsrc := source_step hsz.pos hsz.fit hc hok h
  refine (fresh_step (le_refl _) (le_refl _) hcopy hsrc hclean).mono ?_ Set.subset_union_left
  exact Set.union_subset hkeeps.more (le_refl _)

/-- **Step lemma**, for the target outside both halves. -/
theorem recorded_step (hsz : ScriptSizes cfg gib d) (hc : Control cfg gib d s)
    (hd : Data cfg gib d s) (hok : Steady cfg gib s e) (h : Stepped cfg s e s') :
    Fresh (grainOf gib) s'.source (s'.active cfg d ∪ s'.passive cfg d) (diskBytes gib)
      s'.target := by
  rcases keeps_or_flips hc hok h with hkeeps | hflips
  · rcases hkeeps.same with hclear | hsame
    · -- the other half is being cleared
      have hclean := hd.stage.resolve_right fun hs => hs.2.1 hclear
      exact (clean_step hsz hc hd hok h hkeeps hclean).mono Set.subset_union_left (le_refl _)
    · obtain ⟨C, u, hcopy⟩ := copy_step (hsz.client.trans hsz.server.symm) hc hd hok h
      have hsrc := source_step hsz.pos hsz.fit hc hok h
      refine (fresh_step (le_refl _) Set.subset_union_left hcopy hsrc hd.recorded).mono ?_
        Set.subset_union_left
      exact Set.union_subset (Set.union_subset_union hkeeps.more hsame) Set.subset_union_left
  · rw [hflips.active, hflips.passive, hflips.source, hflips.target, Set.union_comm]
    exact hd.recorded

theorem read_of_getData {r : Option Nat} {m : Mem} (hd : Data cfg gib d s)
    (hread : s.Settled cfg gib d m) (h : Stepped cfg s (.getData r m) s')
    (hin : InTransfer s'.link.client) {x : Served} {rest : List Served}
    (hserved : s'.link.conn.server.served = x :: rest)
    (hcount : s'.link.conn.server.served.length = s'.link.conn.asked) :
    Fresh (grainOf gib) s.source (s.active cfg d) (chunkBytes gib x.startLba)
      (chunkValue x.startLba x.bytes) := by
  have hstep := h.link _ rfl
  obtain ⟨c, hs, hl⟩ := Option.map_eq_some_iff.mp hstep
  rw [← hl] at hin hserved hcount
  obtain ⟨-, hs⟩ := Option.ite_none_right_eq_some.mp hs
  unfold Conn.getData at hs
  split at hs
  · cases hs
    exact hd.read hin x rest hserved hcount
  · split at hs
    · cases hs
      exact hd.read hin x rest hserved hcount
    · obtain ⟨-, hs⟩ := Option.ite_none_right_eq_some.mp hs
      cases hs
      obtain ⟨rfl, -⟩ := List.cons.inj hserved
      exact hread

/-- **Step lemma**, for the chunk that is being copied. -/
theorem read_step (hsz : ScriptSizes cfg gib d) (hc : Control cfg gib d s)
    (hd : Data cfg gib d s) (hok : Steady cfg gib s e)
    (hread : ∀ r m, e = .getData r m → s.Settled cfg gib d m) (h : Stepped cfg s e s')
    (hin : InTransfer s'.link.client) {x : Served} {rest : List Served}
    (hserved : s'.link.conn.server.served = x :: rest)
    (hcount : s'.link.conn.server.served.length = s'.link.conn.asked) :
    Fresh (grainOf gib) s'.source (s'.active cfg d) (chunkBytes gib x.startLba)
      (chunkValue x.startLba x.bytes) := by
  rcases keeps_or_flips hc hok h with hkeeps | hflips
  · have hold : Fresh (grainOf gib) s.source (s.active cfg d) (chunkBytes gib x.startLba)
        (chunkValue x.startLba x.bytes) := by
      cases hl : s.linkPart cfg e with
      | none =>
        have hsame := h.linkSame hl
        rw [hsame] at hin hserved hcount
        exact hd.read hin x rest hserved hcount
      | some f =>
        by_cases hf : ∃ r m, f = .server (.getData r m)
        · obtain ⟨r, m, rfl⟩ := hf
          cases e with
          | getData r' m' => exact read_of_getData hd (hread r' m' rfl) h hin hserved hcount
          | link f =>
            cases hl
            exact h.enabled.elim
          | _ => cases hl
        · rcases Link.transfer_step hc.link (hok.link f hl)
            (fun r m hfr => hf ⟨r, m, hfr⟩) (h.link f hl) hin with ⟨hin0, hs, ha⟩ | hne
          · rw [hs] at hserved hcount
            rw [ha] at hcount
            exact hd.read hin0 x rest hserved hcount
          · exact absurd hcount hne
    have hsrc := source_step hsz.pos hsz.fit hc hok h
    exact hold.evolve hkeeps.more (Evolves.mono hsrc (chunkBytes_subset _ _))
  · -- no thread runs while the client waits for the bitmap
    have haw := (hc.serving hflips.before).1
    obtain ⟨tid, pos, c, hph⟩ := hin
    rw [hflips.link] at hph
    rw [phaseOf, hc.link.alone haw tid] at hph
    rcases hph with hph | hph <;> cases hph

theorem not_terminate (hn : Link.NoEnd cfg s.link.conn) (h : Stepped cfg s e s') :
    e ≠ .terminate := by
  rintro rfl
  obtain ⟨c, hs, -⟩ := Option.map_eq_some_iff.mp (h.link _ rfl)
  exact hn.found (Option.ite_none_right_eq_some.mp hs).1

theorem received_step (hsz : ScriptSizes cfg gib d) (hd : Data cfg gib d s)
    (hok : Steady cfg gib s e) (h : Stepped cfg s e s') (hkeeps : Keeps cfg d s s')
    (hbits : s.link.client.awaiting = false →
      ∀ b ∈ s.passive cfg d, bit s.link.client.history.received b = true)
    (haw' : s'.link.client.awaiting = false) {b : Nat} (hb : b ∈ s'.passive cfg d) :
    bit s'.link.client.history.received b = true := by
  rcases history_step h with ⟨hrec, -, haw⟩ | ⟨n, rfl, hhist⟩ |
    ⟨tid, r, pos, c, -, -, -, hrec, -, haw⟩
  · rw [hrec]
    exact hbits (haw haw') b (hkeeps.less hb)
  · -- the bitmap arrives
    obtain ⟨⟨hup, -, hle, -⟩, hstep⟩ := Option.ite_none_right_eq_some.mp (h.link _ rfl)
    obtain ⟨c, hs, -⟩ := Option.map_eq_some_iff.mp hstep
    obtain ⟨haw, -⟩ := bitmap_received hs
    obtain rfl : n = bitmapSizeMax := (hok.link _ rfl).1
    have hpos : 0 < bitmapSizeMax := by decide
    obtain ⟨m, hold, hm⟩ := (hd.awaited haw hup).sent (by omega)
    have hlt : b < 8 * bitmapSizeMax := by
      have hview : (s'.server.view cfg.pid d).dirty (s'.server.view cfg.pid d).active.other b =
          true := hb
      rw [Server.view] at hview
      have hsmall := of_decide_eq_true (Bool.and_eq_true_iff.mp hview).1
      rw [hsz.half] at hsmall
      exact hsmall
    have hbyte : s.link.conn.toClient.fill (fun _ => 0) bitmapSizeMax (b / 8) = m (b / 8) := by
      have hhead : s.link.conn.toClient.Holds 0 m bitmapSizeMax :=
        ⟨by omega, fun i hi => hold.eq i (by omega)⟩
      exact hhead.fill _ (by omega)
    rw [hhist]
    dsimp only
    rw [bit, hbyte]
    exact hm b (hkeeps.less hb)
  · rw [hrec]
    exact hbits (haw.symm.trans haw') b (hkeeps.less hb)

theorem clean_of_send (hsz : ScriptSizes cfg gib d) (hc : Control cfg gib d s)
    (hd : Data cfg gib d s) (h : Stepped cfg s e s') {tid : Nat} {r : Option Nat}
    (hl : s.linkPart cfg e = some (.send tid r))
    (hph : s.link.client.phaseOf tid = some .sendTermination) :
    Fresh (grainOf gib) s.source (s.active cfg d) (diskBytes gib) s.target := by
  obtain ⟨-, hs⟩ := Option.ite_none_right_eq_some.mp (h.link _ hl)
  unfold Link.send at hs
  dsimp only at hs
  rw [hph] at hs
  obtain ⟨c, hrun, -⟩ := Option.map_eq_some_iff.mp hs
  obtain ⟨⟨ph, x⟩, hth, hp⟩ := Option.map_eq_some_iff.mp hph
  dsimp only at hp
  subst hp
  cases Client.threadStep_of_run hth hrun with
  | sendTermination hx =>
    exact clean_of_termination hsz.pos hsz.fit hsz.client hsz.half hc hd hth rfl hx

/-- **Step lemma**, for the stage of the round. -/
theorem stage_step (hsz : ScriptSizes cfg gib d) (hc : Control cfg gib d s)
    (hd : Data cfg gib d s) (hok : Steady cfg gib s e) (h : Stepped cfg s e s') :
    Fresh (grainOf gib) s'.source (s'.active cfg d) (diskBytes gib) s'.target ∨
      (Link.NoEnd cfg s'.link.conn ∧ ¬ (s'.server.phase cfg.pid).Clearing ∧
        (s'.link.client.awaiting = false →
          ∀ b ∈ s'.passive cfg d, bit s'.link.client.history.received b = true)) := by
  rcases keeps_or_flips hc hok h with hkeeps | hflips
  · rcases hd.stage with hclean | ⟨hno, hclear, hbits⟩
    · exact Or.inl (clean_step hsz hc hd hok h hkeeps hclean)
    have hclear' : ¬ (s'.server.phase cfg.pid).Clearing := fun hcl =>
      ((phase_step hc hok h).2 hcl).elim hclear (not_terminate hno h)
    have hreceived : s'.link.client.awaiting = false →
        ∀ b ∈ s'.passive cfg d, bit s'.link.client.history.received b = true :=
      fun haw' b hb => received_step hsz hd hok h hkeeps hbits haw' hb
    cases hl : s.linkPart cfg e with
    | none =>
      have hsame := h.linkSame hl
      refine Or.inr ⟨?_, hclear', hreceived⟩
      rw [hsame]
      exact hno
    | some f =>
      by_cases hsend : ∃ tid r, f = .send tid r ∧
          s.link.client.phaseOf tid = some .sendTermination
      · obtain ⟨tid, r, rfl, hph⟩ := hsend
        exact Or.inl (clean_step hsz hc hd hok h hkeeps (clean_of_send hsz hc hd h hl hph))
      · refine Or.inr ⟨?_, hclear', hreceived⟩
        refine Link.noEnd_step hc.link (hok.link f hl) (fun hside => ?_)
          (fun tid r hf hph => hsend ⟨tid, r, hf, hph⟩) hno (h.link f hl)
        apply hok.connected
        cases f with
        | server g => exact Or.inr ⟨g, hl⟩
        | _ => exact absurd trivial hside
  · -- the flip: the request has been received, and nothing else is on the way
    obtain ⟨haw, hup, hf⟩ := hc.serving hflips.before
    obtain ⟨-, -, hempty⟩ := hc.link.metadata_found hup hf
    refine Or.inr ⟨?_, ?_, fun haw' => ?_⟩
    · rw [hflips.link]
      refine Link.noEnd_of_empty hempty fun hterm => ?_
      exact absurd (Link.finds_unique hf hterm) (by simp)
    · rw [hflips.after]
      exact id
    · rw [hflips.link] at haw'
      exact absurd (haw.symm.trans haw') (by simp)

/-- **Step lemma**, for the data part. -/
theorem data_step (hsz : ScriptSizes cfg gib d) (hc : Control cfg gib d s)
    (hd : Data cfg gib d s) (hok : Steady cfg gib s e)
    (hread : ∀ r m, e = .getData r m → s.Settled cfg gib d m) (h : Stepped cfg s e s') :
    Data cfg gib d s' where
  carried := carried_step hsz hc hd hok h
  awaited := awaited_step hc hd hok h
  recorded := recorded_step hsz hc hd hok h
  copied := copied_step hsz hc hd hok h
  read := fun hin _ _ hserved hcount => read_step hsz hc hd hok hread h hin hserved hcount
  stage := stage_step hsz hc hd hok h

/-! ### Runs -/

/-- The beginning: the server has its devices and no request, the negotiation is over, and the target
is a copy of the source. -/
structure Start (cfg : Config) (gib : Nat) (d : SrcDisk) (s : Session) : Prop where
  ready : Ready s.server
  disk : s.server.srcDisk cfg.pid = some d
  ubitmap : s.server.ubitmap cfg.pid = none
  normal : s.server.Normal cfg.pid
  script : ScriptDevice gib cfg.pid s.server
  link : ∃ header buff, s.link = Link.boot header buff
  underWay : s.underWay = []
  target : ∀ y < gib * 2 ^ 30, s.target y = s.disk y

theorem Start.control (h : Start cfg gib d s) : Control cfg gib d s := by
  obtain ⟨header, buff, hl⟩ := h.link
  have hphase := h.ready.idle cfg.pid
  refine ⟨?_, ?_, roundInv_ready h.ready h.disk h.ubitmap h.normal, h.script, ?_, ?_⟩
  · rw [hl]
    exact Link.linkInv_boot cfg header buff
  · rw [hl]
    exact inv_boot
  · rw [hphase]
    exact False.elim
  · exact fun hbusy => absurd hphase hbusy

theorem Start.data (h : Start cfg gib d s) : Data cfg gib d s := by
  obtain ⟨header, buff, hl⟩ := h.link
  have hphase : (s.server.view cfg.pid d).phase = .idle := h.ready.idle cfg.pid
  have hfresh : ∀ A, Fresh (grainOf gib) s.source A (diskBytes gib) s.target := by
    refine fun A => fresh_of_eq h.target ?_
    rintro y - ⟨w, hw, -⟩
    rw [h.underWay] at hw
    cases hw
  refine ⟨?_, ?_, hfresh _, ?_, ?_, Or.inl (hfresh _)⟩
  · rw [Tracker.Carried, hphase]
    trivial
  · rw [hl]
    intro haw
    cases haw
  · exact fun _ => (hfresh _).mono (le_refl _) (copiedBytes_subset gib s)
  · rw [hl]
    rintro ⟨tid, pos, c, hph | hph⟩ <;> cases hph

theorem inv_run (hsz : ScriptSizes cfg gib d) {s0 : Session} {es : List SessionEvent}
    (h0 : Start cfg gib d s0) (hm : Meets (step cfg) (Regular cfg gib d) s0 es)
    (hr : run (step cfg) s0 es = some s) : Control cfg gib d s ∧ Data cfg gib d s :=
  Lts.run_inv (I := fun s => Control cfg gib d s ∧ Data cfg gib d s)
    (fun _ _ _ hi hok hs =>
      ⟨control_step hsz.loops hi.1 hok.toSteady (stepped hs),
        data_step hsz hi.1 hi.2 hok.toSteady hok.read (stepped hs)⟩)
    ⟨h0.control, h0.data⟩ hm hr

/-! ### One write on a disk of 1 GiB -/

/-- The module with the device of a disk of 1 GiB. -/
def oneGibKernel : Kernel :=
  (run Kernel.step Kernel.init [Kernel.createOk [1] 8192 16384]).getD Kernel.init

theorem oneGib_pid_lt : 0 < 2 ^ 31 := by decide

def oneGibConfig : Config := ⟨0, oneGib_pid_lt, fun _ => 0, scriptGeometry 1, scriptGeometry 1⟩

/-- Partner 0 after the negotiation, with two empty disks of 1 GiB. -/
def oneGib : Session where
  link := Link.boot (fun _ => 0) fun _ _ => 0
  server :=
    { Server.boot with
      kernel := oneGibKernel
      srcDisk := fun p => if p = 0 then some ⟨16384, 0⟩ else none
      partnerState := fun p => if p = 0 then .inUse else .free
      dsCount := 1 }
  disk := fun _ => 0
  underWay := []
  target := fun _ => 0
  srcFd := false

/-- The first sector is written, and the bio reaches the disk. -/
def firstSector : List SessionEvent := [.write ⟨0, 512, true⟩ fun _ => 7, .land 0]

theorem sizes_oneGib : ScriptSizes oneGibConfig 1 ⟨16384, 0⟩ :=
  ⟨by decide, by decide, rfl, rfl, rfl⟩

theorem inv_oneGibKernel : oneGibKernel.Inv := by
  have hsome : (run Kernel.step Kernel.init
      [Kernel.createOk [1] 8192 16384]).isSome = true := by decide
  obtain ⟨k, hk⟩ := Option.isSome_iff_exists.mp hsome
  have hm : Meets Kernel.step (fun k e => Kernel.NamesCreated k e ∧ Kernel.FitsOwn k e) Kernel.init
      [Kernel.createOk [1] 8192 16384] := by decide
  rw [oneGibKernel, hk, Option.getD_some]
  exact Lts.run_inv (fun k e k' hi hok hs => Kernel.step_inv hi hok.1 hok.2 hs) Kernel.inv_init
    hm hk

theorem start_oneGib : Start oneGibConfig 1 ⟨16384, 0⟩ oneGib where
  ready :=
    { kernel := inv_oneGibKernel
      disk := by
        intro p d hd
        simp only [oneGib] at hd
        split at hd
        · rename_i hp
          subst hp
          cases hd
          exact diskOk_of_inv inv_oneGibKernel (by decide) (by decide) (by decide)
        · cases hd
      idle := fun _ => rfl }
  disk := rfl
  ubitmap := rfl
  normal := by decide
  script := ⟨⟨0, 0⟩, .kernel, by decide⟩
  link := ⟨_, _, rfl⟩
  underWay := rfl
  target := fun _ _ => rfl

theorem steady_of_server
    (hserver : ∀ f ∈ serverPart cfg e,
      RoundEvent f ∧ KeepsIndex s.server f ∧ NotPassed cfg.pid s.server f)
    (hl : s.linkPart cfg e = none) (hreq : e ≠ .getBitmap) (hin : StaysInside gib e)
    (hwhole : WholeWrite e) : Steady cfg gib s e := by
  refine ⟨hserver, ?_, ?_, ?_, hin, hwhole⟩
  · intro g hg
    rw [hl] at hg
    cases hg
  · intro g hg
    rw [hl] at hg
    cases hg
  · rintro (he | ⟨g, hg⟩)
    · exact absurd he hreq
    · rw [hl] at hg
      cases hg

theorem steady_firstSector :
    Meets (step oneGibConfig) (Steady oneGibConfig 1) oneGib firstSector := by
  refine ⟨?_, fun s1 _ => ⟨?_, fun _ _ => trivial⟩⟩
  · refine steady_of_server (fun f hf => ?_) rfl (by simp) (fun _ => ⟨rfl, by decide, by decide⟩)
      trivial
    obtain rfl : .write 1 ⟨0, 512, true⟩ = f := Option.some.inj hf
    refine ⟨trivial, fun v hv => (by cases hv), ?_⟩
    rw [NotPassed]
    trivial
  · exact steady_of_server (fun f hf => (by cases hf)) rfl (by simp) trivial trivial

theorem run_firstSector :
    ∃ s, run (step oneGibConfig) oneGib firstSector = some s ∧ s.disk 0 = 7 ∧ s.target 0 = 0 := by
  obtain ⟨a, hdev⟩ := diskOk_of_inv (p := 0) (d := ⟨16384, 0⟩) inv_oneGibKernel (by decide)
    (by decide) (by decide)
  have hwrites : (⟨0, 512, true⟩ : Bio).isWrite = true := rfl
  obtain ⟨m, hm, -⟩ := Kernel.ebdrMakeRequest_spec inv_oneGibKernel hdev.created hdev.device hwrites
  have hwrite : oneGib.server.step (.write 1 ⟨0, 512, true⟩) =
      some { oneGib.server with kernel := oneGibKernel.setMem 0 m } := by
    have hk : oneGib.server.kernel = oneGibKernel := by rw [oneGib]
    rw [Server.step, hk, hm, Option.map_some]
  let w : Submitted := ⟨⟨0, 512, true⟩, fun _ => 7⟩
  let s1 : Session :=
    { oneGib with
      server := { oneGib.server with kernel := oneGibKernel.setMem 0 m }
      underWay := [w] }
  have h1 : oneGib.step oneGibConfig (.write w.bio w.data) = some s1 := by
    have hserver : oneGib.stepServer oneGibConfig (.write w.bio w.data) = some s1.server := hwrite
    have hen : oneGib.Enabled oneGibConfig (.write w.bio w.data) := trivial
    rw [step, if_pos hen, hserver]
    rfl
  have h2 : s1.step oneGibConfig (.land 0) =
      some { s1 with disk := w.apply oneGib.disk, underWay := [] } := by
    have hen : s1.Enabled oneGibConfig (.land 0) := Nat.zero_lt_one
    rw [step, if_pos hen]
    rfl
  refine ⟨{ s1 with disk := w.apply oneGib.disk, underWay := [] }, ?_, ?_, rfl⟩
  · exact Lts.run_cons_some.mpr ⟨s1, h1, Lts.run_cons_some.mpr ⟨_, h2, rfl⟩⟩
  · rfl

/-! ### Every difference is marked -/

/-- Byte `y` of the target differs from the source's, or a write to it is under way. -/
def Behind (s : Session) (y : Nat) : Prop :=
  s.target y ≠ s.disk y ∨ ∃ w ∈ s.underWay, w.Covers y

/-- The bit of the grain of byte `y` is set in one of the halves; while the server clears a half, in
the one that the kernel writes. -/
def Marked (cfg : Config) (gib : Nat) (d : SrcDisk) (s : Session) (y : Nat) : Prop :=
  ∃ h, s.server.halfBit d h (grainOf gib y) = true ∧
    ((s.server.phase cfg.pid).Clearing → h = (s.server.view cfg.pid d).active)

theorem mark_of_behind {A : Set Nat} {y : Nat} (hy : y < gib * 2 ^ 30)
    (hf : Fresh (grainOf gib) s.source A (diskBytes gib) s.target) (hb : s.Behind y) :
    grainOf gib y ∈ A := by
  refine (hf y hy).resolve_left ?_
  rintro ⟨heq, hfree⟩
  exact hb.elim (fun hne => hne heq) hfree

theorem Data.marked (h : Data cfg gib d s) {y : Nat} (hy : y < gib * 2 ^ 30) (hb : s.Behind y) :
    s.Marked cfg gib d y := by
  by_cases hcl : (s.server.phase cfg.pid).Clearing
  · have hclean := h.stage.resolve_right fun hs => hs.2.1 hcl
    exact ⟨_, view_dirty (mark_of_behind hy hclean hb), fun _ => rfl⟩
  · rcases mark_of_behind hy h.recorded hb with hmark | hmark
    · exact ⟨_, view_dirty hmark, fun hcl' => absurd hcl' hcl⟩
    · exact ⟨_, view_dirty hmark, fun hcl' => absurd hcl' hcl⟩

/-- **Every difference is marked.** In a regular run on a disk of `gib` GiB, a byte of the target that
differs from the source's, or to which a write is under way, has the bit of its grain set in one of
the two halves, and never only in the half that the server is clearing. -/
theorem differences_marked (hsz : ScriptSizes cfg gib d) {s0 : Session}
    {es : List SessionEvent} (h0 : Start cfg gib d s0)
    (hm : Meets (step cfg) (Regular cfg gib d) s0 es) (hr : run (step cfg) s0 es = some s)
    {y : Nat} (hy : y < gib * 2 ^ 30) (hb : s.Behind y) : s.Marked cfg gib d y :=
  (inv_run hsz h0 hm hr).2.marked hy hb

theorem differences_marked_first :
    ∃ s, run (step oneGibConfig) oneGib firstSector = some s ∧ s.Behind 0 ∧
      s.Marked oneGibConfig 1 ⟨16384, 0⟩ 0 := by
  obtain ⟨s, hs, hdisk, htarget⟩ := run_firstSector
  have hb : s.Behind 0 := by
    refine Or.inl ?_
    rw [hdisk, htarget]
    decide
  have hm : Meets (step oneGibConfig) (Regular oneGibConfig 1 ⟨16384, 0⟩) oneGib firstSector := by
    refine meets_iff_forall.mpr fun fs e t hfs hr => ?_
    refine ⟨meets_iff_forall.mp steady_firstSector fs e t hfs hr, ?_⟩
    rintro r m rfl
    have hmem : SessionEvent.getData r m ∈ firstSector := hfs.mem (by simp)
    simp [firstSector] at hmem
  exact ⟨s, hs, hb, differences_marked sizes_oneGib start_oneGib hm hs (by decide) hb⟩

/-! ### Reading the disk itself -/

/-- The writes under way are marked in the half that the kernel writes. -/
def UnderWayMarked (cfg : Config) (gib : Nat) (d : SrcDisk) (s : Session) : Prop :=
  ∀ w ∈ s.underWay, ∀ y < gib * 2 ^ 30, w.Covers y → grainOf gib y ∈ s.active cfg d

theorem underWayMarked_step (hsz : ScriptSizes cfg gib d) (hc : Control cfg gib d s)
    (hok : Direct cfg gib d s e) (h : Stepped cfg s e s') (hu : UnderWayMarked cfg gib d s) :
    UnderWayMarked cfg gib d s' := by
  rcases keeps_or_flips hc hok.toSteady h with hkeeps | hflips
  · have hold : ∀ w ∈ s.underWay, ∀ y < gib * 2 ^ 30, w.Covers y →
        grainOf gib y ∈ s'.active cfg d := fun w hw y hy hcov => hkeeps.more (hu w hw y hy hcov)
    have hunder := h.underWay
    intro w hw y hy hcov
    rw [hunder] at hw
    cases e with
    | write bio data =>
      rw [nextUnderWay] at hw
      split at hw
      · rename_i hwrite
        rcases List.mem_append.mp hw with hw | hw
        · exact hold w hw y hy hcov
        · rw [List.mem_singleton] at hw
          subst hw
          exact write_marks hsz.pos hsz.fit hc.rounds hc.script (h.server _ rfl)
            (hok.inside hwrite) hcov.1 hcov.2
      · exact hold w hw y hy hcov
    | land n => exact hold w (List.mem_of_mem_eraseIdx hw) y hy hcov
    | _ => exact hold w hw y hy hcov
  · obtain ⟨g, k, hp, hk⟩ := hflips.copied
    have hempty := hok.flip hflips.event g k hp hk
    have hunder := h.underWay
    obtain rfl := hflips.event
    intro w hw
    rw [hunder] at hw
    have hold : w ∈ s.underWay := hw
    rw [hempty] at hold
    cases hold

/-- Reads of the disk itself are settled. -/
theorem settled_of_direct {m : Mem} (hu : UnderWayMarked cfg gib d s) (h : s.ReadsDisk cfg m) :
    s.Settled cfg gib d m := by
  refine fresh_of_eq ?_ ?_
  · rintro y ⟨-, off, hoff, h1, h2⟩
    have hval := h off hoff (y - off) (by omega)
    have hy : off + (y - off) = y := by omega
    rw [hy] at hval
    show m (y - (chunkOffset _).getD 0) = s.disk y
    rw [hoff, Option.getD_some]
    exact hval
  · rintro y ⟨hy, -⟩ ⟨w, hw, hcov⟩
    exact hu w hw y hy hcov

/-- What holds in the runs that read the disk itself. -/
structure DirectInv (cfg : Config) (gib : Nat) (d : SrcDisk) (s : Session) : Prop where
  control : Control cfg gib d s
  data : Data cfg gib d s
  underWay : UnderWayMarked cfg gib d s

theorem Start.direct (h : Start cfg gib d s) : DirectInv cfg gib d s := by
  refine ⟨h.control, h.data, fun w hw => ?_⟩
  rw [h.underWay] at hw
  cases hw

/-- **Step lemma.** -/
theorem direct_step (hsz : ScriptSizes cfg gib d) (hi : DirectInv cfg gib d s)
    (hok : Direct cfg gib d s e) (h : s.step cfg e = some s') : DirectInv cfg gib d s' where
  control := control_step hsz.loops hi.control hok.toSteady (stepped h)
  data := data_step hsz hi.control hi.data hok.toSteady
    (fun r m he => settled_of_direct hi.underWay (hok.read r m he).1) (stepped h)
  underWay := underWayMarked_step hsz hi.control hok (stepped h) hi.underWay

theorem direct_run (hsz : ScriptSizes cfg gib d) {s0 : Session} {es : List SessionEvent}
    (h0 : DirectInv cfg gib d s0) (hm : Meets (step cfg) (Direct cfg gib d) s0 es)
    (hr : run (step cfg) s0 es = some s) : DirectInv cfg gib d s :=
  Lts.run_inv (I := DirectInv cfg gib d) (fun _ _ _ hi hok hs => direct_step hsz hi hok hs) h0 hm hr

/-- **The run script's session.** When the source is the disk itself and no write is under way when
the halves are exchanged, every difference is marked. -/
theorem direct_differences_marked (hsz : ScriptSizes cfg gib d) {s0 : Session}
    {es : List SessionEvent} (h0 : Start cfg gib d s0)
    (hm : Meets (step cfg) (Direct cfg gib d) s0 es) (hr : run (step cfg) s0 es = some s)
    {y : Nat} (hy : y < gib * 2 ^ 30) (hb : s.Behind y) : s.Marked cfg gib d y :=
  (direct_run hsz h0.direct hm hr).data.marked hy hb

theorem direct_firstSector :
    Meets (step oneGibConfig) (Direct oneGibConfig 1 ⟨16384, 0⟩) oneGib firstSector := by
  refine meets_iff_forall.mpr fun fs e t hfs hr => ?_
  refine ⟨meets_iff_forall.mp steady_firstSector fs e t hfs hr, ?_, ?_⟩
  · rintro r m rfl
    have hmem : SessionEvent.getData r m ∈ firstSector := hfs.mem (by simp)
    simp [firstSector] at hmem
  · rintro rfl
    have hmem : SessionEvent.server (.run 0) ∈ firstSector := hfs.mem (by simp [oneGibConfig])
    simp [firstSector] at hmem

theorem direct_differences_marked_first :
    ∃ s, run (step oneGibConfig) oneGib firstSector = some s ∧ s.Behind 0 ∧
      s.Marked oneGibConfig 1 ⟨16384, 0⟩ 0 := by
  obtain ⟨s, hs, hdisk, htarget⟩ := run_firstSector
  have hb : s.Behind 0 := by
    refine Or.inl ?_
    rw [hdisk, htarget]
    decide
  exact ⟨s, hs, hb, direct_differences_marked sizes_oneGib start_oneGib direct_firstSector hs
    (by decide) hb⟩

end Session

end Ebdr
