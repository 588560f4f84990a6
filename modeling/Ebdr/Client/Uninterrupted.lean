import Ebdr.Client.Resync
import Ebdr.Lib.Lts

/-!
# A resync that is not interrupted

A thread whose I/O calls all succeed, over a bitmap that stays, with nobody pausing: `Going` is what
it needs of the client, every step keeps it (`going_step`), and `rank` is how many steps are left at
most, so the thread comes to the send of its termination (`exists_termination`).
-/

namespace Ebdr

open ByteMem CInt Lts

namespace Client

/-- A thread that is not cancelled, over the received bitmap `m`, with everything in place. -/
structure Going (g : Geometry) (tid : Nat) (m : Mem) (s : Client) : Prop where
  thread : ∃ ph, s.thread tid = some ⟨ph, false⟩
  slot : s.resyncTid = tid
  area : s.bitmapArea = .allocated m
  received : s.history.received = m
  partner : s.partnerState ≠ .pause
  io : s.ioState ≠ .released
  socket : s.socketUp = true
  rep : s.repState ≠ .completed
  still : s.awaiting = false
  chunk : g.chunkSize ≠ 0

/-- The phases of such a thread before its termination is sent. -/
def InLoop (g : Geometry) : ResyncPhase → Prop
  | .send _ c | .recv _ c | .write _ c => c < g.loopBound
  | .connLost | .sendTermination | .release => False
  | _ => True

/-- A bound for the steps of the positions from `pos` on. -/
def stepsFrom (g : Geometry) (pos : Nat) : Nat :=
  (bitmapSizeMax * 8 - pos) * (4 * g.loopBound + 3)

/-- A bound for the steps that are left. -/
def rank (g : Geometry) : ResyncPhase → Nat
  | .created => stepsFrom g 0 + 5
  | .test pos => stepsFrom g pos + 4
  | .chunk pos c => stepsFrom g (pos + 1) + 6 + 4 * (g.loopBound - c)
  | .send pos c => stepsFrom g (pos + 1) + 5 + 4 * (g.loopBound - c)
  | .recv pos c => stepsFrom g (pos + 1) + 4 + 4 * (g.loopBound - c)
  | .write pos c => stepsFrom g (pos + 1) + 3 + 4 * (g.loopBound - c)
  | .record pos => stepsFrom g (pos + 1) + 5
  | .loopEnd => 3
  | .terminate => 2
  | .resetBit => 1
  | .connLost | .sendTermination | .release => 0

variable {g : Geometry} {tid : Nat} {m : Mem}

theorem stepsFrom_le (g : Geometry) (pos : Nat) : stepsFrom g pos ≤ stepsFrom g 0 :=
  Nat.mul_le_mul_right _ (Nat.sub_le_sub_left (Nat.zero_le pos) _)

theorem stepsFrom_succ {pos : Nat} (h : pos < bitmapSizeMax * 8) :
    stepsFrom g pos = stepsFrom g (pos + 1) + (4 * g.loopBound + 3) := by
  have hsucc : bitmapSizeMax * 8 - pos = bitmapSizeMax * 8 - (pos + 1) + 1 := by omega
  rw [stepsFrom, hsucc, Nat.succ_mul, stepsFrom]

/-- The fields that `Going` is about. -/
def scene (s : Client) :=
  (s.thread, s.resyncTid, s.bitmapArea, s.history.received, s.partnerState, s.ioState, s.socketUp,
    s.repState, s.awaiting)

theorem Going.congr {s s1 : Client} (h : Going g tid m s) (hs : s1.scene = s.scene) :
    Going g tid m s1 := by
  simp only [scene, Prod.mk.injEq] at hs
  obtain ⟨hthread, hslot, harea, hreceived, hpartner, hio, hsocket, hrep, hstill⟩ := hs
  refine ⟨?_, hslot.trans h.slot, harea.trans h.area, hreceived.trans h.received, ?_, ?_,
    hsocket.trans h.socket, ?_, hstill.trans h.still, h.chunk⟩
  · rw [hthread]
    exact h.thread
  · rw [hpartner]
    exact h.partner
  · rw [hio]
    exact h.io
  · rw [hrep]
    exact h.rep

theorem Going.setPhase {s : Client} (h : Going g tid m s) (ph : ResyncPhase) :
    Going g tid m (s.setPhase tid ph) ∧
      (s.setPhase tid ph).thread tid = some ⟨ph, false⟩ := by
  obtain ⟨ph0, hth⟩ := h.thread
  have hthread : (s.setPhase tid ph).thread tid = some ⟨ph, false⟩ := by
    simp [Client.setPhase, hth]
  exact ⟨⟨⟨ph, hthread⟩, h.slot, h.area, h.received, h.partner, h.io, h.socket, h.rep, h.still,
    h.chunk⟩, hthread⟩

/-- What a step leads to. -/
def Steps (g : Geometry) (tid : Nat) (m : Mem) (s : Client) (ph : ResyncPhase) : Prop :=
  ∃ s' ph', s.runThread g tid true = some s' ∧ Going g tid m s' ∧
    s'.thread tid = some ⟨ph', false⟩ ∧ (InLoop g ph' ∨ ph' = .sendTermination) ∧
      rank g ph' < rank g ph

theorem steps_of {s s1 : Client} {ph ph' : ResyncPhase}
    (hrun : s.runThread g tid true = some (s1.setPhase tid ph')) (h : Going g tid m s1)
    (hin : InLoop g ph' ∨ ph' = .sendTermination) (hlt : rank g ph' < rank g ph) :
    Steps g tid m s ph :=
  ⟨_, ph', hrun, (h.setPhase ph').1, (h.setPhase ph').2, hin, hlt⟩

/-- **Step lemma.** -/
theorem going_step {s : Client} {ph : ResyncPhase} (h : Going g tid m s)
    (hth : s.thread tid = some ⟨ph, false⟩) (hin : InLoop g ph) : Steps g tid m s ph := by
  cases ph with
  | created =>
    have hrank : rank g (.test s.bitPos) < rank g .created := by
      have hle := stepsFrom_le g s.bitPos
      rw [rank, rank]
      omega
    have hrun : s.runThread g tid true = s.start g tid := by rw [runThread, hth]; rfl
    rw [start, if_neg h.chunk] at hrun
    dsimp only at hrun
    split at hrun
    · exact steps_of hrun (h.congr rfl) (Or.inl trivial) hrank
    · split at hrun
      · exact steps_of hrun ⟨h.thread, h.slot, h.area, h.received, h.partner, h.io, h.socket,
          by simp, h.still, h.chunk⟩ (Or.inl trivial) hrank
      · exact steps_of hrun (h.congr rfl) (Or.inl trivial) hrank
  | test pos =>
    have hrun : s.runThread g tid true = s.testPos tid pos := by rw [runThread, hth]; rfl
    rw [testPos, h.area] at hrun
    by_cases hpos : pos < bitmapSizeMax * 8
    · rw [if_pos ⟨hpos, h.partner⟩] at hrun
      dsimp only at hrun
      rw [isBitSet_of_lt hpos, Option.map_some] at hrun
      have hpass := stepsFrom_succ (g := g) hpos
      cases hb : bit m pos with
      | true =>
        rw [hb, if_pos rfl] at hrun
        refine steps_of hrun h (Or.inl trivial) ?_
        rw [rank, rank]
        omega
      | false =>
        rw [hb, if_neg (by decide)] at hrun
        refine steps_of hrun h (Or.inl trivial) ?_
        rw [rank, rank]
        omega
    · rw [if_neg fun hc => hpos hc.1] at hrun
      refine steps_of hrun h (Or.inl trivial) ?_
      rw [rank, rank]
      omega
  | chunk pos c =>
    have hrun : s.runThread g tid true = some (s.nextChunk g tid pos c) := by
      rw [runThread, hth]
      rfl
    by_cases hc : c < g.loopBound
    · rw [nextChunk, if_pos hc] at hrun
      dsimp only at hrun
      rw [if_neg h.partner, if_neg h.io] at hrun
      refine steps_of hrun (h.congr rfl) (Or.inl hc) ?_
      rw [rank, rank]
      omega
    · rw [nextChunk, if_neg hc] at hrun
      refine steps_of hrun h (Or.inl trivial) ?_
      rw [rank, rank]
      omega
  | send pos c =>
    have hrun : s.runThread g tid true = s.transfer tid true (.recv pos c) := by
      rw [runThread, hth]
      rfl
    rw [transfer, if_pos rfl, if_pos h.socket] at hrun
    refine steps_of hrun h (Or.inl hin) ?_
    rw [rank, rank]
    omega
  | recv pos c =>
    have hrun : s.runThread g tid true = s.transfer tid true (.write pos c) := by
      rw [runThread, hth]
      rfl
    rw [transfer, if_pos rfl, if_pos h.socket] at hrun
    refine steps_of hrun h (Or.inl hin) ?_
    rw [rank, rank]
    omega
  | write pos c =>
    have hrun : s.runThread g tid true = some (s.writeChunk g tid pos c true) := by
      rw [runThread, hth]
      rfl
    have hc : c < g.loopBound := hin
    rw [writeChunk, if_pos rfl] at hrun
    refine steps_of hrun (h.congr rfl) (Or.inl trivial) ?_
    rw [rank, rank]
    omega
  | connLost => exact hin.elim
  | record pos =>
    have hrun : s.runThread g tid true = some ({ s with
        lastResyncedBit := pos
        history := { s.history with recorded := true } }.setPhase tid (.test (pos + 1))) := by
      rw [runThread, hth]
      rfl
    refine steps_of hrun (h.congr rfl) (Or.inl trivial) ?_
    rw [rank, rank]
    omega
  | loopEnd =>
    have hrun : s.runThread g tid true =
        some ((if s.partnerState = .pause then s.cancel else s).setPhase tid .terminate) := by
      rw [runThread, hth]
      rfl
    rw [if_neg h.partner] at hrun
    exact steps_of hrun h (Or.inl trivial) (by show 2 < 3; decide)
  | terminate =>
    have hrun : s.runThread g tid true =
        some ({ s with header := { s.header with opcode := .rplcTermination } }.setPhase tid
          .resetBit) := by
      rw [runThread, hth, Option.bind_some]
      exact if_pos h.rep
    exact steps_of hrun (h.congr rfl) (Or.inl trivial) (by show 1 < 2; decide)
  | resetBit =>
    obtain ⟨last, hrun⟩ : ∃ last, s.runThread g tid true =
        some ({ s with lastResyncedBit := last }.setPhase tid .sendTermination) := by
      rw [runThread, hth]
      exact ⟨_, rfl⟩
    exact steps_of hrun (h.congr rfl) (Or.inr rfl) (by show 0 < 1; decide)
  | sendTermination => exact hin.elim
  | release => exact hin.elim

/-- **Termination.** The thread comes to the send of its termination, and up to there everything
stays in place. -/
theorem exists_termination {s : Client} {ph : ResyncPhase} (h : Going g tid m s)
    (hth : s.thread tid = some ⟨ph, false⟩) (hin : InLoop g ph ∨ ph = .sendTermination) :
    ∃ n s', run (step g) s (List.replicate n (.run tid true)) = some s' ∧
      Meets (step g) (fun t e => Going g tid m t ∧ e = .run tid true) s
        (List.replicate n (.run tid true)) ∧
        Going g tid m s' ∧ s'.thread tid = some ⟨.sendTermination, false⟩ := by
  induction hn : rank g ph using Nat.strong_induction_on generalizing s ph with
  | _ n ih =>
    rcases hin with hin | rfl
    · obtain ⟨s1, ph1, hrun, h1, hth1, hin1, hlt⟩ := going_step h hth hin
      obtain ⟨n', s', hr, hm, hend⟩ := ih _ (hn ▸ hlt) h1 hth1 hin1 rfl
      have hstep : step g s (.run tid true) = some s1 := hrun
      refine ⟨n' + 1, s', ?_, ?_, hend⟩
      · rw [List.replicate_succ, run_cons, hstep, Option.bind_some, hr]
      · rw [List.replicate_succ, meets_cons]
        refine ⟨⟨h, rfl⟩, fun t ht => ?_⟩
        cases hstep.symm.trans ht
        exact hm
    · exact ⟨0, s, rfl, trivial, h, hth⟩

/-! ### Clear bits -/

/-- A thread over a bitmap that is clear from `lo` on, which it entered at `lo` or later: nothing is
written since `written`. -/
structure Skips (tid lo : Nat) (h : History) (s : Client) : Prop where
  clear : ∀ b, lo ≤ b → bit h.received b = false
  received : s.history.received = h.received
  written : s.history.written = h.written
  phase : ∀ th, s.thread tid = some th →
    match th.phase with
    | .created => lo ≤ s.bitPos
    | .test pos | .record pos => lo ≤ pos
    | .chunk _ _ | .send _ _ | .recv _ _ | .write _ _ => False
    | _ => True

theorem Skips.advance {lo : Nat} {h : History} {s s1 : Client} {th : ResyncThread}
    {ph : ResyncPhase} (hs : Skips tid lo h s) (hth : s1.thread tid = some th)
    (hrec : s1.history.received = s.history.received)
    (hwr : s1.history.written = s.history.written)
    (hph : match ph with
      | .created => lo ≤ s1.bitPos
      | .test pos | .record pos => lo ≤ pos
      | .chunk _ _ | .send _ _ | .recv _ _ | .write _ _ => False
      | _ => True) : Skips tid lo h (s1.setPhase tid ph) := by
  refine ⟨hs.clear, hrec.trans hs.received, hwr.trans hs.written, ?_⟩
  intro th' hth'
  have hthread : (s1.setPhase tid ph).thread tid = some { th with phase := ph } := by
    simp [setPhase, hth]
  cases hthread.symm.trans hth'
  exact hph

theorem Skips.finish {lo : Nat} {h : History} {s s1 : Client} (hs : Skips tid lo h s)
    (hhist : s1.history = s.history) : Skips tid lo h (s1.endThread tid) := by
  refine ⟨hs.clear, ?_, ?_, fun th hth => ?_⟩
  · exact (congrArg History.received hhist).trans hs.received
  · exact (congrArg History.written hhist).trans hs.written
  · simp [endThread] at hth

/-- **Step lemma.** -/
theorem skips_step {lo : Nat} {h : History} {s s' : Client} (hg : Going g tid m s)
    (hm : m = h.received) (hs : Skips tid lo h s) (hr : s.runThread g tid true = some s') :
    Skips tid lo h s' := by
  obtain ⟨ph, hth⟩ := hg.thread
  have hph := hs.phase _ hth
  cases threadStep_of_run hth hr with
  | start => exact hs.advance hth rfl rfl hph
  | @look pos hpos hrun m' harea =>
    have hclear : bit m' pos = false := by
      rw [← BitmapArea.allocated.inj (hg.area.symm.trans harea), hm, hs.clear pos hph]
    rw [hclear]
    exact hs.advance hth rfl rfl hph
  | leave => exact hs.advance hth rfl rfl trivial
  | chunk | chunkPaused | chunkReleased | chunkEnd | sent | received | sendLost | recvLost
  | written | writeFailed => exact hph.elim
  | record => exact hs.advance hth rfl rfl (Nat.le_succ_of_le hph)
  | loopPaused hpause => exact absurd hpause hg.partner
  | loopEnd | terminate | resetBit | sendTermination => exact hs.advance hth rfl rfl trivial
  | connLost | completed | release => exact hs.finish rfl

end Client

end Ebdr
