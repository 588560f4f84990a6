import Ebdr.Client.Uninterrupted

/-!
# A resync that reports completion

`termination_after_copy`: with one resync thread at a time, when a thread sends `RPLC_TERMINATION`
every bit of the bitmap received last has all its chunks written since then, if the geometry does
not truncate `total_iterations` and in the run

* a thread that starts at a `last_resynced_bit` from before the bitmap was received finds no set bit
  below it (`ResumesFresh`),
* a bitmap that arrives while a thread is running has no set bit that the thread has passed
  (`ReceivesAhead`),
* while the area is cleared for the next bitmap, the running thread tests no bit of the one received
  last (`TestsReceived`).

The program makes none of these true: a `metadata` request keeps `last_resynced_bit`
(`paused_then_metadata`).
-/

namespace Ebdr

open ByteMem CInt Lts

namespace Client

/-! ### The conditions -/

/-- A thread makes no step after it was cancelled. -/
def CancelEnds (s : Client) : Event → Prop
  | .run tid _ => ∀ th ∈ s.thread tid, th.cancelled = false
  | _ => True

/-- A thread that starts at an old position skips no set bit. -/
def ResumesFresh (s : Client) (e : Event) : Prop :=
  s.history.recorded = false →
    ∀ pos ∈ s.launches e, ∀ b < pos, bit s.history.received b = false

/-- The thread goes on without copying all of bit `b` again. -/
def Passed (s : Client) (th : ResyncThread) (b : Nat) : Prop :=
  th.cancelled = false ∧
    match th.phase with
    | .created => s.partnerState ≠ .pause ∧ b < s.bitPos
    | .test pos => s.partnerState ≠ .pause ∧ b < pos
    | .chunk pos chunkId | .send pos chunkId | .recv pos chunkId | .write pos chunkId =>
      b < pos ∨ (b = pos ∧ 0 < chunkId ∧ s.partnerState ≠ .pause)
    | .record pos => b < pos ∨ (b = pos ∧ s.partnerState ≠ .pause)
    | .loopEnd => s.partnerState ≠ .pause
    | .terminate | .resetBit | .sendTermination => True
    | .connLost | .release => False

/-- A bitmap that arrives has no set bit that a running thread has passed. -/
def ReceivesAhead (s : Client) : Event → Prop
  | .bitmap m =>
    ∀ t < s.nextTid, ∀ th ∈ s.thread t, ∀ b < bitmapSizeMax * 8, s.Passed th b → bit m b = false
  | _ => True

/-- The position whose bit the thread tests next. -/
def testedPos (s : Client) (tid : Nat) : Option Nat :=
  (s.thread tid).bind fun th =>
    match th.phase with
    | .test pos => some pos
    | _ => none

/-- While the control thread waits for a bitmap, a thread tests no bit of the one received last. -/
def TestsReceived (s : Client) : Event → Prop
  | .run tid _ =>
    s.awaiting = true → ∀ pos ∈ s.testedPos tid, bit s.history.received pos = false
  | _ => True

instance (s : Client) (e : Event) : Decidable (CancelEnds s e) := by
  unfold CancelEnds
  split <;> infer_instance

instance (s : Client) (e : Event) : Decidable (ResumesFresh s e) := by
  unfold ResumesFresh
  infer_instance

instance (s : Client) (th : ResyncThread) (b : Nat) : Decidable (s.Passed th b) := by
  unfold Passed
  refine @instDecidableAnd _ _ inferInstance ?_
  split <;> infer_instance

instance (s : Client) (e : Event) : Decidable (ReceivesAhead s e) := by
  unfold ReceivesAhead
  split <;> infer_instance

instance (s : Client) (e : Event) : Decidable (TestsReceived s e) := by
  unfold TestsReceived
  split <;> infer_instance

/-! ### The invariant -/

/-- If bit `b` of the received bitmap is set, its first `n` chunks have been written. -/
def Written (g : Geometry) (h : History) (b n : Nat) : Prop :=
  b < bitmapSizeMax * 8 → bit h.received b = true → ∀ c < n, g.startLba b c ∈ h.written

/-- Every set bit below `pos` has all its chunks written. -/
def CopiedBelow (g : Geometry) (h : History) (pos : Nat) : Prop :=
  ∀ b < pos, Written g h b (g.grainSize / g.chunkSize)

/-- What a thread knows in each phase. A paused thread ends without a termination, so what it left
out is of no account, except below the position it records. -/
def PhaseOk (g : Geometry) (s : Client) : ResyncPhase → Prop
  | .created => s.partnerState = .pause ∨ CopiedBelow g s.history s.bitPos
  | .test pos => s.partnerState = .pause ∨ CopiedBelow g s.history pos
  | .chunk pos chunkId | .send pos chunkId | .recv pos chunkId | .write pos chunkId =>
    CopiedBelow g s.history pos ∧ (s.partnerState = .pause ∨ Written g s.history pos chunkId)
  | .record pos =>
    CopiedBelow g s.history pos ∧
      (s.partnerState = .pause ∨ Written g s.history pos (g.grainSize / g.chunkSize))
  | .loopEnd => s.partnerState = .pause ∨ CopiedBelow g s.history (bitmapSizeMax * 8)
  | .terminate | .resetBit | .sendTermination => CopiedBelow g s.history (bitmapSizeMax * 8)
  | .connLost | .release => True

/-- Outside a metadata request the area holds the bitmap received last. -/
def AreaOk (s : Client) : Prop :=
  s.awaiting = false → ∀ m, s.bitmapArea = .allocated m → m = s.history.received

/-- The invariant of the runs with one resync thread at a time. -/
structure Inv (g : Geometry) (s : Client) : Prop where
  area : AreaOk s
  last : s.history.recorded = true → CopiedBelow g s.history s.lastResyncedBit
  phase : ∀ th, s.thread s.resyncTid = some th → th.cancelled = false → PhaseOk g s th.phase

variable {g : Geometry}

theorem inv_boot : Inv g boot where
  area := by
    intro _ m h
    cases h
  last := by
    intro h
    cases h
  phase := by
    intro th h
    cases h

/-! ### Histories -/

theorem copiedBelow_zero (h : History) : CopiedBelow g h 0 :=
  fun b hb => absurd hb (Nat.not_lt_zero b)

theorem written_of_clear {h : History} {b : Nat} (hb : bit h.received b = false) (n : Nat) :
    Written g h b n := by
  intro _ hset
  rw [hb] at hset
  cases hset

theorem Written.mono {h : History} {b n k : Nat} (hw : Written g h b n) (hk : k ≤ n) :
    Written g h b k := fun hlt hset c hc => hw hlt hset c (by omega)

theorem CopiedBelow.succ {h : History} {pos : Nat} (hc : CopiedBelow g h pos)
    (hw : Written g h pos (g.grainSize / g.chunkSize)) : CopiedBelow g h (pos + 1) := by
  intro b hb
  rcases Nat.lt_succ_iff_lt_or_eq.mp hb with hlt | rfl
  · exact hc b hlt
  · exact hw

/-- A later history of the same bitmap. -/
structure HistoryLe (h h' : History) : Prop where
  received : h'.received = h.received
  written : ∀ lba ∈ h.written, lba ∈ h'.written

theorem Written.later {h h' : History} {b n : Nat} (hw : Written g h b n) (hle : HistoryLe h h') :
    Written g h' b n := by
  intro hlt hset c hc
  rw [hle.received] at hset
  exact hle.written _ (hw hlt hset c hc)

theorem CopiedBelow.later {h h' : History} {pos : Nat} (hc : CopiedBelow g h pos)
    (hle : HistoryLe h h') : CopiedBelow g h' pos := fun b hb => (hc b hb).later hle

theorem Written.snoc {h : History} {pos c : Nat} (hw : Written g h pos c) :
    Written g { h with written := g.startLba pos c :: h.written } pos (c + 1) := by
  intro hb hset c' hc'
  rcases Nat.lt_succ_iff_lt_or_eq.mp hc' with hlt | rfl
  · exact List.mem_cons_of_mem _ (hw hb hset c' hlt)
  · exact List.mem_cons_self

theorem PhaseOk.later {s s' : Client} {ph : ResyncPhase} (h : PhaseOk g s ph)
    (hpause : s.partnerState = .pause → s'.partnerState = .pause) (hpos : s'.bitPos = s.bitPos)
    (hle : HistoryLe s.history s'.history) : PhaseOk g s' ph := by
  cases ph with
  | created =>
    rw [PhaseOk, hpos]
    exact h.imp hpause fun hc => hc.later hle
  | test pos => exact h.imp hpause fun hc => hc.later hle
  | chunk pos c | send pos c | recv pos c | write pos c | record pos =>
    exact ⟨h.1.later hle, h.2.imp hpause fun hw => hw.later hle⟩
  | loopEnd => exact h.imp hpause fun hc => hc.later hle
  | terminate | resetBit | sendTermination => exact CopiedBelow.later h hle
  | connLost | release => trivial

theorem copiedBelow_of_clear {h : History} {pos : Nat}
    (hc : ∀ b < bitmapSizeMax * 8, b < pos → bit h.received b = false) : CopiedBelow g h pos := by
  intro b hb hlt
  exact written_of_clear (hc b hlt hb) _ hlt

theorem written_of_ahead {h : History} {b n : Nat}
    (hc : b < bitmapSizeMax * 8 → bit h.received b = false) : Written g h b n := by
  intro hlt
  exact written_of_clear (hc hlt) _ hlt

theorem PhaseOk.receive {s s' : Client} {th : ResyncThread}
    (hpart : s'.partnerState = s.partnerState) (hpos : s'.bitPos = s.bitPos)
    (hlive : th.cancelled = false)
    (hahead : ∀ b < bitmapSizeMax * 8, s.Passed th b → bit s'.history.received b = false) :
    PhaseOk g s' th.phase := by
  obtain ⟨ph, c⟩ := th
  have hpassed := fun b hb hp => hahead b hb ⟨hlive, hp⟩
  dsimp only at hpassed ⊢
  by_cases hpause : s.partnerState = .pause
  · cases ph with
    | created | test pos | loopEnd => exact Or.inl (hpart.trans hpause)
    | chunk pos c | send pos c | recv pos c | write pos c | record pos =>
      refine ⟨copiedBelow_of_clear fun b hb hlt => hpassed b hb (Or.inl hlt), Or.inl ?_⟩
      exact hpart.trans hpause
    | terminate | resetBit | sendTermination =>
      exact copiedBelow_of_clear fun b hb _ => hpassed b hb trivial
    | connLost | release => trivial
  · cases ph with
    | created =>
      rw [PhaseOk, hpos]
      exact Or.inr (copiedBelow_of_clear fun b hb hlt => hpassed b hb ⟨hpause, hlt⟩)
    | test pos => exact Or.inr (copiedBelow_of_clear fun b hb hlt => hpassed b hb ⟨hpause, hlt⟩)
    | chunk pos c | send pos c | recv pos c | write pos c =>
      refine ⟨copiedBelow_of_clear fun b hb hlt => hpassed b hb (Or.inl hlt), Or.inr ?_⟩
      rcases Nat.eq_zero_or_pos c with rfl | hc
      · exact fun _ _ c' hc' => absurd hc' (Nat.not_lt_zero c')
      · exact written_of_ahead fun hb => hpassed pos hb (Or.inr ⟨rfl, hc, hpause⟩)
    | record pos =>
      refine ⟨copiedBelow_of_clear fun b hb hlt => hpassed b hb (Or.inl hlt), Or.inr ?_⟩
      exact written_of_ahead fun hb => hpassed pos hb (Or.inr ⟨rfl, hpause⟩)
    | loopEnd => exact Or.inr (copiedBelow_of_clear fun b hb _ => hpassed b hb hpause)
    | terminate | resetBit | sendTermination =>
      exact copiedBelow_of_clear fun b hb _ => hpassed b hb trivial
    | connLost | release => trivial

/-! ### The thread that is running -/

theorem Inv.phaseOk {s : Client} (hi : Inv g s) (hs : Single s) {tid : Nat} {th : ResyncThread}
    {ph : ResyncPhase} (hth : s.thread tid = some th) (hp : th.phase = ph)
    (hlive : th.cancelled = false) : PhaseOk g s ph := by
  rw [← hp]
  exact hi.phase th (hs.eq_slot hth ▸ hth) hlive

theorem Inv.update {s s' : Client} {tid : Nat} {th : ResyncThread} {o : Option ResyncThread}
    (hs : Single s) (hth : s.thread tid = some th)
    (hthread : s'.thread = Function.update s.thread tid o) (hslot : s'.resyncTid = s.resyncTid)
    (harea : AreaOk s')
    (hlast : s'.history.recorded = true → CopiedBelow g s'.history s'.lastResyncedBit)
    (hph : ∀ th', o = some th' → th'.cancelled = false → PhaseOk g s' th'.phase) : Inv g s' := by
  obtain rfl := hs.eq_slot hth
  refine ⟨harea, hlast, ?_⟩
  intro th' hth'
  rw [hslot, hthread, Function.update_self] at hth'
  exact hph th' hth'

theorem Inv.advance {s s1 : Client} {tid : Nat} {th : ResyncThread} {ph : ResyncPhase}
    (hs : Single s) (hth : s.thread tid = some th) (hsame : SameSlot s s1)
    (harea : AreaOk s1)
    (hlast : s1.history.recorded = true → CopiedBelow g s1.history s1.lastResyncedBit)
    (hph : th.cancelled = false → PhaseOk g s1 ph) : Inv g (s1.setPhase tid ph) := by
  refine Inv.update hs (o := some ⟨ph, th.cancelled⟩) hth ?_ hsame.slot harea hlast ?_
  · change Function.update s1.thread tid _ = _
    rw [hsame.thread, hth, Option.map_some]
  · intro th' ho hlive
    cases ho
    exact (hph hlive).later (fun h => h) rfl ⟨rfl, fun _ h => h⟩

theorem Inv.halt {s s1 : Client} {tid : Nat} {th : ResyncThread} {ph : ResyncPhase}
    (hs : Single s) (hth : s.thread tid = some th) (hsame : SameSlot s s1)
    (harea : AreaOk s1)
    (hlast : s1.history.recorded = true → CopiedBelow g s1.history s1.lastResyncedBit) :
    Inv g (s1.cancel.setPhase tid ph) := by
  obtain rfl := hs.eq_slot hth
  refine Inv.update hs (o := some ⟨ph, true⟩) hth ?_ hsame.slot harea hlast ?_
  · change Function.update (Function.update s1.thread s1.resyncTid _) s.resyncTid _ = _
    rw [hsame.slot, hsame.thread, hth, Option.map_some, Function.update_idem]
    simp [cancel, hsame.slot, hsame.thread, hth]
  · intro th' ho hlive
    cases ho
    cases hlive

theorem Inv.finish {s s1 : Client} {tid : Nat} {th : ResyncThread} (hs : Single s)
    (hth : s.thread tid = some th) (hsame : SameSlot s s1)
    (harea : AreaOk s1)
    (hlast : s1.history.recorded = true → CopiedBelow g s1.history s1.lastResyncedBit) :
    Inv g (s1.endThread tid) := by
  refine Inv.update hs (o := none) hth ?_ hsame.slot harea hlast ?_
  · change Function.update s1.thread tid none = _
    rw [hsame.thread]
  · intro th' ho
    cases ho

theorem Inv.launch {s s1 : Client} {pos : Nat} (hi : Inv g s) (hhist : s1.history = s.history)
    (harea : AreaOk s1) (hlast : s1.lastResyncedBit = s.lastResyncedBit)
    (hpos : CopiedBelow g s.history pos) : Inv g (s1.resyncInit pos) := by
  refine ⟨harea, ?_, ?_⟩
  · intro hrec
    change CopiedBelow g s1.history s1.lastResyncedBit
    rw [hhist, hlast]
    exact hi.last (hhist ▸ hrec)
  · intro th hth _
    change Function.update s1.thread s1.nextTid _ s1.nextTid = some th at hth
    rw [Function.update_self] at hth
    cases hth
    refine Or.inr ?_
    change CopiedBelow g s1.history pos
    rw [hhist]
    exact hpos

/-! ### Steps -/

/-- `total_iterations` has not lost chunks. -/
def LoopsEnough (g : Geometry) : Prop := g.grainSize / g.chunkSize ≤ g.loopBound

instance (g : Geometry) : Decidable (LoopsEnough g) := inferInstanceAs (Decidable (_ ≤ _))

theorem Inv.look {s : Client} {pos : Nat} {m : Mem} (hi : Inv g s)
    (harea : s.bitmapArea = .allocated m)
    (htest : s.awaiting = true → bit s.history.received pos = false)
    (hbelow : CopiedBelow g s.history pos) :
    PhaseOk g s (if bit m pos = true then .chunk pos 0 else .record pos) := by
  cases hbit : bit m pos with
  | true =>
    rw [if_pos rfl]
    exact ⟨hbelow, Or.inr fun _ _ c hc => absurd hc (Nat.not_lt_zero c)⟩
  | false =>
    rw [if_neg (by decide)]
    -- a bit read as clear is clear in the received bitmap
    have hclear : bit s.history.received pos = false := by
      cases haw : s.awaiting with
      | true => exact htest haw
      | false => rw [← hi.area haw m harea, hbit]
    exact ⟨hbelow, Or.inr (written_of_clear hclear _)⟩

/-- **Step lemma**, for the steps of a thread. -/
theorem inv_run {s s' : Client} {tid : Nat} {ok : Bool} (hg : LoopsEnough g) (hs : Single s) (hi : Inv g s)
    (hends : CancelEnds s (.run tid ok)) (htest : TestsReceived s (.run tid ok))
    (h : s.runThread g tid ok = some s') : Inv g s' := by
  obtain ⟨⟨ph, x⟩, hth, -⟩ := Option.bind_eq_some_iff.mp h
  have hph : PhaseOk g s ph := hi.phaseOk hs hth rfl (hends _ hth)
  cases threadStep_of_run hth h with
  | start => exact Inv.advance hs hth ⟨rfl, rfl, rfl⟩ hi.area hi.last fun _ => hph
  | @look pos hpos hrun m harea =>
    have hpos : s.testedPos tid = some pos := by
      rw [testedPos, hth, Option.bind_some]
    have hclear : s.awaiting = true → bit s.history.received pos = false :=
      fun haw => htest haw pos hpos
    exact Inv.advance hs hth ⟨rfl, rfl, rfl⟩ hi.area hi.last
      fun _ => hi.look harea hclear (hph.resolve_left hrun)
  | @leave pos hend =>
    refine Inv.advance hs hth ⟨rfl, rfl, rfl⟩ hi.area hi.last fun _ => ?_
    by_cases hpause : s.partnerState = .pause
    · exact Or.inl hpause
    · have hge : ¬ pos < bitmapSizeMax * 8 := fun hlt => hend ⟨hlt, hpause⟩
      refine Or.inr fun b hb => ?_
      exact hph.resolve_left hpause b (by omega)
  | chunk => exact Inv.advance hs hth ⟨rfl, rfl, rfl⟩ hi.area hi.last fun _ => hph
  | chunkPaused hc hpause =>
    exact Inv.advance hs hth ⟨rfl, rfl, rfl⟩ hi.area hi.last fun _ => ⟨hph.1, Or.inl hpause⟩
  | chunkEnd hc =>
    refine Inv.advance hs hth ⟨rfl, rfl, rfl⟩ hi.area hi.last fun _ => ?_
    exact ⟨hph.1, hph.2.imp_right fun hw => hw.mono (Nat.le_trans hg hc)⟩
  | sent | received => exact Inv.advance hs hth ⟨rfl, rfl, rfl⟩ hi.area hi.last fun _ => hph
  | sendLost | recvLost =>
    exact Inv.advance hs hth ⟨rfl, rfl, rfl⟩ hi.area hi.last fun _ => trivial
  | @written pos c =>
    have hle : HistoryLe s.history
        { s.history with written := g.startLba pos c :: s.history.written } :=
      ⟨rfl, fun _ hl => List.mem_cons_of_mem _ hl⟩
    refine Inv.advance hs hth ⟨rfl, rfl, rfl⟩ hi.area (fun hrec => (hi.last hrec).later hle) ?_
    exact fun _ => ⟨hph.1.later hle, hph.2.imp_right Written.snoc⟩
  | writeFailed | loopPaused => exact Inv.halt hs hth ⟨rfl, rfl, rfl⟩ hi.area hi.last
  | chunkReleased | connLost | completed =>
    exact Inv.finish hs hth ⟨rfl, rfl, rfl⟩ hi.area hi.last
  | record =>
    refine Inv.advance hs hth ⟨rfl, rfl, rfl⟩ hi.area (fun _ => hph.1) ?_
    exact fun _ => hph.2.imp_right hph.1.succ
  | loopEnd hrun =>
    exact Inv.advance hs hth ⟨rfl, rfl, rfl⟩ hi.area hi.last fun _ => hph.resolve_left hrun
  | terminate => exact Inv.advance hs hth ⟨rfl, rfl, rfl⟩ hi.area hi.last fun _ => hph
  | resetBit hlast =>
    refine Inv.advance hs hth ⟨rfl, rfl, rfl⟩ hi.area (fun hrec => ?_) fun _ => hph
    rcases hlast with rfl | rfl
    · exact copiedBelow_zero _
    · exact hi.last hrec
  | sendTermination => exact Inv.advance hs hth ⟨rfl, rfl, rfl⟩ hi.area hi.last fun _ => trivial
  | release =>
    refine Inv.finish hs hth ⟨rfl, rfl, rfl⟩ ?_ hi.last
    intro _ m hm
    cases hm

theorem Inv.keep {s s' : Client} (hi : Inv g s) (hsame : SameSlot s s')
    (hpause : s.partnerState = .pause → s'.partnerState = .pause) (hpos : s'.bitPos = s.bitPos)
    (hhist : s'.history = s.history)
    (harea : AreaOk s')
    (hlast : s'.lastResyncedBit = s.lastResyncedBit) : Inv g s' := by
  refine ⟨harea, ?_, ?_⟩
  · rw [hhist, hlast]
    exact hi.last
  · intro th hth hlive
    rw [hsame.slot, hsame.thread] at hth
    refine (hi.phase th hth hlive).later hpause hpos ?_
    rw [hhist]
    exact ⟨rfl, fun _ hl => hl⟩

theorem Inv.resumePos {s : Client} {e : Event} (hi : Inv g s) (hfresh : ResumesFresh s e)
    (hl : s.launches e = some s.lastResyncedBit) :
    CopiedBelow g s.history s.lastResyncedBit := by
  cases hrec : s.history.recorded with
  | true => exact hi.last hrec
  | false =>
    intro b hb
    exact written_of_clear (hfresh hrec _ hl b hb) _

/-- **Step lemma.** -/
theorem inv_step {s s' : Client} {e : Event} (hg : LoopsEnough g) (hs : Single s) (hi : Inv g s)
    (hends : CancelEnds s e) (hfresh : ResumesFresh s e)
    (hahead : ReceivesAhead s e) (htest : TestsReceived s e) (h : s.step g e = some s') :
    Inv g s' := by
  cases stepCase_of_step h with
  | run hrun => exact inv_run hg hs hi hends htest hrun
  | endCancelled hth => exact Inv.finish hs hth ⟨rfl, rfl, rfl⟩ hi.area hi.last
  | metadata =>
    unfold requestMetadata
    split
    · rename_i hrel
      refine hi.keep ⟨rfl, rfl, rfl⟩ (fun hpause => ?_) rfl rfl nofun rfl
      rw [hrel] at hpause
      cases hpause
    · exact hi.keep ⟨rfl, rfl, rfl⟩ id rfl rfl nofun rfl
  | bitmap =>
    refine ⟨?_, nofun, fun th hth hlive => ?_⟩
    · intro _ m' hm
      cases hm
      rfl
    · exact PhaseOk.receive rfl rfl hlive (hahead _ (hs.bound th hth) th hth)
  | pause => exact hi.keep ⟨rfl, rfl, rfl⟩ (fun _ => rfl) rfl rfl hi.area rfl
  | launch hl hpos =>
    refine hi.launch rfl hi.area rfl ?_
    rcases hpos with rfl | rfl
    · exact copiedBelow_zero _
    · exact hi.resumePos hfresh hl
  | idle => exact hi

/-- A bitmap with one bit. -/
def oneBit (i : Nat) : Mem := setBit 8 (fun _ => 0) 0 i

theorem bit_oneBit (i b : Nat) : bit (oneBit i) b = decide (b = i) := by
  rw [oneBit, bit_setBit (by decide)]
  simp [bit]

theorem conditions_of_going {tid : Nat} {m : Mem} {s : Client} {e : Event}
    (h : Going g tid m s ∧ e = .run tid true) :
    (OneThread s e ∧ CancelEnds s e) ∧ ResumesFresh s e ∧ ReceivesAhead s e ∧
      TestsReceived s e := by
  obtain ⟨hgo, rfl⟩ := h
  obtain ⟨ph, hth⟩ := hgo.thread
  refine ⟨⟨fun hne => absurd rfl hne, ?_⟩, ?_, trivial, ?_⟩
  · intro th hmem
    cases hth.symm.trans hmem
    rfl
  · intro _ pos hpos
    cases hpos
  · intro haw
    rw [hgo.still] at haw
    cases haw

/-- A metadata request that is answered, and a resync. -/
def metadataResync (m : Mem) : List Event := [.metadata, .bitmap m, .resync]

/-- A resync of bit 5, paused after the first two positions. -/
def pausedResync : List Event :=
  metadataResync (oneBit 5) ++ List.replicate 5 (.run 0 true) ++
    [.pause, .run 0 true, .run 0 true, .endCancelled 0]

end Client

end Ebdr
