import Ebdr.Client.Completion

/-!
# One resync stream for a partner

The resync threads of a partner share its socket and its header object. `Wire` adds the stream of
replies to the client: the server answers every `DATA` header on the connection with one chunk, in
order. `one_resync_stream` says that when a thread is started only while no other one is running,
there is never more than one, and each reply that is written is written at the `start_lba` of the
request that produced it. The program starts threads from four places without looking for a running
one (`two_resyncs`).
-/

namespace Ebdr

open ByteMem CInt Lts

namespace Client

/-- The position of a `DATA` header. -/
structure Request where
  currPos : Nat
  chunkPos : Nat
  deriving DecidableEq, Repr

/-- The client and the replies on its connection. -/
structure Wire where
  client : Client
  /-- The requests on the present connection whose replies have not been read, in order. -/
  inFlight : List Request
  /-- The request whose reply the last receive of a thread has put into its `buff`. -/
  buff : Nat → Option Request

inductive WireEvent where
  | client (e : Event)
  /-- A receive at the end of the stream: `recv` returns 0 and `chunk_read_client` succeeds. -/
  | eof (tid : Nat)

namespace Wire

/-- The replies to come after an event. -/
def queue (w : Wire) : Event → List Request
  | .run tid ok =>
    match w.client.phaseOf tid with
    | some (.send _ _) =>
      if ok = true then
        if w.client.header.opcode = .data then
          w.inFlight ++ [⟨w.client.header.currPos, w.client.header.chunkPos⟩]
        else w.inFlight
      else []
    | some (.recv _ _) => if ok = true then w.inFlight.tail else []
    | _ => w.inFlight
  | .recoveryConn => if w.client.connState = .pause then [] else w.inFlight
  | _ => w.inFlight

/-- The buffers after an event. -/
def buffers (w : Wire) : Event → Nat → Option Request
  | .run tid true =>
    match w.client.phaseOf tid with
    | some (.recv _ _) => Function.update w.buff tid w.inFlight.head?
    | _ => w.buff
  | _ => w.buff

/-- A receive waits for a reply, and the bitmap is not received in the middle of other replies. -/
def Enabled (w : Wire) : Event → Prop
  | .run tid true =>
    match w.client.phaseOf tid with
    | some (.recv _ _) => w.inFlight ≠ []
    | _ => True
  | .bitmap _ => w.inFlight = []
  | _ => True

instance instDecidableEnabled (w : Wire) : (e : Event) → Decidable (w.Enabled e)
  | .run tid true => by
    unfold Enabled
    dsimp only
    split <;> infer_instance
  | .bitmap _ => inferInstanceAs (Decidable (w.inFlight = []))
  | .run _ false | .metadata | .resync | .pause | .resume | .recoveryDisk | .recoveryConn
  | .endCancelled _ => isTrue trivial

def step (g : Geometry) (w : Wire) : WireEvent → Option Wire
  | .client e =>
    if w.Enabled e then (w.client.step g e).map fun c => ⟨c, w.queue e, w.buffers e⟩ else none
  | .eof tid =>
    match w.client.phaseOf tid with
    | some (.recv _ _) =>
      (w.client.step g (.run tid true)).map fun c => ⟨c, [], Function.update w.buff tid none⟩
    | _ => none

def boot : Wire := ⟨Client.boot, [], fun _ => none⟩

/-- At most one thread, and each reply at the place of its request. -/
structure OneStream (g : Geometry) (w : Wire) : Prop where
  single : ∀ t t' th th', w.client.thread t = some th → w.client.thread t' = some th' → t = t'
  place : ∀ tid pos chunkId r, w.client.phaseOf tid = some (.write pos chunkId) →
    w.buff tid = some r → g.startLba r.currPos r.chunkPos = g.startLba pos chunkId

/-- The event starts a thread or requests a bitmap. -/
def Begins (s : Client) : Event → Prop
  | .metadata => True
  | e => s.launches e ≠ none

instance (s : Client) (e : Event) : Decidable (Begins s e) := by
  unfold Begins
  split <;> infer_instance

theorem begins_of_launches {s : Client} {e : Event} {pos : Nat} (h : s.launches e = some pos) :
    Begins s e := by
  have hne : s.launches e ≠ none := by
    rw [h]
    simp
  cases e with
  | metadata => trivial
  | _ => exact hne

/-- A thread is started, or a bitmap requested, when no thread is running and no bitmap awaited. -/
def StartsAlone (w : Wire) : WireEvent → Prop
  | .client e =>
    Begins w.client e →
      (∀ t < w.client.nextTid, w.client.thread t = none) ∧ w.client.awaiting = false
  | .eof _ => True

instance (w : Wire) (e : WireEvent) : Decidable (StartsAlone w e) := by
  unfold StartsAlone
  split <;> infer_instance

/-! ### The invariant -/

/-- The phases without a chunk on its way. -/
def Quiet : ResyncPhase → Prop
  | .send _ _ | .recv _ _ | .write _ _ => False
  | _ => True

/-- What is on its way for the running thread. -/
def Flight (w : Wire) (th : ResyncThread) : Prop :=
  match th.phase with
  | .send pos c => w.client.header = ⟨.data, pos, c⟩ ∧ w.inFlight = []
  | .recv pos c => th.cancelled = false ∧ w.inFlight = [⟨pos, c⟩]
  | .write pos c => w.inFlight = [] ∧ ∀ r, w.buff w.client.resyncTid = some r → r = ⟨pos, c⟩
  | _ => w.inFlight = []

structure WireInv (w : Wire) : Prop where
  single : Single w.client
  alone : w.client.awaiting = true → ∀ t, w.client.thread t = none
  idle : w.client.thread w.client.resyncTid = none → w.inFlight = []
  flight : ∀ th, w.client.thread w.client.resyncTid = some th → Flight w th

theorem wireInv_boot : WireInv boot where
  single := single_boot
  alone := fun _ _ => rfl
  idle := fun _ => rfl
  flight := by
    intro th h
    cases h

theorem flight_of_quiet {w : Wire} {th : ResyncThread} (hq : Quiet th.phase)
    (h : w.inFlight = []) : Flight w th := by
  obtain ⟨ph, c⟩ := th
  cases ph with
  | send pos c | recv pos c | write pos c => exact hq.elim
  | _ => exact h

theorem WireInv.empty {w : Wire} (hi : WireInv w) {tid : Nat} {th : ResyncThread}
    (hth : w.client.thread tid = some th) (hr : ∀ pos c, th.phase ≠ .recv pos c) :
    w.inFlight = [] := by
  have hf := hi.flight th (hi.single.eq_slot hth ▸ hth)
  obtain ⟨ph, c⟩ := th
  cases ph with
  | recv pos c => exact absurd rfl (hr pos c)
  | send pos c => exact hf.2
  | write pos c => exact hf.1
  | _ => exact hf

/-! ### The next phase of a thread -/

theorem setPhase_phase {s : Client} {tid : Nat} {ph : ResyncPhase} {th : ResyncThread}
    (h : (s.setPhase tid ph).thread tid = some th) : th.phase = ph := by
  rw [setPhase_thread_self] at h
  obtain ⟨th0, -, rfl⟩ := Option.map_eq_some_iff.mp h
  rfl

theorem quiet_setPhase {s : Client} {tid : Nat} {ph : ResyncPhase} (hq : Quiet ph) :
    ∀ th, (s.setPhase tid ph).thread tid = some th → Quiet th.phase := by
  intro th h
  rw [setPhase_phase h]
  exact hq

theorem quiet_endThread (s : Client) (tid : Nat) :
    ∀ th, (s.endThread tid).thread tid = some th → Quiet th.phase := by
  intro th h
  simp [endThread] at h

theorem WireInv.run {w w' : Wire} {tid : Nat} {th : ResyncThread} (hi : WireInv w)
    (hth : w.client.thread tid = some th) (ht : Touches tid w.client w'.client)
    (hnone : w'.client.thread tid = none → w'.inFlight = [])
    (hflight : ∀ th', w'.client.thread tid = some th' → Flight w' th') : WireInv w' := by
  have hsingle := hi.single.touches hth ht
  obtain rfl := hi.single.eq_slot hth
  refine ⟨hsingle, ?_, ?_, ?_⟩
  · intro haw
    rw [ht.awaiting] at haw
    rw [hi.alone haw] at hth
    cases hth
  · rw [ht.slot]
    exact hnone
  · rw [ht.slot]
    exact hflight

/-- **Step lemma**, for the steps of a thread. -/
theorem wireInv_run {g : Geometry} {w : Wire} {c : Client} {tid : Nat} {ok : Bool} (hi : WireInv w)
    (h : w.client.step g (.run tid ok) = some c) :
    WireInv ⟨c, w.queue (.run tid ok), w.buffers (.run tid ok)⟩ := by
  obtain ⟨⟨ph, x⟩, hth, -⟩ := Option.bind_eq_some_iff.mp h
  have htouch : Touches tid w.client c := touches_run h
  have hslot := hi.single.eq_slot hth
  have hf := hi.flight _ (hslot ▸ hth)
  have hphase : w.client.phaseOf tid = some ph := by rw [phaseOf, hth, Option.map_some]
  -- a step that neither sends nor receives leaves the stream as it is
  have hkeep : (∀ pos k, ph ≠ .send pos k ∧ ph ≠ .recv pos k) → w.queue (.run tid ok) = [] := by
    intro hne
    have hempty := hi.empty hth fun pos k => (hne pos k).2
    rw [queue, hphase]
    split
    · rename_i pos k heq
      exact absurd (Option.some.inj heq) (hne pos k).1
    · rename_i pos k heq
      exact absurd (Option.some.inj heq) (hne pos k).2
    · exact hempty
  have hquiet : w.queue (.run tid ok) = [] →
      (∀ th', c.thread tid = some th' → Quiet th'.phase) →
        WireInv ⟨c, w.queue (.run tid ok), w.buffers (.run tid ok)⟩ := fun hqueue hq =>
    hi.run hth htouch (fun _ => hqueue) fun th' hth' => flight_of_quiet (hq th' hth') hqueue
  cases threadStep_of_run hth h with
  | @chunk pos k =>
    have hqueue := hkeep fun _ _ => ⟨by simp, by simp⟩
    refine hi.run hth htouch (fun _ => hqueue) fun th' hth' => ?_
    rw [Flight, setPhase_phase hth']
    exact ⟨rfl, hqueue⟩
  | @sent pos k hx hok =>
    obtain ⟨hheader, hempty⟩ := hf
    subst hok
    have hqueue : w.queue (.run tid true) = [⟨pos, k⟩] := by
      rw [queue, hphase]
      dsimp only
      rw [if_pos rfl, hheader, if_pos rfl, hempty, List.nil_append]
    have hthread : (w.client.setPhase tid (.recv pos k)).thread tid = some ⟨.recv pos k, x⟩ := by
      rw [setPhase_thread_self, hth, Option.map_some]
    refine hi.run hth htouch (fun hnone => ?_) fun th' hth' => ?_
    · rw [hthread] at hnone
      cases hnone
    · cases hthread.symm.trans hth'
      exact ⟨hx, hqueue⟩
  | @received pos k hx hok =>
    obtain ⟨-, hflight⟩ := hf
    subst hok
    have hqueue : w.queue (.run tid true) = [] := by
      rw [queue, hphase]
      dsimp only
      rw [if_pos rfl, hflight, List.tail_cons]
    have hbuff : w.buffers (.run tid true) tid = some ⟨pos, k⟩ := by
      rw [buffers, hphase]
      dsimp only
      rw [Function.update_self, hflight, List.head?_cons]
    refine hi.run hth htouch (fun _ => hqueue) fun th' hth' => ?_
    rw [Flight, setPhase_phase hth']
    refine ⟨hqueue, fun r hr => ?_⟩
    have hr' : w.buffers (.run tid true) w.client.resyncTid = some r := hr
    rw [← hslot, hbuff] at hr'
    exact (Option.some.inj hr').symm
  | sendLost hx hok | recvLost hx hok =>
    refine hquiet ?_ (quiet_setPhase trivial)
    rw [queue, hphase, hok]
    rfl
  | @look pos hpos hrun m =>
    refine hquiet (hkeep fun _ _ => ⟨by simp, by simp⟩) (quiet_setPhase ?_)
    cases bit m pos <;> exact trivial
  | chunkReleased | connLost | completed | release =>
    exact hquiet (hkeep fun _ _ => ⟨by simp, by simp⟩) (quiet_endThread _ tid)
  | _ => exact hquiet (hkeep fun _ _ => ⟨by simp, by simp⟩) (quiet_setPhase trivial)

theorem wireInv_eof {g : Geometry} {w : Wire} {c : Client} {tid pos k : Nat} (hi : WireInv w)
    (hph : w.client.phaseOf tid = some (.recv pos k))
    (h : w.client.step g (.run tid true) = some c) :
    WireInv ⟨c, [], Function.update w.buff tid none⟩ := by
  obtain ⟨⟨ph, x⟩, hth, rfl⟩ := Option.map_eq_some_iff.mp hph
  have htouch : Touches tid w.client c := touches_run h
  have hslot := hi.single.eq_slot hth
  cases threadStep_of_run hth h with
  | received =>
    refine hi.run hth htouch (fun _ => rfl) fun th' hth' => ?_
    rw [Flight, setPhase_phase hth']
    refine ⟨rfl, fun r hr => ?_⟩
    have hr' : Function.update w.buff tid none w.client.resyncTid = some r := hr
    rw [← hslot, Function.update_self] at hr'
    cases hr'
  | recvLost hx hok => cases hok

theorem WireInv.keep {w : Wire} {c : Client} (hi : WireInv w) (hsame : SameSlot w.client c)
    (hheader : c.header = w.client.header) (haw : c.awaiting = true → w.client.awaiting = true) :
    WireInv ⟨c, w.inFlight, w.buff⟩ := by
  refine ⟨hi.single.same hsame, ?_, ?_, ?_⟩
  · intro h
    rw [hsame.thread]
    exact hi.alone (haw h)
  · rw [hsame.slot, hsame.thread]
    exact hi.idle
  · intro th hth
    rw [hsame.slot, hsame.thread] at hth
    have hf := hi.flight th hth
    unfold Flight at hf ⊢
    dsimp only at hf ⊢
    rw [hheader, hsame.slot]
    exact hf

theorem WireInv.begin {w : Wire} {c : Client} (hi : WireInv w)
    (hnone : ∀ t, w.client.thread t = none) (hsingle : Single c) {q : List Request}
    (hq : q = w.inFlight ∨ q = []) (haw : c.awaiting = true → ∀ t, c.thread t = none)
    (hnew : ∀ th, c.thread c.resyncTid = some th → Quiet th.phase) :
    WireInv ⟨c, q, w.buff⟩ := by
  have hempty : q = [] := by
    rcases hq with rfl | rfl
    · exact hi.idle (hnone _)
    · rfl
  exact ⟨hsingle, haw, fun _ => hempty, fun th hth => flight_of_quiet (hnew th hth) hempty⟩

theorem WireInv.launch {w : Wire} {s : Client} {pos : Nat} (hi : WireInv w)
    (hsame : SameSlot w.client s) (hnone : ∀ t, w.client.thread t = none)
    (haw : s.awaiting = false) {q : List Request} (hq : q = w.inFlight ∨ q = []) :
    WireInv ⟨s.resyncInit pos, q, w.buff⟩ := by
  have hnone1 : ∀ t, s.thread t = none := by
    intro t
    rw [hsame.thread]
    exact hnone t
  refine hi.begin hnone (Single.launch hnone1) hq ?_ ?_
  · intro h
    have h1 : s.awaiting = true := h
    rw [haw] at h1
    cases h1
  · intro th hth
    have hnew : (s.resyncInit pos).thread (s.resyncInit pos).resyncTid =
        some ⟨.created, false⟩ := Function.update_self _ _ _
    cases hnew.symm.trans hth
    trivial

theorem stream_of_launches {w : Wire} {e : Event} {pos : Nat}
    (hl : w.client.launches e = some pos) :
    (w.queue e = w.inFlight ∨ w.queue e = []) ∧ w.buffers e = w.buff := by
  cases e with
  | run tid ok => cases hl
  | recoveryConn =>
    rw [queue]
    split
    · exact ⟨Or.inr rfl, rfl⟩
    · exact ⟨Or.inl rfl, rfl⟩
  | _ => exact ⟨Or.inl rfl, rfl⟩

/-- **Step lemma.** -/
theorem wireInv_step {g : Geometry} {w w' : Wire} {e : WireEvent} (hi : WireInv w)
    (halone : StartsAlone w e) (h : w.step g e = some w') : WireInv w' := by
  cases e with
  | eof tid =>
    simp only [step] at h
    split at h
    · rename_i pos k hph
      obtain ⟨c, hc, rfl⟩ := Option.map_eq_some_iff.mp h
      exact wireInv_eof hi hph hc
    · cases h
  | client e =>
    simp only [step] at h
    split at h
    case isFalse => cases h
    obtain ⟨c, hc, rfl⟩ := Option.map_eq_some_iff.mp h
    have hfree : Begins w.client e →
        (∀ t, w.client.thread t = none) ∧ w.client.awaiting = false := fun hb =>
      ⟨hi.single.none_of (halone hb).1, (halone hb).2⟩
    cases stepCase_of_step hc with
    | run => exact wireInv_run hi hc
    | @endCancelled tid ph hth =>
      have hempty : w.inFlight = [] := by
        refine hi.empty hth fun pos k hp => ?_
        have hf := hi.flight _ (hi.single.eq_slot hth ▸ hth)
        rw [Flight, hp] at hf
        cases hf.1
      exact hi.run hth (touches_endThread tid ⟨⟨rfl, rfl, rfl⟩, rfl, id, rfl⟩) (fun _ => hempty)
        fun th' hth' => flight_of_quiet (quiet_endThread _ tid th' hth') hempty
    | metadata =>
      obtain ⟨hnone, -⟩ := hfree trivial
      have hsame := sameSlot_requestMetadata w.client
      refine hi.begin hnone (hi.single.same hsame) (Or.inl rfl) ?_ ?_
      · intro _ t
        rw [hsame.thread]
        exact hnone t
      · intro th hth
        rw [hsame.thread, hnone] at hth
        cases hth
    | bitmap => exact hi.keep ⟨rfl, rfl, rfl⟩ rfl nofun
    | pause => exact hi.keep ⟨rfl, rfl, rfl⟩ rfl id
    | launch hl =>
      obtain ⟨hnone, hfalse⟩ := hfree (begins_of_launches hl)
      obtain ⟨hqueue, hbuff⟩ := stream_of_launches hl
      rw [hbuff]
      refine hi.launch ?_ hnone ?_ hqueue
      · exact ⟨rfl, rfl, rfl⟩
      · exact hfalse
    | idle he =>
      rcases he with rfl | rfl | rfl | ⟨rfl, hp⟩
      · exact hi
      · exact hi
      · exact hi
      · rw [queue, if_neg hp]
        exact hi

theorem WireInv.oneStream {g : Geometry} {w : Wire} (hi : WireInv w) : OneStream g w := by
  refine ⟨?_, ?_⟩
  · intro t t' th th' h h'
    rw [hi.single.eq_slot h, hi.single.eq_slot h']
  · intro tid pos k r hph hr
    obtain ⟨th, hth, hp⟩ := Option.map_eq_some_iff.mp hph
    obtain rfl := hi.single.eq_slot hth
    have hf := hi.flight th hth
    rw [Flight, hp] at hf
    rw [hf.2 r hr]

/-- **One resync stream.** In a run in which a thread is started only while no other one is running,
at most one thread is active in every state, and a reply that was read is written at the `start_lba`
of the request that produced it. -/
theorem one_resync_stream {g : Geometry} {es : List WireEvent} {w : Wire}
    (hm : Meets (step g) StartsAlone boot es) (hr : run (step g) boot es = some w) :
    OneStream g w := by
  have hi : WireInv w :=
    run_inv (fun w e w' hi hok hs => wireInv_step hi hok hs) wireInv_boot hm hr
  exact hi.oneStream

/-- A metadata request answered by a bitmap with bit 0, a resync. -/
def firstResync : List WireEvent :=
  [.client .metadata, .client (.bitmap (oneBit 0)), .client .resync]

/-- `n` steps of a thread whose I/O calls succeed. -/
def steps (tid n : Nat) : List WireEvent := List.replicate n (.client (.run tid true))

theorem one_resync_stream_first :
    ∃ w, run (step ⟨16, 8⟩) boot (firstResync ++ steps 0 5) = some w ∧
      w.client.phaseOf 0 = some (.write 0 0) ∧ w.buff 0 = some ⟨0, 0⟩ ∧ OneStream ⟨16, 8⟩ w := by
  have hsome : (run (step ⟨16, 8⟩) boot (firstResync ++ steps 0 5)).map
      (fun w => (w.client.phaseOf 0, w.buff 0)) = some (some (.write 0 0), some ⟨0, 0⟩) := by decide
  obtain ⟨w, hw, hval⟩ := Option.map_eq_some_iff.mp hsome
  rw [Prod.mk.injEq] at hval
  exact ⟨w, hw, hval.1, hval.2, one_resync_stream (by decide) hw⟩

/-- Two `resync` commands: the second thread writes the reply to the first one's second chunk at the
place of its own first chunk. -/
theorem two_resyncs :
    ¬ ∀ (g : Geometry) (es : List WireEvent) (w : Wire), run (step g) boot es = some w →
      OneStream g w := by
  intro h
  have hsome : (run (step ⟨16, 8⟩) boot
      (firstResync ++ [.client .resync] ++ steps 0 8 ++ steps 1 5)).map
        (fun w => (w.client.phaseOf 1, w.buff 1)) = some (some (.write 0 0), some ⟨0, 1⟩) := by decide
  obtain ⟨w, hw, hval⟩ := Option.map_eq_some_iff.mp hsome
  rw [Prod.mk.injEq] at hval
  have hplace := (h ⟨16, 8⟩ _ w hw).place 1 0 0 ⟨0, 1⟩ hval.1 hval.2
  exact absurd hplace (by decide)

end Wire

end Client

end Ebdr
