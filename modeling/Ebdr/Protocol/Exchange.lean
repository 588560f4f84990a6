import Ebdr.Protocol.Session

/-!
# Rounds on the connection

What the two sides know of each other's round in a regular run. While the client waits for a bitmap
it has no thread, so nothing is on the way to it but the answer (`Awaited`); and a termination header
is on its way to the server only after a resync thread has sent one (`NoEnd`).
-/

namespace Ebdr

open ByteMem CInt Lts

/-! ### The client -/

namespace Client

/-- What a step of the client does to its history. -/
inductive HistoryStep (g : Geometry) (s : Client) : Event → Client → Prop
  | keep {e : Event} {s' : Client} (received : s'.history.received = s.history.received)
      (written : s'.history.written = s.history.written)
      (awaiting : s'.awaiting = false → s.awaiting = false) : HistoryStep g s e s'
  | bitmap {m : Mem} {s' : Client} (history : s'.history = ⟨m, [], false⟩)
      (awaiting : s'.awaiting = false) : HistoryStep g s (.bitmap m) s'
  | wrote {tid pos c : Nat} {s' : Client} (phase : s.phaseOf tid = some (.write pos c))
      (received : s'.history.received = s.history.received)
      (written : s'.history.written = g.startLba pos c :: s.history.written)
      (awaiting : s'.awaiting = s.awaiting) : HistoryStep g s (.run tid true) s'

/-- **Step lemma.** -/
theorem historyStep_of_step {g : Geometry} {s s' : Client} {e : Event} (h : s.step g e = some s') :
    HistoryStep g s e s' := by
  cases stepCase_of_step h with
  | metadata =>
    refine .keep ?_ ?_ ?_
    · unfold requestMetadata
      split <;> rfl
    · unfold requestMetadata
      split <;> rfl
    · simp [requestMetadata]
  | bitmap => exact .bitmap rfl rfl
  | pause => exact .keep rfl rfl id
  | launch => exact .keep rfl rfl id
  | idle => exact .keep rfl rfl id
  | endCancelled => exact .keep rfl rfl id
  | @run tid ok s' hrun =>
    obtain ⟨⟨ph, x⟩, hth, -⟩ := Option.bind_eq_some_iff.mp h
    cases threadStep_of_run hth hrun with
    | written hx hok =>
      subst hok
      exact .wrote (by rw [phaseOf, hth, Option.map_some]) rfl rfl rfl
    | _ => exact .keep rfl rfl id

theorem bitmap_received {g : Geometry} {s s' : Client} {m : Mem}
    (h : s.step g (.bitmap m) = some s') :
    s.awaiting = true ∧
      s' = { s with bitmapArea := .allocated m, awaiting := false, history := ⟨m, [], false⟩ } := by
  rw [step, receiveBitmap] at h
  obtain ⟨haw, h⟩ := Option.ite_none_right_eq_some.mp h
  split at h
  · exact ⟨haw, (Option.some.inj h).symm⟩
  · cases h
  · cases h

/-- A thread has asked for a chunk and not yet written it. -/
def InTransfer (s : Client) : Prop :=
  ∃ tid pos c, s.phaseOf tid = some (.recv pos c) ∨ s.phaseOf tid = some (.write pos c)

theorem InTransfer.congr {s s' : Client} (h : InTransfer s') (ht : s'.thread = s.thread) :
    InTransfer s := by
  obtain ⟨tid, pos, c, h⟩ := h
  rw [phaseOf, ht] at h
  exact ⟨tid, pos, c, h⟩

theorem InTransfer.of_touches {s s' : Client} {tid : Nat} {th : ResyncThread} (h : InTransfer s')
    (hs : Single s) (hth : s.thread tid = some th) (ht : Touches tid s s') :
    ∃ pos c, s'.phaseOf tid = some (.recv pos c) ∨ s'.phaseOf tid = some (.write pos c) := by
  obtain ⟨t, pos, c, h⟩ := h
  have heq : t = tid := by
    rcases h with h | h
    · exact Link.phaseOf_touches hs hth ht h
    · exact Link.phaseOf_touches hs hth ht h
  exact ⟨pos, c, heq ▸ h⟩

end Client

namespace Link

open Client

variable {cfg : Config}

theorem step_client {l l' : Link} {e : LinkEvent} (h : l.step cfg e = some l') :
    (∃ g, e.clientPart l = some g ∧ l.client.step cfg.client g = some l'.client) ∨
      (e.clientPart l = none ∧ l'.client = l.client) := by
  cases e with
  | client e =>
    obtain ⟨-, h⟩ := Option.ite_none_right_eq_some.mp h
    obtain ⟨c, hc, rfl⟩ := Option.map_eq_some_iff.mp h
    exact Or.inl ⟨e, rfl, hc⟩
  | send tid r =>
    obtain ⟨-, h⟩ := Option.ite_none_right_eq_some.mp h
    unfold Link.send at h
    dsimp only at h
    split at h
    · rename_i hph
      obtain ⟨c, hc, rfl⟩ := Option.map_eq_some_iff.mp h
      exact Or.inl ⟨_, by rw [LinkEvent.clientPart, hph], hc⟩
    · rename_i hph
      obtain ⟨c, hc, rfl⟩ := Option.map_eq_some_iff.mp h
      exact Or.inl ⟨_, by rw [LinkEvent.clientPart, hph], hc⟩
    · cases h
  | recv tid r timedOut =>
    simp only [Link.step, Link.recv] at h
    split at h
    · split at h
      · obtain ⟨c, hc, rfl⟩ := Option.map_eq_some_iff.mp h
        exact Or.inl ⟨_, rfl, hc⟩
      · split at h
        · obtain ⟨c, hc, rfl⟩ := Option.map_eq_some_iff.mp h
          exact Or.inl ⟨_, rfl, hc⟩
        · cases h
    · cases h
  | metadata r =>
    obtain ⟨-, h⟩ := Option.ite_none_right_eq_some.mp h
    obtain ⟨c, hc, rfl⟩ := Option.map_eq_some_iff.mp h
    exact Or.inl ⟨_, rfl, hc⟩
  | bitmap n =>
    obtain ⟨-, h⟩ := Option.ite_none_right_eq_some.mp h
    obtain ⟨c, hc, rfl⟩ := Option.map_eq_some_iff.mp h
    exact Or.inl ⟨_, rfl, hc⟩
  | server e =>
    obtain ⟨c, hc, rfl⟩ := Option.map_eq_some_iff.mp h
    exact Or.inr ⟨rfl, rfl⟩

theorem bitmap_of_clientPart {l l' : Link} {e : LinkEvent} {m : Mem}
    (h : l.step cfg e = some l') (hg : e.clientPart l = some (.bitmap m)) :
    ∃ n, e = .bitmap n ∧ m = l.conn.toClient.fill (fun _ => 0) n := by
  cases e with
  | bitmap n =>
    cases hg
    exact ⟨n, rfl, rfl⟩
  | client e =>
    cases hg
    rw [Link.step] at h
    exact (Option.ite_none_right_eq_some.mp h).1.elim
  | send tid r =>
    rw [LinkEvent.clientPart] at hg
    split at hg <;> cases hg
  | recv | metadata | server => cases hg

theorem write_of_clientPart {l l' : Link} {e : LinkEvent} {tid pos c : Nat} {ok : Bool}
    (h : l.step cfg e = some l') (hg : e.clientPart l = some (.run tid ok))
    (hph : l.client.phaseOf tid = some (.write pos c)) : e = .client (.run tid ok) := by
  cases e with
  | client e => rw [Option.some.inj hg]
  | send tid' r =>
    have heq : tid' = tid := by
      rw [LinkEvent.clientPart] at hg
      split at hg <;>
      · injection Option.some.inj hg
    subst heq
    obtain ⟨-, h⟩ := Option.ite_none_right_eq_some.mp h
    simp [Link.send, hph] at h
  | recv tid' r timedOut =>
    have heq : tid' = tid := by injection Option.some.inj hg
    subst heq
    simp [Link.step, Link.recv, hph] at h
  | metadata | bitmap | server => cases hg

/-! ### The server -/

/-- What a step of the server's thread changes on the connection. -/
structure ServerChange (c c' : Conn) (e : ServerEvent) : Prop where
  asked : c'.asked = c.asked
  served : (∀ r m, e ≠ .getData r m) → c'.server.served = c.server.served
  reads : c'.server.phase = .chunkWrite → ∃ r m, e = .getData r m
  dispatch : c'.server.phase = .dispatch → ∃ r, e = .recvHeader r
  toServer : (∀ r, e ≠ .recvHeader r) → c'.toServer = c.toServer
  toClient : (∀ m r, e ≠ .getBitmap m r) → (∀ r, e ≠ .chunkWrite r) → (∀ m k, e ≠ .other m k) →
    c'.toClient = c.toClient

theorem serverChange {c c' : Conn} {up : Bool} {e : ServerEvent}
    (h : c.serverStep cfg up e = some c') : ServerChange c c' e := by
  cases e with
  | recvHeader r =>
    obtain ⟨-, h⟩ := Option.ite_none_right_eq_some.mp h
    unfold Conn.recvHeader at h
    split at h
    · split at h <;>
      · cases h
        exact ⟨rfl, fun _ => rfl, by simp, by simp, fun _ => rfl, fun _ _ _ => rfl⟩
    · obtain ⟨-, h⟩ := Option.ite_none_right_eq_some.mp h
      cases h
      exact ⟨rfl, fun _ => rfl, by simp, fun _ => ⟨_, rfl⟩, fun hne => absurd rfl (hne _),
        fun _ _ _ => rfl⟩
  | getBitmap m r =>
    obtain ⟨-, h⟩ := Option.ite_none_right_eq_some.mp h
    unfold Conn.getBitmap at h
    dsimp only at h
    split at h
    · cases h
      exact ⟨rfl, fun _ => rfl, by simp, by simp, fun _ => rfl, fun _ _ _ => rfl⟩
    · obtain ⟨-, h⟩ := Option.ite_none_right_eq_some.mp h
      cases h
      exact ⟨rfl, fun _ => rfl, by simp, by simp, fun _ => rfl, fun hne _ _ => absurd rfl (hne _ _)⟩
  | getData r m =>
    obtain ⟨-, h⟩ := Option.ite_none_right_eq_some.mp h
    unfold Conn.getData at h
    have hne : ¬ ∀ r' m', ServerEvent.getData r m ≠ .getData r' m' := fun hh => hh r m rfl
    split at h
    · cases h
      exact ⟨rfl, fun hh => absurd hh hne, fun _ => ⟨r, m, rfl⟩, by simp, fun _ => rfl,
        fun _ _ _ => rfl⟩
    · split at h
      · cases h
        exact ⟨rfl, fun hh => absurd hh hne, fun _ => ⟨_, m, rfl⟩, by simp, fun _ => rfl,
          fun _ _ _ => rfl⟩
      · obtain ⟨-, h⟩ := Option.ite_none_right_eq_some.mp h
        cases h
        exact ⟨rfl, fun hh => absurd hh hne, fun _ => ⟨_, m, rfl⟩, by simp, fun _ => rfl,
          fun _ _ _ => rfl⟩
  | chunkWrite r =>
    obtain ⟨-, h⟩ := Option.ite_none_right_eq_some.mp h
    unfold Conn.chunkWrite at h
    split at h
    · cases h
      exact ⟨rfl, fun _ => rfl, by simp, by simp, fun _ => rfl, fun _ _ _ => rfl⟩
    · obtain ⟨-, h⟩ := Option.ite_none_right_eq_some.mp h
      cases h
      exact ⟨rfl, fun _ => rfl, by simp, by simp, fun _ => rfl, fun _ hne _ => absurd rfl (hne _)⟩
  | terminate =>
    obtain ⟨-, h⟩ := Option.ite_none_right_eq_some.mp h
    cases h
    unfold Conn.terminate
    split <;> exact ⟨rfl, fun _ => rfl, by simp, by simp, fun _ => rfl, fun _ _ _ => rfl⟩
  | other m k =>
    obtain ⟨-, h⟩ := Option.ite_none_right_eq_some.mp h
    cases h
    exact ⟨rfl, fun _ => rfl, by simp, by simp, fun _ => rfl, fun _ _ hne => absurd rfl (hne _ _)⟩

theorem Talk.pending_of_dispatch {c : Conn} {a : Option ClientHeader} (ht : Talk cfg c a)
    (hp : c.server.phase = .dispatch) : c.toClient.pending = 0 := by
  cases ht with
  | idle h1 | queued h1 | arrived h1 | refused h1 => exact h1
  | read _ _ h3 => simp [hp] at h3
  | answered _ h2 => simp [hp] at h2
  | bitmapSent _ _ h3 => simp [hp] at h3

/-! ### What is outstanding -/

theorem LinkInv.talk {l : Link} (hi : LinkInv cfg l) (hup : l.client.socketUp = true) :
    ∃ q b a, Wire.WireInv ⟨l.client, q, b⟩ ∧ Outstanding ⟨l.client, q, b⟩ a ∧ Talk cfg l.conn a := by
  obtain ⟨q, b, hw, hsync⟩ := hi.wire
  obtain ⟨a, ha, ht⟩ := hsync hup
  exact ⟨q, b, a, hw, ha, ht⟩

theorem LinkInv.single {l : Link} (hi : LinkInv cfg l) : Single l.client := by
  obtain ⟨q, b, hw, -⟩ := hi.wire
  exact hw.single

theorem LinkInv.alone {l : Link} (hi : LinkInv cfg l) (haw : l.client.awaiting = true) (t : Nat) :
    l.client.thread t = none := by
  obtain ⟨q, b, hw, -⟩ := hi.wire
  exact hw.alone haw t

theorem LinkInv.not_awaiting {l : Link} (hi : LinkInv cfg l) {tid : Nat} {th : ResyncThread}
    (hth : l.client.thread tid = some th) : l.client.awaiting = false := by
  obtain ⟨q, b, hw, -⟩ := hi.wire
  exact awaiting_of_thread hw hth

theorem LinkInv.idle {l : Link} (hi : LinkInv cfg l) (hup : l.client.socketUp = true)
    (haw : l.client.awaiting = false)
    (hr : ∀ tid pos c, l.client.phaseOf tid ≠ some (.recv pos c)) : Talk cfg l.conn none := by
  obtain ⟨q, b, a, hw, ha, ht⟩ := hi.talk hup
  cases a with
  | none => exact ht
  | some x =>
    exfalso
    rcases ha with ⟨haw', -, -⟩ | ⟨-, pos, c, hq, -⟩
    · exact absurd (haw'.symm.trans haw) (by simp)
    · cases hth : l.client.thread l.client.resyncTid with
      | none => exact absurd ((hw.idle hth).symm.trans hq) (by simp)
      | some th =>
        have hempty := hw.empty hth fun pos' c' hp => by
          refine hr l.client.resyncTid pos' c' ?_
          rw [phaseOf, hth, Option.map_some, hp]
        exact absurd (hempty.symm.trans hq) (by simp)

/-- A server that has found a `BITMAP_METADATA` is answering the client that waits for it, and
nothing else is on the way. -/
theorem LinkInv.metadata_found {l : Link} (hi : LinkInv cfg l) (hup : l.client.socketUp = true)
    (hf : l.conn.server.Finds cfg .bitmapMetadata) :
    l.client.awaiting = true ∧ l.conn.toClient.pending = 0 ∧ l.conn.toServer.pending = 0 := by
  obtain ⟨q, b, a, hw, ha, ht⟩ := hi.talk hup
  obtain ⟨h, rfl, hop, h1, h2, -⟩ := ht.of_finds hf (by simp)
  rcases ha with ⟨haw, -, -⟩ | ⟨-, pos, c, -, rfl⟩
  · exact ⟨haw, h1, h2⟩
  · cases hop

theorem LinkInv.finds_of_awaiting {l : Link} (hi : LinkInv cfg l) (hup : l.client.socketUp = true)
    (haw : l.client.awaiting = true) (hp : l.conn.server.phase = .dispatch) :
    l.conn.server.Finds cfg .bitmapMetadata ∨ l.conn.server.Finds cfg .rplcTermination := by
  obtain ⟨q, b, a, hw, ha, ht⟩ := hi.talk hup
  rcases ht.dispatch hp with ⟨h, rfl, -, -, hh, -⟩ | ⟨hf, -⟩
  · rcases ha with ⟨-, -, hop⟩ | ⟨haw', -⟩
    · have hfinds := finds_of_headerIs hp hh
      rw [hop] at hfinds
      exact Or.inl hfinds
    · exact absurd (haw.symm.trans haw') (by simp)
  · exact Or.inr hf

/-- The event is one of the client. -/
def ClientSide : LinkEvent → Prop
  | .server _ => False
  | _ => True

/-- Until it receives the bitmap, a client that waits for one does nothing on the connection. -/
theorem awaiting_step {l l' : Link} {e : LinkEvent} (hi : LinkInv cfg l) (ho : Orderly l e)
    (hc : ClientSide e) (haw : l.client.awaiting = true) (h : l.step cfg e = some l') :
    (∃ n, e = .bitmap n) ∨
      (l'.client.awaiting = true ∧ l'.client.socketUp = l.client.socketUp ∧ l'.conn = l.conn) := by
  have hnone := hi.alone haw
  have hphase : ∀ tid, l.client.phaseOf tid = none := fun tid => by
    rw [phaseOf, hnone tid, Option.map_none]
  cases e with
  | bitmap n => exact Or.inl ⟨n, rfl⟩
  | server e => exact hc.elim
  | metadata r => exact absurd (ho.2.2.symm.trans haw) (by simp)
  | send tid r =>
    obtain ⟨-, h⟩ := Option.ite_none_right_eq_some.mp h
    simp [Link.send, hphase] at h
  | recv tid r timedOut => simp [Link.step, Link.recv, hphase] at h
  | client e =>
    obtain ⟨hapart, h⟩ := Option.ite_none_right_eq_some.mp h
    obtain ⟨c, hs, rfl⟩ := Option.map_eq_some_iff.mp h
    refine Or.inr ?_
    cases stepCase_of_step hs with
    | metadata | bitmap => exact hapart.elim
    | pause haw' => exact absurd (haw'.symm.trans haw) (by simp)
    | launch hl =>
      have hfree := (ho.2 (Wire.begins_of_launches hl)).2
      exact absurd (hfree.symm.trans haw) (by simp)
    | idle => exact ⟨haw, rfl, rfl⟩
    | run hrun => simp [runThread, hnone] at hrun
    | endCancelled hth => simp [hnone] at hth

theorem toClient_step {l l' : Link} {e : LinkEvent} (hc : ClientSide e)
    (h : l.step cfg e = some l') : l'.conn.toClient.pending ≤ l.conn.toClient.pending := by
  cases e with
  | client e =>
    obtain ⟨-, h⟩ := Option.ite_none_right_eq_some.mp h
    obtain ⟨c, -, rfl⟩ := Option.map_eq_some_iff.mp h
    exact le_refl _
  | send tid r =>
    obtain ⟨-, h⟩ := Option.ite_none_right_eq_some.mp h
    unfold Link.send at h
    dsimp only at h
    split at h
    · obtain ⟨c, -, rfl⟩ := Option.map_eq_some_iff.mp h
      exact le_refl _
    · obtain ⟨c, -, rfl⟩ := Option.map_eq_some_iff.mp h
      exact le_refl _
    · cases h
  | recv tid r timedOut =>
    simp only [Link.step, Link.recv] at h
    split at h
    · split at h
      · obtain ⟨c, -, rfl⟩ := Option.map_eq_some_iff.mp h
        exact le_refl _
      · obtain ⟨-, h⟩ := Option.ite_none_right_eq_some.mp h
        obtain ⟨c, -, rfl⟩ := Option.map_eq_some_iff.mp h
        exact Nat.sub_le _ _
    · cases h
  | metadata r =>
    obtain ⟨-, h⟩ := Option.ite_none_right_eq_some.mp h
    obtain ⟨c, -, rfl⟩ := Option.map_eq_some_iff.mp h
    exact le_refl _
  | bitmap n =>
    obtain ⟨-, h⟩ := Option.ite_none_right_eq_some.mp h
    obtain ⟨c, -, rfl⟩ := Option.map_eq_some_iff.mp h
    exact Nat.sub_le _ _
  | server e => exact hc.elim

/-! ### The awaited bitmap -/

/-- While the client waits for a bitmap the server reads no chunk for it, and what is on the way to
it is a bitmap with the bits of `B`. -/
structure Awaited (B : Set Nat) (l : Link) : Prop where
  reads : l.conn.server.phase ≠ .chunkWrite
  sent : l.conn.toClient.pending ≠ 0 →
    ∃ m, l.conn.toClient.Holds 0 m l.conn.toClient.pending ∧ ∀ b ∈ B, bit m b = true

theorem metadata_of_awaiting {l l' : Link} {e : LinkEvent} (h : l.step cfg e = some l')
    (haw : l.client.awaiting = false) (haw' : l'.client.awaiting = true) :
    ∃ r, e = .metadata r := by
  rcases step_client h with ⟨g, hg, hs⟩ | ⟨-, hsame⟩
  · have hcase := stepCase_of_step hs
    generalize l'.client = c at hcase haw'
    cases hcase with
    | metadata =>
      cases e with
      | metadata r => exact ⟨r, rfl⟩
      | client e =>
        cases hg
        rw [step] at h
        obtain ⟨hapart, -⟩ := Option.ite_none_right_eq_some.mp h
        exact hapart.elim
      | send tid r =>
        rw [LinkEvent.clientPart] at hg
        split at hg <;> cases hg
      | recv | bitmap | server => cases hg
    | bitmap => cases haw'
    | pause | launch | idle | endCancelled => exact absurd (haw.symm.trans haw') (by simp)
    | run hrun => exact absurd (haw.symm.trans ((touches_run hrun).awaiting ▸ haw')) (by simp)
  · rw [hsame] at haw'
    exact absurd (haw.symm.trans haw') (by simp)

theorem LinkInv.idle_of_metadata {l : Link} {r : Option Nat} (hi : LinkInv cfg l)
    (ho : Orderly l (.metadata r)) (hup : l.client.socketUp = true) : Talk cfg l.conn none := by
  refine hi.idle hup ho.2.2 fun tid pos c hph => ?_
  rw [phaseOf, hi.single.none_of ho.2.1 tid] at hph
  cases hph

/-- **Step lemma.** -/
theorem awaited_step {B : Set Nat} {l l' : Link} {e : LinkEvent} (hi : LinkInv cfg l)
    (ho : Orderly l e) (hbits : ∀ m r, e = .server (.getBitmap m r) → ∀ b ∈ B, bit m b = true)
    (ha : l.client.awaiting = true → l.client.socketUp = true → Awaited B l)
    (h : l.step cfg e = some l') (haw' : l'.client.awaiting = true)
    (hup' : l'.client.socketUp = true) : Awaited B l' := by
  by_cases hc : ClientSide e
  · cases haw : l.client.awaiting with
    | true =>
      rcases awaiting_step hi ho hc haw h with ⟨n, rfl⟩ | ⟨-, hup, hconn⟩
      · -- the bitmap has arrived
        obtain ⟨-, h⟩ := Option.ite_none_right_eq_some.mp h
        obtain ⟨c, hs, rfl⟩ := Option.map_eq_some_iff.mp h
        obtain ⟨-, rfl⟩ := bitmap_received hs
        cases haw'
      · have hold := ha haw (hup.symm.trans hup')
        refine ⟨?_, ?_⟩
        · rw [hconn]
          exact hold.reads
        · rw [hconn]
          exact hold.sent
    | false =>
      obtain ⟨r, rfl⟩ := metadata_of_awaiting h haw haw'
      obtain ⟨-, h⟩ := Option.ite_none_right_eq_some.mp h
      obtain ⟨c, hs, rfl⟩ := Option.map_eq_some_iff.mp h
      obtain ⟨-, rfl⟩ := command_eq_some hs
      have hsock : l.client.requestMetadata.socketUp = l.client.socketUp := by
        unfold requestMetadata
        split <;> rfl
      cases hi.idle_of_metadata ho (hsock.symm.trans hup') with
      | idle h1 _ h3 =>
        refine ⟨?_, fun hne => absurd h1 hne⟩
        rcases h3 with h3 | h3 | ⟨h3, -⟩ <;> simp [h3]
  · cases e with
    | server f =>
      obtain ⟨c, hs, rfl⟩ := Option.map_eq_some_iff.mp h
      have hold := ha haw' hup'
      have hch := serverChange hs
      have hdata : ¬ l.conn.server.Finds cfg .data := by
        intro hf
        rcases hi.finds_of_awaiting hup' haw' hf.1 with hf' | hf' <;>
          exact absurd (finds_unique hf hf') (by simp)
      cases f with
      | recvHeader r =>
        have hto := hch.toClient (by simp) (by simp) (by simp)
        refine ⟨fun hp => ?_, ?_⟩
        · obtain ⟨_, _, hh⟩ := hch.reads hp
          cases hh
        · dsimp only
          rw [hto]
          exact hold.sent
      | getBitmap m r =>
        refine ⟨fun hp => ?_, ?_⟩
        · obtain ⟨_, _, hh⟩ := hch.reads hp
          cases hh
        · obtain ⟨hf, hs⟩ := Option.ite_none_right_eq_some.mp hs
          obtain ⟨-, hpend, -⟩ := hi.metadata_found hup' hf
          unfold Conn.getBitmap at hs
          dsimp only at hs
          split at hs
          · cases hs
            exact fun hne => absurd hpend hne
          · rename_i k _
            obtain ⟨-, hs⟩ := Option.ite_none_right_eq_some.mp hs
            cases hs
            intro _
            have hsum : (l.conn.toClient.send m k).pending = k := by
              show l.conn.toClient.pending + k = k
              omega
            have hholds := Stream.holds_send l.conn.toClient m k
            rw [hpend] at hholds
            dsimp only
            rw [hsum]
            exact ⟨m, hholds, hbits m _ rfl⟩
      | getData r m =>
        obtain ⟨hf, -⟩ := Option.ite_none_right_eq_some.mp hs
        exact absurd hf hdata
      | chunkWrite r =>
        obtain ⟨hp, -⟩ := Option.ite_none_right_eq_some.mp hs
        exact absurd hp hold.reads
      | terminate =>
        have hto := hch.toClient (by simp) (by simp) (by simp)
        refine ⟨fun hp => ?_, ?_⟩
        · obtain ⟨_, _, hh⟩ := hch.reads hp
          cases hh
        · dsimp only
          rw [hto]
          exact hold.sent
      | other m k =>
        obtain ⟨⟨hp, h1, -, h3⟩, -⟩ := Option.ite_none_right_eq_some.mp hs
        exact ((hi.finds_of_awaiting hup' haw' hp).elim h1 h3).elim
    | _ => exact absurd trivial hc

/-! ### Transfers -/

theorem not_inTransfer_resyncInit {s : Client} {pos : Nat} (h : ∀ t, s.thread t = none) :
    ¬ InTransfer (s.resyncInit pos) := by
  rintro ⟨tid, pos', c, hph⟩
  rcases hph with hph | hph
  · cases phaseOf_resyncInit h tid _ hph
  · cases phaseOf_resyncInit h tid _ hph

theorem inTransfer_apart {g : Geometry} {s s' : Client} {e : Client.Event} (hs : Single s)
    (hapart : Apart s e)
    (halone : Wire.Begins s e → (∀ t < s.nextTid, s.thread t = none) ∧ s.awaiting = false)
    (h : s.step g e = some s') (ht : InTransfer s') : InTransfer s := by
  cases stepCase_of_step h with
  | metadata | bitmap => exact hapart.elim
  | pause | idle => exact ht.congr rfl
  | launch hl =>
    have hnone := hs.none_of (halone (Wire.begins_of_launches hl)).1
    exact absurd ht (not_inTransfer_resyncInit hnone)
  | @endCancelled tid ph hth =>
    have htouch : Touches tid s (s.endThread tid) :=
      touches_endThread tid ⟨⟨rfl, rfl, rfl⟩, rfl, id, rfl⟩
    obtain ⟨t, pos, c, hph⟩ := ht
    exfalso
    rcases hph with hph | hph <;>
    · obtain rfl := phaseOf_touches hs hth htouch hph
      simp [phaseOf, endThread] at hph
  | @run tid ok _ hrun =>
    obtain ⟨⟨ph, x⟩, hth, -⟩ := Option.bind_eq_some_iff.mp h
    have hphase : s.phaseOf tid = some ph := by rw [phaseOf, hth, Option.map_some]
    obtain ⟨pos, c, hph⟩ := ht.of_touches hs hth (touches_run hrun)
    have hnext := nextOk_run hth hapart hrun
    rcases hph with hph | hph
    · -- only a send leads to a receive
      obtain ⟨th', hth', hp⟩ := Option.map_eq_some_iff.mp hph
      rw [Apart, hphase] at hapart
      exfalso
      cases threadStep_of_run hth hrun with
      | sent | received | sendLost | recvLost | sendTermination => exact hapart.elim
      | chunkReleased | connLost | completed | release => simp [endThread] at hth'
      | @look pos' _ _ m =>
        rw [Wire.setPhase_phase hth'] at hp
        split at hp <;> cases hp
      | _ =>
        rw [Wire.setPhase_phase hth'] at hp
        cases hp
    · obtain ⟨th', hth', hp⟩ := Option.map_eq_some_iff.mp hph
      have hno := hnext th' hth'
      rw [hp] at hno
      exact hno.elim

/-- **Step lemma.** A thread in a transfer stays with the last request, or a new request has no read
yet. -/
theorem transfer_step {l l' : Link} {e : LinkEvent} (hi : LinkInv cfg l) (ho : Orderly l e)
    (hread : ∀ r m, e ≠ .server (.getData r m)) (h : l.step cfg e = some l')
    (ht : InTransfer l'.client) :
    (InTransfer l.client ∧ l'.conn.server.served = l.conn.server.served ∧
        l'.conn.asked = l.conn.asked) ∨
      l'.conn.server.served.length ≠ l'.conn.asked := by
  cases e with
  | client e =>
    obtain ⟨hapart, h⟩ := Option.ite_none_right_eq_some.mp h
    obtain ⟨c, hs, rfl⟩ := Option.map_eq_some_iff.mp h
    exact Or.inl ⟨inTransfer_apart hi.single hapart ho.2 hs ht, rfl, rfl⟩
  | send tid r =>
    obtain ⟨hacc, h⟩ := Option.ite_none_right_eq_some.mp h
    unfold Link.send at h
    dsimp only at h
    split at h
    case h_3 => cases h
    all_goals
      rename_i hph
      obtain ⟨c, hc, rfl⟩ := Option.map_eq_some_iff.mp h
      obtain ⟨⟨ph, x⟩, hth, hp⟩ := Option.map_eq_some_iff.mp hph
      dsimp only at hp
      subst hp
      obtain ⟨pos', c', hph'⟩ := ht.of_touches hi.single hth (touches_run hc)
    · cases threadStep_of_run hth hc with
      | sent hx hok hup =>
        -- the request that is sent now is the only one without its read
        obtain ⟨q, b, a, hw, ha, htalk⟩ := hi.talk hup
        obtain rfl := ha.eq_none hw hth (by simp)
        obtain ⟨n, rfl⟩ := Option.isSome_iff_exists.mp hok
        refine Or.inr ?_
        cases htalk with
        | idle _ _ _ hcount =>
          dsimp only [Option.isSome_some]
          rw [if_pos rfl, hcount]
          omega
      | sendLost =>
        exfalso
        rcases hph' with hph' | hph' <;>
        · obtain ⟨th', hth', hp⟩ := Option.map_eq_some_iff.mp hph'
          rw [Wire.setPhase_phase hth'] at hp
          cases hp
    · exfalso
      cases threadStep_of_run hth hc
      rcases hph' with hph' | hph' <;>
      · obtain ⟨th', hth', hp⟩ := Option.map_eq_some_iff.mp hph'
        rw [Wire.setPhase_phase hth'] at hp
        cases hp
  | recv tid r timedOut =>
    simp only [Link.step, Link.recv] at h
    split at h
    case h_2 => cases h
    rename_i pos c hph
    have hin : InTransfer l.client := ⟨tid, pos, c, Or.inl hph⟩
    split at h
    · obtain ⟨c, -, rfl⟩ := Option.map_eq_some_iff.mp h
      exact Or.inl ⟨hin, rfl, rfl⟩
    · obtain ⟨-, h⟩ := Option.ite_none_right_eq_some.mp h
      obtain ⟨c, -, rfl⟩ := Option.map_eq_some_iff.mp h
      exact Or.inl ⟨hin, rfl, rfl⟩
  | metadata r =>
    obtain ⟨-, h⟩ := Option.ite_none_right_eq_some.mp h
    obtain ⟨c, hs, rfl⟩ := Option.map_eq_some_iff.mp h
    obtain ⟨-, rfl⟩ := command_eq_some hs
    exact Or.inl ⟨ht.congr (sameSlot_requestMetadata _).thread, rfl, rfl⟩
  | bitmap n =>
    obtain ⟨-, h⟩ := Option.ite_none_right_eq_some.mp h
    obtain ⟨c, hs, rfl⟩ := Option.map_eq_some_iff.mp h
    obtain ⟨-, rfl⟩ := bitmap_received hs
    exact Or.inl ⟨ht.congr rfl, rfl, rfl⟩
  | server f =>
    obtain ⟨c, hs, rfl⟩ := Option.map_eq_some_iff.mp h
    have hch := serverChange hs
    refine Or.inl ⟨ht, hch.served fun r m hf => ?_, hch.asked⟩
    exact hread r m (by rw [hf])

/-! ### Terminations on the way -/

/-- No termination header is on its way to the server, and it looks at none. -/
structure NoEnd (cfg : Config) (c : Conn) : Prop where
  found : ¬ c.server.Finds cfg .rplcTermination
  queued : ∀ m, IsTermination cfg m → ¬ c.toServer.Holds 0 m headerSize

theorem noEnd_of_empty {c : Conn} (h : c.toServer.pending = 0)
    (hf : ¬ c.server.Finds cfg .rplcTermination) : NoEnd cfg c where
  found := hf
  queued := by
    intro m _ hold
    have hle := hold.le
    unfold headerSize at hle
    omega

theorem not_holds_termination {s : Stream} {h : ClientHeader} {k : Nat}
    (hop : h.opcode ≠ .rplcTermination) (hempty : s.pending = 0) (hk : k ≤ headerSize) {m : Mem}
    (hm : IsTermination cfg m) : ¬ (s.send (h.encode cfg) k).Holds 0 m headerSize := by
  rintro ⟨hle, heq⟩
  obtain ⟨t, ht, rfl⟩ := hm
  have hsum : (s.send (h.encode cfg) k).pending = s.pending + k := rfl
  obtain rfl : k = headerSize := by omega
  have hnew := (Stream.holds_send s (h.encode cfg) headerSize).eq
  rw [hempty] at hnew
  have hcode : loadLE (t.encode cfg) 4 4 = loadLE (h.encode cfg) 4 4 := by
    apply loadLE_congr
    intro i hi
    have hlt : 4 + i < headerSize := by
      unfold headerSize
      omega
    rw [← heq _ hlt, hnew _ hlt]
  rw [opcode_encode, opcode_encode, ht] at hcode
  exact hop (code_injective hcode.symm)

theorem NoEnd.empty {c : Conn} (h : NoEnd cfg c) {n : Nat} {m : Mem} {k : Nat}
    (hq : c.toServer.Queue headerSize (IsTermination cfg) n m k) : n = 0 ∧ c.toServer.pending = k := by
  have hn : n = 0 := by
    by_contra hne
    obtain ⟨x, hx, hold⟩ := hq.whole 0 (Nat.pos_of_ne_zero hne)
    exact h.queued x hx hold
  subst hn
  refine ⟨rfl, ?_⟩
  have hpend := hq.pending
  omega

theorem NoEnd.recvHeader {c c' : Conn} {a : Option ClientHeader} {r : Option Nat}
    (h : NoEnd cfg c) (ht : Talk cfg c a)
    (hask : ∀ x, a = some x → x.opcode = .data ∨ x.opcode = .bitmapMetadata)
    (hr : r = none ∨ r = some headerSize)
    (hc : c.recvHeader true r = some c') : NoEnd cfg c' := by
  unfold Conn.recvHeader at hc
  rcases hr with rfl | rfl
  · dsimp only at hc
    split at hc <;>
    · cases hc
      exact ⟨by simp [ServerThread.Finds], h.queued⟩
  · obtain ⟨⟨-, -, hle, -⟩, hc⟩ := Option.ite_none_right_eq_some.mp hc
    have hpos : 0 < headerSize := by decide
    rw [← Option.some.inj hc]
    cases ht with
    | idle _ h2 =>
      obtain ⟨-, hpend⟩ := h.empty h2
      omega
    | arrived _ h2 | read _ h2 | answered h2 | bitmapSent _ h2 | refused _ h2 => omega
    | @queued x n k h1 h2 h3 =>
      obtain ⟨rfl, hpend⟩ := h.empty h2
      obtain rfl : k = headerSize := by omega
      have hfinds := finds_of_headerIs (h := x) (t := { c.server with
        phase := .dispatch
        header := c.toServer.fill c.server.header headerSize }) rfl (Stream.Holds.fill h2.last)
      refine noEnd_of_empty ?_ fun hf => ?_
      · show c.toServer.pending - headerSize = 0
        omega
      · have hop := finds_unique hfinds hf
        rcases hask x rfl with hx | hx <;> rw [hx] at hop <;> cases hop

/-- **Step lemma.** Nobody but a thread that sends its termination puts one on the way. -/
theorem noEnd_step {l l' : Link} {e : LinkEvent} (hi : LinkInv cfg l) (ho : Orderly l e)
    (hup : ¬ ClientSide e → l.client.socketUp = true)
    (hsend : ∀ tid r, e = .send tid r → l.client.phaseOf tid ≠ some .sendTermination)
    (hn : NoEnd cfg l.conn) (h : l.step cfg e = some l') : NoEnd cfg l'.conn := by
  cases e with
  | client e =>
    obtain ⟨-, h⟩ := Option.ite_none_right_eq_some.mp h
    obtain ⟨c, -, rfl⟩ := Option.map_eq_some_iff.mp h
    exact hn
  | send tid r =>
    obtain ⟨hacc, h⟩ := Option.ite_none_right_eq_some.mp h
    unfold Link.send at h
    dsimp only at h
    split at h
    case h_2 hph => exact absurd hph (hsend tid r rfl)
    case h_3 => cases h
    rename_i pos k hph
    obtain ⟨c, hc, rfl⟩ := Option.map_eq_some_iff.mp h
    cases r with
    | none => exact ⟨hn.found, hn.queued⟩
    | some n =>
      obtain ⟨⟨ph, x⟩, hth, hp⟩ := Option.map_eq_some_iff.mp hph
      dsimp only at hp
      subst hp
      obtain ⟨q, b, a, hw, ha, ht⟩ := hi.talk hacc.2
      obtain rfl := ha.eq_none hw hth (by simp)
      obtain ⟨hheader, -⟩ := hw.flight _ (hw.single.eq_slot hth ▸ hth)
      have hop : l.client.header.opcode ≠ .rplcTermination := by
        rw [show l.client.header = ⟨.data, pos, k⟩ from hheader]
        simp
      cases ht with
      | idle _ h2 =>
        obtain ⟨-, hpend⟩ := hn.empty h2
        exact ⟨hn.found, fun m hm => not_holds_termination hop hpend hacc.1 hm⟩
  | recv tid r timedOut =>
    simp only [Link.step, Link.recv] at h
    split at h
    case h_2 => cases h
    split at h
    · obtain ⟨c, -, rfl⟩ := Option.map_eq_some_iff.mp h
      exact hn
    · obtain ⟨-, h⟩ := Option.ite_none_right_eq_some.mp h
      obtain ⟨c, -, rfl⟩ := Option.map_eq_some_iff.mp h
      exact ⟨hn.found, hn.queued⟩
  | metadata r =>
    obtain ⟨hacc, h⟩ := Option.ite_none_right_eq_some.mp h
    obtain ⟨c, hs, rfl⟩ := Option.map_eq_some_iff.mp h
    obtain ⟨-, rfl⟩ := command_eq_some hs
    cases r with
    | none => exact ⟨hn.found, hn.queued⟩
    | some n =>
      cases hi.idle_of_metadata ho hacc.2 with
      | idle _ h2 =>
        obtain ⟨-, hpend⟩ := hn.empty h2
        have hop : l.client.requestMetadata.header.opcode ≠ .rplcTermination := by
          simp [requestMetadata]
        exact ⟨hn.found, fun m hm => not_holds_termination hop hpend hacc.1 hm⟩
  | bitmap n =>
    obtain ⟨-, h⟩ := Option.ite_none_right_eq_some.mp h
    obtain ⟨c, -, rfl⟩ := Option.map_eq_some_iff.mp h
    exact ⟨hn.found, hn.queued⟩
  | server f =>
    have hup' := hup id
    obtain ⟨c, hs, rfl⟩ := Option.map_eq_some_iff.mp h
    have hch := serverChange hs
    by_cases hf : ∃ r, f = .recvHeader r
    · obtain ⟨r, rfl⟩ := hf
      obtain ⟨q, b, a, hw, ha, ht⟩ := hi.talk hup'
      have hwhole : WholeServer (.recvHeader r) := ho.1.resolve_left (by simp [hup'])
      rw [hup'] at hs
      obtain ⟨-, hs⟩ := Option.ite_none_right_eq_some.mp hs
      exact hn.recvHeader ht ha.ask hwhole hs
    · refine ⟨fun hfound => hf (hch.dispatch hfound.1), ?_⟩
      rw [hch.toServer fun r hr => hf ⟨r, hr⟩]
      exact hn.queued

end Link

end Ebdr
