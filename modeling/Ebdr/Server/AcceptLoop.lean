import Ebdr.Server.Connections

/-!
# The slot an accepted connection gets

`replic_thread_init` scans the slots, and the thread it creates takes the slot that the entry of
`sockfd_pid_var` names. Only the branches that resume a connection store that name; after the others
the thread reads 0, or what an earlier connection left there. `Leads` says which entry and slot an
accept leads to, without the loop (`leads_iff`).

When every accept leads to a slot that has no open connection and that no waiting thread will take,
no accept disturbs a connection (`accept_slot_choice`). The entry `MAX_CONN + 1`, which every accept
uses, is past the end of its array.
-/

namespace Ebdr

open Lts

namespace NetServer

/-- `MAX_CONN`; `ebdr_conn_server` has one entry more. -/
def maxConn : Nat := 2048

/-! ### The scan -/

/-- One of the tests of the loop succeeds. -/
def Stops (s : NetServer) (pid : Nat) : Prop :=
  s.Resumable pid ∨ s.Recoverable pid ∨ s.numRows ≤ s.net.totalConn ∨
    s.net.partnerCreated pid = false

/-- The loop comes to the slot. -/
def Reaches (s : NetServer) (k : Nat) : Prop :=
  s.numRows ≠ 0 ∧ k ≤ s.numRows ∧ ∀ i < k, ¬ s.Stops i

/-- The loop stops at the slot, and the new connection takes over from its old one. -/
def TakesOver (s : NetServer) (k : Nat) : Prop :=
  s.Reaches k ∧ (s.Resumable k ∨ s.Recoverable k)

/-- The accept uses entry `k`, and its thread will take the slot `r`. -/
inductive Leads (s : NetServer) : Nat → Nat → Prop where
  | first (h : s.numRows = 0) : Leads s 0 0
  | takeOver {k : Nat} (h : s.TakesOver k) : Leads s k k
  | stop {k : Nat} (h : s.Reaches k) (here : s.Stops k)
      (other : ¬ (s.Resumable k ∨ s.Recoverable k)) : Leads s k (s.net.entry k).pid
  | unmatched (h : s.numRows ≠ 0) (before : ∀ i ≤ s.numRows, ¬ s.Stops i) :
    Leads s (s.numRows + 1) (s.net.entry (s.numRows + 1)).pid

variable {s s' : NetServer}

/-- Why the loop ended as it did. -/
def Ends (s : NetServer) : Choice → Prop
  | .first => s.numRows = 0
  | .resume k | .recover k => s.TakesOver k
  | .full k | .create k => s.Reaches k ∧ s.Stops k ∧ ¬ (s.Resumable k ∨ s.Recoverable k)
  | .unmatched k => k = s.numRows + 1 ∧ s.numRows ≠ 0 ∧ ∀ i ≤ s.numRows, ¬ s.Stops i

theorem not_stops {pid : Nat} (hres : ¬ s.Resumable pid) (hrec : ¬ s.Recoverable pid)
    (hfull : ¬ s.net.totalConn ≥ s.numRows) (hnew : ¬ s.net.partnerCreated pid = false) :
    ¬ s.Stops pid := by
  rintro (h | h | h | h)
  · exact hres h
  · exact hrec h
  · exact hfull h
  · exact hnew h

theorem ends_scan (hrows : s.numRows ≠ 0) (n pid : Nat) (hn : pid + n = s.numRows + 1)
    (before : ∀ i < pid, ¬ s.Stops i) : s.Ends (s.scan n pid) := by
  induction n generalizing pid with
  | zero =>
    obtain rfl : pid = s.numRows + 1 := by omega
    exact ⟨rfl, hrows, fun i hi => before i (by omega)⟩
  | succ n ih =>
    have hreach : s.Reaches pid := ⟨hrows, by omega, before⟩
    rw [scan]
    split
    · rename_i h
      exact ⟨hreach, .inl h⟩
    · rename_i hres
      split
      · rename_i h
        exact ⟨hreach, .inr h⟩
      · rename_i hrec
        have hno : ¬ (s.Resumable pid ∨ s.Recoverable pid) := fun hor => hor.elim hres hrec
        split
        · rename_i h
          exact ⟨hreach, .inr (.inr (.inl h)), hno⟩
        · rename_i hfull
          split
          · rename_i h
            exact ⟨hreach, .inr (.inr (.inr h)), hno⟩
          · rename_i hnew
            apply ih (pid + 1) (by omega)
            intro i hi
            by_cases heq : i = pid
            · rw [heq]
              exact not_stops hres hrec hfull hnew
            · exact before i (by omega)

theorem ends_choose (s : NetServer) : s.Ends s.choose := by
  unfold choose
  split
  · rename_i h
    exact h
  · rename_i h
    apply ends_scan h
    · omega
    · intro i hi
      omega

theorem leads_choose (s : NetServer) : Leads s s.choose.pid (s.takenPid s.choose) := by
  have hends := ends_choose s
  cases hch : s.choose with
  | first =>
    rw [hch] at hends
    exact .first hends
  | resume k | recover k =>
    rw [hch] at hends
    exact .takeOver hends
  | full k | create k =>
    rw [hch] at hends
    exact .stop hends.1 hends.2.1 hends.2.2
  | unmatched k =>
    rw [hch] at hends
    obtain ⟨rfl, hrows, hall⟩ := hends
    exact .unmatched hrows hall

theorem TakesOver.stops {k : Nat} (h : s.TakesOver k) : s.Stops k :=
  h.2.elim .inl fun hrec => .inr (.inl hrec)

theorem Reaches.unique {i j : Nat} (hi : s.Reaches i) (hj : s.Reaches j) (hsi : s.Stops i)
    (hsj : s.Stops j) : i = j := by
  rcases Nat.lt_trichotomy i j with hlt | heq | hgt
  · exact absurd hsi (hj.2.2 i hlt)
  · exact heq
  · exact absurd hsj (hi.2.2 j hgt)

theorem resumed_iff {k : Nat} : s.choose.resumed = some k ↔ s.TakesOver k := by
  have hends := ends_choose s
  constructor
  · intro h
    cases hch : s.choose with
    | resume i | recover i =>
      rw [hch] at hends h
      obtain rfl : i = k := Option.some.inj h
      exact hends
    | first | full i | create i | unmatched i =>
      rw [hch] at h
      cases h
  · intro h
    cases hch : s.choose with
    | resume i | recover i =>
      rw [hch] at hends
      obtain rfl : i = k := hends.1.unique h.1 hends.stops h.stops
      rfl
    | first =>
      rw [hch] at hends
      exact absurd hends h.1.1
    | full i | create i =>
      rw [hch] at hends
      obtain rfl : i = k := hends.1.unique h.1 hends.2.1 h.stops
      exact absurd h.2 hends.2.2
    | unmatched i =>
      rw [hch] at hends
      exact absurd h.stops (hends.2.2 k h.1.2.1)

instance (s : NetServer) (k : Nat) : Decidable (s.TakesOver k) := decidable_of_iff _ resumed_iff

theorem Leads.unique {k k' r r' : Nat} (h : Leads s k r) (h' : Leads s k' r') :
    k = k' ∧ r = r' := by
  cases h with
  | first h0 =>
    cases h' with
    | first => exact ⟨rfl, rfl⟩
    | takeOver h1 => exact absurd h0 h1.1.1
    | stop h1 => exact absurd h0 h1.1
    | unmatched h1 => exact absurd h0 h1
  | takeOver h0 =>
    cases h' with
    | first h1 => exact absurd h1 h0.1.1
    | takeOver h1 =>
      obtain rfl := h0.1.unique h1.1 h0.stops h1.stops
      exact ⟨rfl, rfl⟩
    | stop h1 hhere hother =>
      obtain rfl := h0.1.unique h1 h0.stops hhere
      exact absurd h0.2 hother
    | unmatched _ hall => exact absurd h0.stops (hall _ h0.1.2.1)
  | stop h0 hhere hother =>
    cases h' with
    | first h1 => exact absurd h1 h0.1
    | takeOver h1 =>
      obtain rfl := h0.unique h1.1 hhere h1.stops
      exact absurd h1.2 hother
    | stop h1 hhere' =>
      obtain rfl := h0.unique h1 hhere hhere'
      exact ⟨rfl, rfl⟩
    | unmatched _ hall => exact absurd hhere (hall _ h0.2.1)
  | unmatched h0 hall =>
    cases h' with
    | first h1 => exact absurd h1 h0
    | takeOver h1 => exact absurd h1.stops (hall _ h1.1.2.1)
    | stop h1 hhere => exact absurd hhere (hall _ h1.2.1)
    | unmatched => exact ⟨rfl, rfl⟩

theorem leads_iff {k r : Nat} :
    Leads s k r ↔ k = s.choose.pid ∧ r = s.takenPid s.choose := by
  constructor
  · intro h
    exact h.unique (leads_choose s)
  · rintro ⟨rfl, rfl⟩
    exact leads_choose s

/-! ### What an accept must not do -/

/-- The slots with an open connection keep it. -/
def KeepsConns (s s' : NetServer) : Prop :=
  ∀ pid, s.net.Active pid → (s'.net.conn pid).stored = (s.net.conn pid).stored

/-- The slot for the new thread has no open connection, and neither the accept nor the thread, when
it starts, overwrites one. -/
def SlotSafe (s : NetServer) : Event → Prop
  | .accept n => ∀ s', s.acceptConn n = some s' →
    (∀ k, s'.net.thread s.net.nextConn = some (.created k) →
      ¬ s.net.Active (s'.net.entry k).pid) ∧ KeepsConns s s'
  | .start t => ∀ s', s.step (.start t) = some s' → KeepsConns s s'
  | _ => True

/-- Every thread that was not started yet, with its entry. -/
def ForWaiting (s : NetServer) (P : Nat → SockfdPid → Prop) : Prop :=
  ∀ t < s.net.nextConn, ∀ k, s.net.thread t = some (.created k) → P k (s.net.entry k)

/-- An accept leads to a slot that has no open connection and that no thread waits for by another
entry; a `MAKE_PARTNER` puts the latest connection into no slot that another one is about to take. -/
def SlotFree (s : NetServer) : Event → Prop
  | .accept _ => ∀ k r, s.reload.Leads k r →
    ¬ s.net.Active r ∧ s.ForWaiting fun k' e => e.pid = r → k' = k
  | .recv _ _ (.makePartner pid _ _ _ _) _ =>
    s.net.sock s.net.shared.stored.num = some s.net.shared.stored.conn →
      s.ForWaiting fun _ e => e.pid = pid → e.sockfd = s.net.shared.stored
  | _ => True

instance {o : Option SendRecvThread} {P : Nat → Prop} [∀ k, Decidable (P k)] :
    Decidable (∀ k, o = some (.created k) → P k) :=
  match o with
  | some (.created k) => decidable_of_iff (P k)
      ⟨fun h l hl => by rwa [← SendRecvThread.created.inj (Option.some.inj hl)], fun h => h k rfl⟩
  | some (.serving _) => isTrue nofun
  | none => isTrue nofun

instance (s : NetServer) (P : Nat → SockfdPid → Prop) [∀ k e, Decidable (P k e)] :
    Decidable (s.ForWaiting P) :=
  inferInstanceAs (Decidable (∀ t < s.net.nextConn, ∀ k, s.net.thread t = some (.created k) →
    P k (s.net.entry k)))

instance (s : NetServer) (e : Event) : Decidable (SlotFree s e) :=
  match e with
  | .accept _ => decidable_of_iff (¬ s.net.Active (s.reload.takenPid s.reload.choose) ∧
      s.ForWaiting fun k' e => e.pid = s.reload.takenPid s.reload.choose → k' = s.reload.choose.pid)
      ⟨fun h k r hl => by
        obtain ⟨rfl, rfl⟩ := leads_iff.mp hl
        exact h, fun h => h _ _ (leads_choose s.reload)⟩
  | .recv _ _ (.makePartner ..) _ => inferInstanceAs (Decidable (_ → _))
  | .recv _ _ (.bitmapMetadata _) _ | .recv _ _ (.data ..) _ | .recv _ _ (.removePartner _) _
  | .recv _ _ (.rmRelation _) _ | .recv _ _ (.syn _) _ | .recv _ _ (.ack _) _
  | .recv _ _ (.rplcTermination _) _ | .recv _ _ (.dataReq _) _ | .recv _ _ (.verifyData _) _
  | .start _ | .recvFails _ | .goOn .. | .recoveryPass _ | .createDisk .. | .saveIoctl
  | .restoreIoctl | .write .. => isTrue trivial

/-! ### The invariant -/

/-- Connections have numbers that were given out, and what the waiting threads will store disturbs
nothing. -/
structure SlotInv (s : NetServer) : Prop where
  stored : ∀ pid, (s.net.conn pid).stored.conn < s.net.nextConn
  shared : s.net.shared.stored.conn < s.net.nextConn
  entry : ∀ k, (s.net.entry k).sockfd.conn < s.net.nextConn
  thread : ∀ t k, s.net.thread t = some (.created k) → t < s.net.nextConn
  awaited : ∀ t k, s.net.thread t = some (.created k) → s.net.Active (s.net.entry k).pid →
    (s.net.conn (s.net.entry k).pid).stored = (s.net.entry k).sockfd
  alone : ∀ t k t' k', s.net.thread t = some (.created k) → s.net.thread t' = some (.created k') →
    (s.net.entry k).pid = (s.net.entry k').pid → (s.net.entry k).sockfd = (s.net.entry k').sockfd

theorem slotInv_boot (daemon : ServerDaemon) (recoveryMode : Nat → Bool)
    (round : Nat → BitmapRound) : SlotInv (boot daemon recoveryMode round) where
  stored := fun _ => Nat.one_pos
  shared := Nat.one_pos
  entry := fun _ => Nat.one_pos
  thread := nofun
  awaited := nofun
  alone := nofun

theorem SlotInv.calm (hi : SlotInv s) (h : s.net.Calm s'.net) : SlotInv s' where
  stored := by
    intro pid
    rw [h.stored, h.nextConn]
    exact hi.stored pid
  shared := by
    rw [h.shared, h.nextConn]
    exact hi.shared
  entry := by
    intro k
    rw [h.entry, h.nextConn]
    exact hi.entry k
  thread := by
    intro t k ht
    rw [h.nextConn]
    exact hi.thread t k (h.created t k ht)
  awaited := by
    intro t k ht ha
    rw [h.entry] at ha ⊢
    rw [h.stored]
    exact hi.awaited t k (h.created t k ht) (h.active ha)
  alone := by
    intro t k t' k' ht ht' hpid
    rw [h.entry] at hpid ⊢
    exact hi.alone t k t' k' (h.created t k ht) (h.created t' k' ht') hpid

theorem SlotInv.makePartner (hi : SlotInv s) {pid : Nat}
    (hfree : s.net.sock s.net.shared.stored.num = some s.net.shared.stored.conn →
      s.ForWaiting fun _ e => e.pid = pid → e.sockfd = s.net.shared.stored)
    (hconn : s'.net.conn = Function.update s.net.conn pid s.net.shared)
    (hshared : s'.net.shared = s.net.shared) (hentry : s'.net.entry = s.net.entry)
    (hnext : s'.net.nextConn = s.net.nextConn) (hthread : s'.net.thread = s.net.thread)
    (hsock : s'.net.sock = s.net.sock) : SlotInv s' where
  stored := by
    intro q
    rw [hconn, hnext]
    by_cases hq : q = pid
    · rw [hq, Function.update_self]
      exact hi.shared
    · rw [Function.update_of_ne hq]
      exact hi.stored q
  shared := by
    rw [hshared, hnext]
    exact hi.shared
  entry := by
    rw [hentry, hnext]
    exact hi.entry
  thread := by
    rw [hthread, hnext]
    exact hi.thread
  awaited := by
    intro t k ht ha
    rw [hthread] at ht
    unfold Net.Active at ha
    rw [hconn, hsock, hentry] at ha
    rw [hconn, hentry]
    by_cases hq : (s.net.entry k).pid = pid
    · rw [hq, Function.update_self] at ha
      rw [hq, Function.update_self]
      exact (hfree ha t (hi.thread t k ht) k ht hq).symm
    · rw [Function.update_of_ne hq] at ha ⊢
      exact hi.awaited t k ht ha
  alone := by
    rw [hthread, hentry]
    exact hi.alone

theorem SlotInv.start (hi : SlotInv s) {t k : Nat} (ht : s.net.thread t = some (.created k)) :
    SlotInv (s.startThread t k) := by
  have hconn : (s.startThread t k).net.conn = Function.update s.net.conn (s.net.entry k).pid
      { s.net.conn (s.net.entry k).pid with
        connFd := (s.net.entry k).sockfd
        stored := (s.net.entry k).sockfd } := rfl
  have hthread : ∀ u l, (s.startThread t k).net.thread u = some (.created l) →
      s.net.thread u = some (.created l) := by
    intro u l hu
    have hu' : Function.update s.net.thread t (some (.serving (s.net.entry k).sockfd.num)) u =
        some (.created l) := hu
    by_cases hut : u = t
    · rw [hut] at hu'
      simp at hu'
    · rwa [Function.update_of_ne hut] at hu'
  refine ⟨?_, hi.shared, hi.entry, fun u l hu => hi.thread u l (hthread u l hu), ?_,
    fun u l u' l' hu hu' => hi.alone u l u' l' (hthread u l hu) (hthread u' l' hu')⟩
  · intro q
    rw [hconn]
    by_cases hq : q = (s.net.entry k).pid
    · rw [hq, Function.update_self]
      exact hi.entry k
    · rw [Function.update_of_ne hq]
      exact hi.stored q
  · intro u l hu ha
    have hu' := hthread u l hu
    change (s.startThread t k).net.Active (s.net.entry l).pid at ha
    change ((s.startThread t k).net.conn (s.net.entry l).pid).stored = (s.net.entry l).sockfd
    unfold Net.Active at ha
    rw [hconn] at ha ⊢
    by_cases hq : (s.net.entry l).pid = (s.net.entry k).pid
    · rw [hq, Function.update_self]
      exact hi.alone t k u l ht hu' hq.symm
    · rw [Function.update_of_ne hq] at ha ⊢
      exact hi.awaited u l hu' ha

/-- A connection that is open under a number given out by this accept is the new one. -/
theorem AcceptStep.active {n : Int} {ch : Choice} (h : AcceptStep s s' n ch) (hi : SlotInv s)
    {pid : Nat} (hsame : (s'.net.conn pid).stored = (s.net.conn pid).stored)
    (ha : s'.net.Active pid) : s.net.Active pid := by
  unfold Net.Active at ha ⊢
  rw [hsame, h.sock] at ha
  by_cases hn : (s.net.conn pid).stored.num = n
  · rw [hn, Function.update_self] at ha
    have hlt := hi.stored pid
    have heq := Option.some.inj ha
    omega
  · rwa [Function.update_of_ne hn] at ha

theorem AcceptStep.stored {n : Int} {ch : Choice} (h : AcceptStep s s' n ch) (pid : Nat) :
    (s'.net.conn pid).stored = (s.net.conn pid).stored ∨
      (pid = s.takenPid ch ∧ (s'.net.conn pid).stored = ⟨n, s.net.nextConn⟩) := by
  by_cases hr : ch.resumed = some pid
  · have hpid : pid = s.takenPid ch := by
      cases ch with
      | resume q | recover q => exact (Option.some.inj hr).symm
      | first | full q | create q | unmatched q => cases hr
    exact .inr ⟨hpid, h.resumedConn pid hr⟩
  · left
    rw [h.conn pid hr]

theorem SlotInv.accept (hi : SlotInv s) {n : Int} {ch : Choice} (h : AcceptStep s s' n ch)
    (hfree : ¬ s.net.Active (s.takenPid ch)) 
    (halone : s.ForWaiting fun k' e => e.pid = s.takenPid ch → k' = ch.pid) :
    SlotInv s' := by
  have hentry : ∀ k, k ≠ ch.pid → s'.net.entry k = s.net.entry k := by
    intro k hk
    rw [h.entry, Function.update_of_ne hk]
  have hself : s'.net.entry ch.pid = ⟨⟨n, s.net.nextConn⟩, s.takenPid ch⟩ := by
    rw [h.entry, Function.update_self]
  -- the waiting threads: those of the entry, the new one among them, and others with other slots
  have hwait : ∀ t k, s'.net.thread t = some (.created k) → k = ch.pid ∨
      (k ≠ ch.pid ∧ s.net.thread t = some (.created k) ∧
        (s.net.entry k).pid ≠ s.takenPid ch) := by
    intro t k ht
    by_cases hk : k = ch.pid
    · exact .inl hk
    · right
      rw [h.thread] at ht
      have hne : t ≠ s.net.nextConn := by
        intro heq
        rw [heq, Function.update_self] at ht
        exact hk (SendRecvThread.created.inj (Option.some.inj ht)).symm
      rw [Function.update_of_ne hne] at ht
      exact ⟨hk, ht, fun hpid => hk (halone t (hi.thread t k ht) k ht hpid)⟩
  refine ⟨?_, ?_, ?_, ?_, ?_, ?_⟩
  · intro pid
    rw [h.nextConn]
    rcases h.stored pid with heq | ⟨-, hnew⟩
    · rw [heq]
      exact Nat.lt_succ_of_lt (hi.stored pid)
    · rw [hnew]
      exact Nat.lt_succ_self _
  · rw [h.nextConn, h.shared]
    exact Nat.lt_succ_self _
  · intro k
    rw [h.nextConn]
    by_cases hk : k = ch.pid
    · rw [hk, hself]
      exact Nat.lt_succ_self _
    · rw [hentry k hk]
      exact Nat.lt_succ_of_lt (hi.entry k)
  · intro t k ht
    rw [h.nextConn]
    rw [h.thread] at ht
    by_cases hne : t = s.net.nextConn
    · omega
    · rw [Function.update_of_ne hne] at ht
      exact Nat.lt_succ_of_lt (hi.thread t k ht)
  · intro t k ht ha
    rcases hwait t k ht with rfl | ⟨hk, ht', hpid⟩
    · rw [hself] at ha ⊢
      rcases h.stored (s.takenPid ch) with heq | ⟨-, hnew⟩
      · exact absurd (h.active hi heq ha) hfree
      · exact hnew
    · rw [hentry k hk] at ha ⊢
      rcases h.stored (s.net.entry k).pid with heq | ⟨heq, -⟩
      · rw [heq]
        exact hi.awaited t k ht' (h.active hi heq ha)
      · exact absurd heq hpid
  · intro t k t' k' ht ht' hpid
    rcases hwait t k ht with rfl | ⟨hk, ht, hne⟩
    · rcases hwait t' k' ht' with rfl | ⟨hk', ht', hne'⟩
      · rfl
      · rw [hself, hentry k' hk'] at hpid
        exact absurd hpid.symm hne'
    · rcases hwait t' k' ht' with rfl | ⟨hk', ht', hne'⟩
      · rw [hself, hentry k hk] at hpid
        exact absurd hpid hne
      · rw [hentry k hk, hentry k' hk'] at hpid ⊢
        exact hi.alone t k t' k' ht ht' hpid

/-- **Step lemma.** -/
theorem slotInv_step {e : Event} (hi : SlotInv s) (hfree : SlotFree s e)
    (h : s.step e = some s') : SlotInv s' := by
  cases e with
  | accept n =>
    have hstep := acceptStep_of_step h
    obtain ⟨hslot, halone⟩ := hfree _ _ (leads_choose s.reload)
    exact hi.accept hstep hslot halone
  | start t =>
    simp only [step] at h
    split at h
    · rename_i k ht
      cases h
      exact hi.start ht
    · cases h
  | recv t c hdr io =>
    cases hdr with
    | makePartner pid destIp bandwidth disk sizes =>
      simp only [step] at h
      split at h
      · simp only [handle, makePartner] at h
        obtain ⟨d, -, rfl⟩ := Option.map_eq_some_iff.mp h
        exact hi.makePartner hfree rfl rfl rfl rfl rfl rfl
      · cases h
    | _ => exact hi.calm (step_calm h (by simp) (by simp) (by simp))
  | _ => exact hi.calm (step_calm h (by simp) (by simp) (by simp))

theorem SlotInv.safe {e : Event} (hi : SlotInv s) (hfree : SlotFree s e) : SlotSafe s e := by
  cases e with
  | accept n =>
    intro s' h
    have hstep := acceptStep_of_step h
    obtain ⟨hslot, -⟩ := hfree _ _ (leads_choose s.reload)
    refine ⟨fun k hk => ?_, fun pid ha => ?_⟩
    · rw [hstep.thread, Function.update_self] at hk
      obtain rfl := SendRecvThread.created.inj (Option.some.inj hk)
      rw [hstep.entry, Function.update_self]
      exact hslot
    · rcases hstep.stored pid with heq | ⟨heq, -⟩
      · exact heq
      · rw [heq] at ha
        exact absurd ha hslot
  | start t =>
    intro s' h
    simp only [step] at h
    split at h
    · rename_i k ht
      cases h
      intro pid ha
      have hconn : (s.startThread t k).net.conn = Function.update s.net.conn (s.net.entry k).pid
          { s.net.conn (s.net.entry k).pid with
            connFd := (s.net.entry k).sockfd
            stored := (s.net.entry k).sockfd } := rfl
      rw [hconn]
      by_cases hpid : pid = (s.net.entry k).pid
      · subst hpid
        rw [Function.update_self]
        exact (hi.awaited t k ht ha).symm
      · rw [Function.update_of_ne hpid]
    · cases h
  | _ => trivial

/-! ### Indices -/

/-- The slots an accept uses: the rows it loads, the passes of the loop, its entry, and the slot the
thread takes; each with the length of its array. -/
def slotIndices (s : NetServer) : List (Nat × Nat) :=
  let ch := s.reload.choose
  (List.range s.numRows).map (·, maxPartners) ++
    (List.range (min ch.pid s.numRows + 1)).map (·, maxConn) ++
    [(ch.pid, maxConn), (s.takenPid ch, maxConn + 1)]

/-- With the entry of the accept loop. -/
def indices (s : NetServer) : List (Nat × Nat) := (maxConn + 1, maxConn + 1) :: s.slotIndices

/-- The entry of the accept loop is never inside the array. -/
theorem not_indices_inside (s : NetServer) : ¬ ∀ i ∈ s.indices, i.1 < i.2 := by
  intro h
  have hshared := h (maxConn + 1, maxConn + 1) List.mem_cons_self
  exact Nat.lt_irrefl _ hshared

theorem slotIndices_inside_iff {k r : Nat} (hl : s.reload.Leads k r) :
    (∀ i ∈ s.slotIndices, i.1 < i.2) ↔
      s.numRows ≤ maxPartners ∧ k < maxConn ∧ r < maxConn + 1 := by
  obtain ⟨hk, hr⟩ := leads_iff.mp hl
  have hr' : s.takenPid s.reload.choose = r := hr.symm
  unfold slotIndices
  dsimp only
  rw [hr', ← hk]
  constructor
  · intro h
    refine ⟨?_, ?_, ?_⟩
    · by_contra hlt
      have hmem := h (s.numRows - 1, maxPartners) (by
        simp only [List.mem_append, List.mem_map, List.mem_range]
        exact .inl (.inl ⟨_, by omega, rfl⟩))
      dsimp only at hmem
      omega
    · exact h (k, maxConn) (by simp)
    · exact h (r, maxConn + 1) (by simp)
  · rintro ⟨hrows, hkc, hrc⟩ i hi
    simp only [List.mem_append, List.mem_map, List.mem_range, List.mem_cons, List.not_mem_nil,
      or_false] at hi
    rcases hi with (⟨j, hj, rfl⟩ | ⟨j, hj, rfl⟩) | (rfl | rfl)
    · dsimp only
      omega
    · dsimp only
      omega
    · exact hkc
    · exact hrc

/-! ### Whole runs -/

variable {daemon : ServerDaemon} {recoveryMode : Nat → Bool} {round : Nat → BitmapRound}
  {es : List Event}

/-- In a run in which every accept leads to a free slot, no accept disturbs a connection. Of the
indices an accept uses, the one of the accept loop's own entry is never inside its array; the others
are while there are not too many rows and slots. -/
theorem accept_slot_choice (h : Meets step SlotFree (boot daemon recoveryMode round) es) :
    Meets step SlotSafe (boot daemon recoveryMode round) es ∧
      ∀ fs n s, fs ++ [.accept n] <+: es → run step (boot daemon recoveryMode round) fs = some s →
        (¬ ∀ i ∈ s.indices, i.1 < i.2) ∧ ∀ k r, s.reload.Leads k r →
          ((∀ i ∈ s.slotIndices, i.1 < i.2) ↔
            s.numRows ≤ maxPartners ∧ k < maxConn ∧ r < maxConn + 1) := by
  refine ⟨?_, fun _ _ s _ _ => ⟨not_indices_inside s, fun _ _ => slotIndices_inside_iff⟩⟩
  apply meets_iff_forall.mpr
  rintro fs e s ⟨gs, rfl⟩ hr
  have hi : SlotInv s := run_inv (fun _ _ _ hi ho hs => slotInv_step hi ho hs)
    (slotInv_boot daemon recoveryMode round) (meets_append.mp (meets_append.mp h).1).1 hr
  exact hi.safe (meets_last (meets_append.mp h).1 hr)

/-- A partner is made, loses its connection to a read error, and gets its slot again. -/
theorem accept_slot_choice_resumed :
    Meets step SlotSafe fresh
      [.accept 5, .start 1, .recv 1 1 (.makePartner 0 "" 0 "" ⟨8, 8, 8⟩) .ok,
        .recv 1 1 (.data 0 0 0) .readError, .goOn 1 .ok, .goOn 1 .ok, .accept 6, .start 2] :=
  (accept_slot_choice (by decide)).1

/-- The second of two partners: the thread for its connection reads the slot 0 from an entry in which
no `pid` was stored, while the first partner's connection is there. -/
theorem second_accept_takes_slot_zero :
    ¬ Meets step SlotSafe fresh
      [.accept 5, .start 1, .recv 1 1 (.makePartner 0 "" 0 "" ⟨8, 8, 8⟩) .ok, .accept 6] := by
  intro h
  have hrun : ((run step fresh
      [.accept 5, .start 1, .recv 1 1 (.makePartner 0 "" 0 "" ⟨8, 8, 8⟩) .ok]).bind
      fun s => (s.acceptConn 6).map fun s' =>
        (s'.net.thread s.net.nextConn, (s'.net.entry 1).pid, decide (s.net.Active 0))) =
      some (some (.created 1), 0, true) := by
    decide
  obtain ⟨s, hs, hacc⟩ := Option.bind_eq_some_iff.mp hrun
  obtain ⟨s', hs', hvals⟩ := Option.map_eq_some_iff.mp hacc
  simp only [Prod.mk.injEq, decide_eq_true_eq] at hvals
  obtain ⟨hthread, hpid, hactive⟩ := hvals
  have hsafe := (meets_iff_forall.mp h _ (.accept 6) s (List.prefix_refl _) hs s' hs').1 1 hthread
  rw [hpid] at hsafe
  exact hsafe hactive

end NetServer

end Ebdr
