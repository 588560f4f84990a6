import Ebdr.Server.AcceptLoop

/-!
# Which socket a partner has on the server

Clients that number their partners from 0, each for itself, and one server. A client makes a partner
over a connection of its own (`connect`), and makes a new connection for a partner that lost its own
(`reconnect`). `made` has the partnerships whose `MAKE_PARTNER` was handled and that were not
removed, each with the connection that arrived on, or with the latest reconnection.

`Bound` says that each of them has a slot of its own, and that `socket_fd` of the slot is its
connection. The program takes the slot number from the client, the descriptor from the entry of the
accept loop, and, in the recovery thread, from `sockFd` of the slot, which is the listening socket.
-/

namespace Ebdr

open Lts

/-- A partnership that was made, and its connection. -/
structure Made where
  client : Nat
  pid : Nat
  conn : Nat
  deriving DecidableEq, Repr

/-- The clients and the server. -/
structure Deployment where
  server : NetServer
  /-- The objects of each client. -/
  clients : Nat → Objects
  /-- The client and the partner a connection was made for. -/
  origin : Nat → Option (Nat × Nat)
  made : List Made

namespace Deployment

/-- The partnerships other than partner `pid` of client `c`. -/
def others (d : Deployment) (c pid : Nat) : List Made :=
  d.made.filter fun m => ¬ (m.client = c ∧ m.pid = pid)

def isMade (d : Deployment) (c pid : Nat) : Bool :=
  d.made.any fun m => m.client = c ∧ m.pid = pid

/-- `make_partner_with_server` of client `c` up to its connection, which the server accepts. -/
def connect (d : Deployment) (c : Nat) (n : Int) : Option Deployment :=
  (ClientDaemon.getNewPartnerClientId (d.clients c)).bind fun pid =>
    (d.server.acceptConn n).map fun s =>
      { d with
        server := s
        clients := Function.update d.clients c ((d.clients c).setPartner pid ⟨pid, .inUse, "", 0⟩)
        origin := Function.update d.origin d.server.net.nextConn (some (c, pid)) }

/-- `restart_conn_client`. -/
def reconnect (d : Deployment) (c pid : Nat) (n : Int) : Option Deployment :=
  if ((d.clients c).partners pid).objState ≠ .free then
    (d.server.acceptConn n).map fun s =>
      { d with
        server := s
        origin := Function.update d.origin d.server.net.nextConn (some (c, pid))
        made :=
          if d.isMade c pid = true then ⟨c, pid, d.server.net.nextConn⟩ :: d.others c pid
          else d.made }
  else none

/-- The partnerships after a header was handled. -/
def madeAfter (d : Deployment) (c pid x : Nat) : ServerHeader → List Made
  | .makePartner .. => ⟨c, pid, x⟩ :: d.others c pid
  | .removePartner _ => d.others c pid
  | _ => d.made

/-- The headers on a connection are about the partner it was made for. -/
def receive (d : Deployment) (t x : Nat) (hdr : ServerHeader) (io : Io) : Option Deployment :=
  (d.origin x).bind fun o =>
    if hdr.pid = o.2 then
      (d.server.step (.recv t x hdr io)).map fun s =>
        { d with
          server := s
          made := d.madeAfter o.1 o.2 x hdr }
    else none

inductive Event where
  | connect (c : Nat) (n : Int)
  | reconnect (c pid : Nat) (n : Int)
  /-- A client changes the state of a partner. -/
  | setState (c pid : Nat) (st : PartnerObjState)
  | receive (t x : Nat) (hdr : ServerHeader) (io : Io)
  /-- The other steps of the server. -/
  | start (t : Nat)
  | recvFails (t : Nat)
  | goOn (t : Nat) (io : Io)
  | recoveryPass (pid : Nat)
  | createDisk (name : String) (bitmapSize : Nat)
  | saveIoctl
  | restoreIoctl
  | write (pid bit : Nat)

/-- A step of the server alone. -/
def serverStep (d : Deployment) (e : NetServer.Event) : Option Deployment :=
  (d.server.step e).map fun s => { d with server := s }

def step (d : Deployment) : Event → Option Deployment
  | .connect c n => d.connect c n
  | .reconnect c pid n => d.reconnect c pid n
  | .setState c pid st =>
    some { d with clients := Function.update d.clients c ((d.clients c).setPartnerState pid st) }
  | .receive t x hdr io => d.receive t x hdr io
  | .start t => d.serverStep (.start t)
  | .recvFails t => d.serverStep (.recvFails t)
  | .goOn t io => d.serverStep (.goOn t io)
  | .recoveryPass pid => d.serverStep (.recoveryPass pid)
  | .createDisk name bitmapSize => d.serverStep (.createDisk name bitmapSize)
  | .saveIoctl => d.serverStep .saveIoctl
  | .restoreIoctl => d.serverStep .restoreIoctl
  | .write pid b => d.serverStep (.write pid b)

/-- Clients with any objects, and the daemon after `db_init`. -/
def boot (clients : Nat → Objects) (daemon : ServerDaemon) (recoveryMode : Nat → Bool)
    (round : Nat → BitmapRound) : Deployment where
  server := .boot daemon recoveryMode round
  clients := clients
  origin := fun _ => none
  made := []

/-! ### The property and its condition -/

/-- The number names the connection, or nothing when the connection is closed. -/
def Names (t : Net) (num : Int) (x : Nat) : Prop :=
  t.sock num = some x ∨ (t.sock num = none ∧ ∀ n, t.sock n ≠ some x)

/-- Each partnership has a slot of its own, with its connection. -/
structure Bound (d : Deployment) : Prop where
  own : ∀ m ∈ d.made, ∀ m' ∈ d.made, m.pid = m'.pid → m = m'
  socket : ∀ m ∈ d.made, Names d.server.net (d.server.net.socketFd m.pid).num m.conn

/-- The accept takes over no slot of the partnerships `ms`, and the kernel does not give it a number
that their slots still hold. -/
def Spares (d : Deployment) (n : Int) (ms : List Made) : Prop :=
  ∀ m ∈ ms, ¬ d.server.reload.TakesOver m.pid ∧ (d.server.net.socketFd m.pid).num ≠ n

/-- A new connection takes over no slot, a reconnection its own one only; `MAKE_PARTNER` comes on
the connection accepted last; it and `REMOVE_PARTNER` name a slot that nobody else has; the recovery
thread comes to no paused slot of a partnership. -/
def BindingOk (d : Deployment) : Event → Prop
  | .connect _ n => d.Spares n d.made
  | .reconnect c pid n =>
    d.Spares n (d.others c pid) ∧ (d.isMade c pid = true → d.server.reload.TakesOver pid)
  | .receive _ x (.makePartner pid _ _ _ _) _ =>
    ∀ o ∈ d.origin x, d.server.net.sock d.server.net.shared.connFd.num = some x ∧
      ∀ m ∈ d.others o.1 o.2, m.pid ≠ pid
  | .receive _ x (.removePartner pid) _ => ∀ o ∈ d.origin x, ∀ m ∈ d.others o.1 o.2, m.pid ≠ pid
  | .recoveryPass pid =>
    (d.server.net.conn pid).objState = .pause → ∀ m ∈ d.made, m.pid ≠ pid
  | _ => True

instance (d : Deployment) (n : Int) (ms : List Made) : Decidable (d.Spares n ms) :=
  inferInstanceAs (Decidable (∀ m ∈ ms, _))

instance (d : Deployment) (e : Event) : Decidable (d.BindingOk e) := by
  unfold BindingOk
  split <;> infer_instance

/-! ### The invariant -/

/-- With what the kernel's table guarantees. -/
structure Inv (d : Deployment) : Prop extends Bound d where
  known : ∀ m ∈ d.made, m.conn < d.server.net.nextConn
  sockKnown : ∀ n x, d.server.net.sock n = some x → x < d.server.net.nextConn
  sockUnique : ∀ n n' x, d.server.net.sock n = some x → d.server.net.sock n' = some x → n = n'

theorem inv_boot (clients : Nat → Objects) (daemon : ServerDaemon) (recoveryMode : Nat → Bool)
    (round : Nat → BitmapRound) : Inv (boot clients daemon recoveryMode round) where
  own := nofun
  socket := nofun
  known := nofun
  sockKnown := by
    intro n x h
    have h' : (if n = Fd.listen.num then some Fd.listen.conn else none) = some x := h
    split at h'
    · obtain rfl := Option.some.inj h'
      exact Nat.one_pos
    · cases h'
  sockUnique := by
    intro n n' x h h'
    have hn : (if n = Fd.listen.num then some Fd.listen.conn else none) = some x := h
    have hn' : (if n' = Fd.listen.num then some Fd.listen.conn else none) = some x := h'
    split at hn
    · split at hn'
      · rename_i h1 h2
        rw [h1, h2]
      · cases hn'
    · cases hn

theorem mem_others {d : Deployment} {c pid : Nat} {m : Made} :
    m ∈ d.others c pid ↔ m ∈ d.made ∧ ¬ (m.client = c ∧ m.pid = pid) := by
  unfold others
  rw [List.mem_filter, decide_eq_true_eq]

theorem Names.closed {t t' : Net} {num : Int} {x : Nat}
    (hsock : ∀ n, t'.sock n = t.sock n ∨ t'.sock n = none)
    (huniq : ∀ n n', t.sock n = some x → t.sock n' = some x → n = n') (hn : Names t num x) :
    Names t' num x := by
  have hstill : ∀ n, t'.sock n = some x → t.sock n = some x := by
    intro n hx
    rcases hsock n with heq | hnone
    · exact heq.symm.trans hx
    · rw [hnone] at hx
      cases hx
  rcases hn with hx | ⟨hnone, hdown⟩
  · rcases hsock num with heq | hclosed
    · exact .inl (heq.trans hx)
    · refine .inr ⟨hclosed, fun n hn => ?_⟩
      obtain rfl := huniq n num (hstill n hn) hx
      rw [hclosed] at hn
      cases hn
  · refine .inr ⟨?_, fun n hn => hdown n (hstill n hn)⟩
    rcases hsock num with heq | hclosed
    · exact heq.trans hnone
    · exact hclosed

variable {d d' : Deployment}

theorem Inv.closed (hi : Inv d)
    (hsock : ∀ n, d'.server.net.sock n = d.server.net.sock n ∨ d'.server.net.sock n = none)
    (hnext : d'.server.net.nextConn = d.server.net.nextConn) (hmade : ∀ m ∈ d'.made, m ∈ d.made)
    (hfd : ∀ m ∈ d'.made, d'.server.net.socketFd m.pid = d.server.net.socketFd m.pid) : Inv d' where
  own := fun m hm m' hm' heq => hi.own m (hmade m hm) m' (hmade m' hm') heq
  socket := by
    intro m hm
    rw [hfd m hm]
    exact (hi.socket m (hmade m hm)).closed hsock fun n n' => hi.sockUnique n n' m.conn
  known := by
    intro m hm
    rw [hnext]
    exact hi.known m (hmade m hm)
  sockKnown := by
    intro n x h
    rw [hnext]
    rcases hsock n with heq | hnone
    · exact hi.sockKnown n x (heq.symm.trans h)
    · rw [hnone] at h
      cases h
  sockUnique := by
    intro n n' x h h'
    rcases hsock n with heq | hnone
    · rcases hsock n' with heq' | hnone'
      · exact hi.sockUnique n n' x (heq.symm.trans h) (heq'.symm.trans h')
      · rw [hnone'] at h'
        cases h'
    · rw [hnone] at h
      cases h

theorem Inv.spared (hi : Inv d) {n : Int} {s : NetServer} {m : Made}
    (hstep : NetServer.AcceptStep d.server s n d.server.reload.choose) (hm : m ∈ d.made)
    (htake : ¬ d.server.reload.TakesOver m.pid) (hnum : (d.server.net.socketFd m.pid).num ≠ n) :
    Names s.net (s.net.socketFd m.pid).num m.conn := by
  have hfd : s.net.socketFd m.pid = d.server.net.socketFd m.pid := by
    rw [hstep.socketFd, if_neg]
    exact fun hr => htake (NetServer.resumed_iff.mp hr)
  unfold Names
  rw [hfd, hstep.sock, Function.update_of_ne hnum]
  refine (hi.socket m hm).imp_right ?_
  rintro ⟨hnone, hdown⟩
  refine ⟨hnone, fun k hk => ?_⟩
  by_cases hkn : k = n
  · rw [hkn, Function.update_self] at hk
    have hlt := hi.known m hm
    have heq := Option.some.inj hk
    omega
  · rw [Function.update_of_ne hkn] at hk
    exact hdown k hk

theorem Inv.accept (hi : Inv d) {n : Int} {s : NetServer}
    (hstep : NetServer.AcceptStep d.server s n d.server.reload.choose)
    (hserver : d'.server = s) (hbound : Bound d')
    (hknown : ∀ m ∈ d'.made, m.conn ≤ d.server.net.nextConn) : Inv d' where
  toBound := hbound
  known := by
    intro m hm
    rw [hserver, hstep.nextConn]
    exact Nat.lt_succ_of_le (hknown m hm)
  sockKnown := by
    intro k x h
    rw [hserver, hstep.sock] at h
    rw [hserver, hstep.nextConn]
    by_cases hk : k = n
    · rw [hk, Function.update_self] at h
      obtain rfl := Option.some.inj h
      exact Nat.lt_succ_self _
    · rw [Function.update_of_ne hk] at h
      exact Nat.lt_succ_of_lt (hi.sockKnown k x h)
  sockUnique := by
    intro k k' x h h'
    rw [hserver, hstep.sock] at h h'
    have hold : ∀ j, j ≠ n → Function.update d.server.net.sock n (some d.server.net.nextConn) j =
        some x → d.server.net.sock j = some x := by
      intro j hj hx
      rwa [Function.update_of_ne hj] at hx
    by_cases hk : k = n
    · by_cases hk' : k' = n
      · rw [hk, hk']
      · rw [hk, Function.update_self] at h
        have hlt := hi.sockKnown k' x (hold k' hk' h')
        have heq := Option.some.inj h
        omega
    · by_cases hk' : k' = n
      · rw [hk', Function.update_self] at h'
        have hlt := hi.sockKnown k x (hold k hk h)
        have heq := Option.some.inj h'
        omega
      · exact hi.sockUnique k k' x (hold k hk h) (hold k' hk' h')

theorem Inv.connect (hi : Inv d) {c : Nat} {n : Int} (hok : d.Spares n d.made)
    (h : d.connect c n = some d') : Inv d' := by
  obtain ⟨pid, -, h⟩ := Option.bind_eq_some_iff.mp h
  obtain ⟨s, hs, rfl⟩ := Option.map_eq_some_iff.mp h
  have hstep := NetServer.acceptStep_of_step hs
  refine hi.accept hstep rfl ⟨hi.own, fun m hm => ?_⟩ fun m hm => (hi.known m hm).le
  exact hi.spared hstep hm (hok m hm).1 (hok m hm).2

theorem Inv.reconnect (hi : Inv d) {c pid : Nat} {n : Int} (hok : d.Spares n (d.others c pid))
    (htake : d.isMade c pid = true → d.server.reload.TakesOver pid)
    (h : d.reconnect c pid n = some d') : Inv d' := by
  unfold Deployment.reconnect at h
  split at h
  · obtain ⟨s, hs, rfl⟩ := Option.map_eq_some_iff.mp h
    have hstep := NetServer.acceptStep_of_step hs
    have hother : ∀ m ∈ d.others c pid, Names s.net (s.net.socketFd m.pid).num m.conn := by
      intro m hm
      exact hi.spared hstep (mem_others.mp hm).1 (hok m hm).1 (hok m hm).2
    by_cases hmade : d.isMade c pid = true
    · have htakes := htake hmade
      have hne : ∀ m ∈ d.others c pid, m.pid ≠ pid := by
        intro m hm heq
        apply (hok m hm).1
        rw [heq]
        exact htakes
      refine hi.accept hstep rfl ⟨?_, ?_⟩ ?_
      · dsimp only
        rw [if_pos hmade]
        intro m hm m' hm' heq
        rcases List.mem_cons.mp hm with rfl | hm
        · rcases List.mem_cons.mp hm' with rfl | hm'
          · rfl
          · exact absurd heq.symm (hne m' hm')
        · rcases List.mem_cons.mp hm' with rfl | hm'
          · exact absurd heq (hne m hm)
          · exact hi.own m (mem_others.mp hm).1 m' (mem_others.mp hm').1 heq
      · dsimp only
        rw [if_pos hmade]
        intro m hm
        rcases List.mem_cons.mp hm with rfl | hm
        · left
          rw [hstep.socketFd, if_pos (NetServer.resumed_iff.mpr htakes), hstep.sock,
            Function.update_self]
        · exact hother m hm
      · dsimp only
        rw [if_pos hmade]
        intro m hm
        rcases List.mem_cons.mp hm with rfl | hm
        · exact Nat.le_refl _
        · exact (hi.known m (mem_others.mp hm).1).le
    · have hothers : ∀ m ∈ d.made, m ∈ d.others c pid := by
        intro m hm
        refine mem_others.mpr ⟨hm, fun hkey => hmade ?_⟩
        simp only [isMade, List.any_eq_true, decide_eq_true_eq]
        exact ⟨m, hm, hkey⟩
      refine hi.accept hstep rfl ⟨?_, ?_⟩ ?_
      · dsimp only
        rw [if_neg hmade]
        exact hi.own
      · dsimp only
        rw [if_neg hmade]
        exact fun m hm => hother m (hothers m hm)
      · dsimp only
        rw [if_neg hmade]
        exact fun m hm => (hi.known m hm).le
  · cases h

/-- `MAKE_PARTNER` on the connection in the entry of the accept loop, with a slot nobody else has. -/
theorem Inv.makePartner (hi : Inv d) {c pid x : Nat}
    (hconn : d.server.net.sock d.server.net.shared.connFd.num = some x)
    (hfree : ∀ m ∈ d.others c pid, m.pid ≠ pid)
    (hsock : d'.server.net.sock = d.server.net.sock)
    (hnext : d'.server.net.nextConn = d.server.net.nextConn)
    (hfd : d'.server.net.socketFd =
      Function.update d.server.net.socketFd pid d.server.net.shared.connFd)
    (hmade : d'.made = ⟨c, pid, x⟩ :: d.others c pid) : Inv d' where
  own := by
    rw [hmade]
    intro m hm m' hm' heq
    rcases List.mem_cons.mp hm with rfl | hm
    · rcases List.mem_cons.mp hm' with rfl | hm'
      · rfl
      · exact absurd heq.symm (hfree m' hm')
    · rcases List.mem_cons.mp hm' with rfl | hm'
      · exact absurd heq (hfree m hm)
      · exact hi.own m (mem_others.mp hm).1 m' (mem_others.mp hm').1 heq
  socket := by
    rw [hmade]
    intro m hm
    unfold Names
    rw [hsock, hfd]
    rcases List.mem_cons.mp hm with rfl | hm
    · left
      rw [Function.update_self]
      exact hconn
    · rw [Function.update_of_ne (hfree m hm)]
      exact hi.socket m (mem_others.mp hm).1
  known := by
    rw [hmade, hnext]
    intro m hm
    rcases List.mem_cons.mp hm with rfl | hm
    · exact hi.sockKnown _ x hconn
    · exact hi.known m (mem_others.mp hm).1
  sockKnown := by
    rw [hsock, hnext]
    exact hi.sockKnown
  sockUnique := by
    rw [hsock]
    exact hi.sockUnique

theorem Inv.receive (hi : Inv d) {t x : Nat} {hdr : ServerHeader} {io : Io}
    (hok : d.BindingOk (.receive t x hdr io)) (h : d.receive t x hdr io = some d') : Inv d' := by
  obtain ⟨⟨c, pid⟩, ho, h⟩ := Option.bind_eq_some_iff.mp h
  dsimp only at h
  split at h
  · rename_i hpid
    obtain ⟨s, hs, rfl⟩ := Option.map_eq_some_iff.mp h
    cases hdr with
    | makePartner q destIp bandwidth disk sizes =>
      obtain rfl : q = pid := hpid
      obtain ⟨hconn, hfree⟩ := hok (c, q) ho
      simp only [NetServer.step] at hs
      split at hs
      · simp only [NetServer.handle, NetServer.makePartner] at hs
        obtain ⟨daemon, -, rfl⟩ := Option.map_eq_some_iff.mp hs
        exact hi.makePartner hconn hfree rfl rfl rfl rfl
      · cases hs
    | removePartner q =>
      obtain rfl : q = pid := hpid
      have hcalm := NetServer.step_calm hs (by simp) (by simp) (by simp)
      refine hi.closed hcalm.sock hcalm.nextConn (fun m hm => (mem_others.mp hm).1) fun m hm => ?_
      have hne : m.pid ≠ q := hok (c, q) ho m hm
      simp only [NetServer.step] at hs
      split at hs
      · simp only [NetServer.handle, NetServer.removePartner] at hs
        obtain ⟨daemon, -, rfl⟩ := Option.map_eq_some_iff.mp hs
        exact Function.update_of_ne hne _ _
      · cases hs
    | _ =>
      have hcalm := NetServer.step_calm hs (by simp) (by simp) (by simp)
      have hfd := NetServer.step_socketFd hs (by simp) (by simp) (by simp) (by simp)
      exact hi.closed hcalm.sock hcalm.nextConn (fun m hm => hm) fun m _ => congrFun hfd m.pid
  · cases h

/-- A pass of the recovery thread stores the listening socket only into a paused slot. -/
theorem Inv.recoveryPass (hi : Inv d) {pid : Nat} (hok : d.BindingOk (.recoveryPass pid))
    (h : d.serverStep (.recoveryPass pid) = some d') : Inv d' := by
  obtain ⟨s, hs, rfl⟩ := Option.map_eq_some_iff.mp h
  have hcalm := NetServer.step_calm hs nofun nofun nofun
  refine hi.closed hcalm.sock hcalm.nextConn (fun m hm => hm) fun m hm => ?_
  simp only [NetServer.step] at hs
  rw [← Option.some.inj hs]
  unfold NetServer.recoveryPass
  dsimp only
  split
  · rename_i hpause
    exact Function.update_of_ne (hok hpause m hm) _ _
  · rfl

theorem Inv.serverStep (hi : Inv d) {e : NetServer.Event} (h : d.serverStep e = some d')
    (hacc : ∀ n, e ≠ .accept n) (hrecv : ∀ t x hdr io, e ≠ .recv t x hdr io)
    (hrec : ∀ pid, e ≠ .recoveryPass pid) : Inv d' := by
  obtain ⟨s, hs, rfl⟩ := Option.map_eq_some_iff.mp h
  have hfd := NetServer.step_socketFd hs hacc
    (fun u x q i b k z o => hrecv u x _ o) (fun u x q o => hrecv u x _ o) hrec
  obtain ⟨hsock, hnext⟩ := NetServer.step_sock hs hacc
  exact hi.closed hsock hnext (fun m hm => hm) fun m _ => congrFun hfd m.pid

theorem inv_step {e : Event} (hi : Inv d) (hok : d.BindingOk e) (h : d.step e = some d') :
    Inv d' := by
  cases e with
  | connect c n => exact hi.connect hok h
  | reconnect c pid n => exact hi.reconnect hok.1 hok.2 h
  | setState c pid st =>
    cases h
    exact hi.closed (fun _ => .inl rfl) rfl (fun m hm => hm) fun _ _ => rfl
  | receive t x hdr io => exact hi.receive hok h
  | recoveryPass pid => exact hi.recoveryPass hok h
  | start t => exact hi.serverStep h nofun nofun nofun
  | recvFails t => exact hi.serverStep h nofun nofun nofun
  | goOn t io => exact hi.serverStep h nofun nofun nofun
  | createDisk name size => exact hi.serverStep h nofun nofun nofun
  | saveIoctl => exact hi.serverStep h nofun nofun nofun
  | restoreIoctl => exact hi.serverStep h nofun nofun nofun
  | write pid b => exact hi.serverStep h nofun nofun nofun

/-! ### Whole runs -/

variable {clients : Nat → Objects} {daemon : ServerDaemon} {recoveryMode : Nat → Bool}
  {round : Nat → BitmapRound} {es : List Event}

/-- Every partnership keeps a slot of its own with its connection in it, in a run whose accepts take
over no other partnership's slot, whose `MAKE_PARTNER`s come on the connection accepted last for a
slot of nobody else, and whose recovery thread finds no partnership paused. -/
theorem partner_sockets_bound (h : Meets step BindingOk (boot clients daemon recoveryMode round) es) :
    Always step Bound (boot clients daemon recoveryMode round) es := by
  rintro fs t ⟨gs, rfl⟩ hr
  have hi : Inv t := run_inv (fun _ _ _ hi hok hs => inv_step hi hok hs)
    (inv_boot clients daemon recoveryMode round) (meets_append.mp h).1 hr
  exact hi.toBound

/-- Clients without partners, and a daemon that has served nobody. -/
def freshDeployment : Deployment :=
  boot (fun _ => ClientDaemon.boot.objects) .boot (fun _ => false)
    fun _ => ⟨fun _ _ => 0, .kernel, Server.bitmapServerCreate⟩

/-- A client's partner loses its connection to a read error and gets another one; the client makes a
second partner and removes it. -/
theorem partner_sockets_bound_reconnected :
    Always step Bound freshDeployment
      [.connect 0 5, .start 1, .receive 1 1 (.makePartner 0 "" 0 "" ⟨8, 8, 8⟩) .ok,
        .receive 1 1 (.data 0 0 0) .readError, .goOn 1 .ok, .goOn 1 .ok, .reconnect 0 0 6, .start 2,
        .connect 0 7, .start 3, .receive 3 3 (.makePartner 1 "" 0 "" ⟨8, 8, 8⟩) .ok,
        .receive 3 3 (.removePartner 1) .ok] :=
  partner_sockets_bound (by decide)

/-- The second connection of a client is accepted before the first `MAKE_PARTNER` is handled, which
stores the descriptor of the second one. -/
theorem partner_has_next_socket :
    ¬ Always step Bound freshDeployment
      [.connect 0 5, .start 1, .connect 0 6,
        .receive 1 1 (.makePartner 0 "" 0 "" ⟨8, 8, 8⟩) .ok] := by
  intro h
  have hrun : (run step freshDeployment
      [.connect 0 5, .start 1, .connect 0 6,
        .receive 1 1 (.makePartner 0 "" 0 "" ⟨8, 8, 8⟩) .ok]).map (fun t =>
      (t.made, t.server.net.sock (t.server.net.socketFd 0).num)) = some ([⟨0, 0, 1⟩], some 2) := by
    decide
  obtain ⟨t, ht, hvals⟩ := Option.map_eq_some_iff.mp hrun
  simp only [Prod.mk.injEq] at hvals
  obtain ⟨hmade, hsock⟩ := hvals
  have hbound := (h _ t (List.prefix_refl _) ht).socket ⟨0, 0, 1⟩ (by simp [hmade])
  unfold Names at hbound
  rw [hsock] at hbound
  simp at hbound

end Deployment

end Ebdr
