import Ebdr.Lib.Unwinding
import Ebdr.Server.Connections

/-!
# What belongs to a partner slot

`SameSlots q s s'` says that the server keeps the same for the partners in `q`: their sockets,
connection objects, states and bitmap rounds. For each handler there are two facts: it stores only
into the slot that its header names, and what it stores there depends only on that slot.
-/

namespace Ebdr

open ByteMem Lts

namespace ServerDaemon

/-- The objects and headers of the slots in `q` are the same. -/
structure SameSlots (q : Set Nat) (d d' : ServerDaemon) : Prop where
  partners : Set.EqOn d.objects.partners d'.objects.partners q
  relations : Set.EqOn d.objects.relations d'.objects.relations q
  disks : Set.EqOn d.objects.disks d'.objects.disks q
  partnerOps : Set.EqOn d.partnerOps d'.partnerOps q
  relationOps : Set.EqOn d.relationOps d'.relationOps q
  repConn : Set.EqOn d.repConn d'.repConn q
  bitmapOps : Set.EqOn d.bitmapOps d'.bitmapOps q
  replicHdr : Set.EqOn d.replicHdr d'.replicHdr q
  dsCount : d.dsCount = d'.dsCount

variable {q q' : Set Nat} {d d' e e' : ServerDaemon} {pid : Nat}

theorem SameSlots.refl (d : ServerDaemon) : SameSlots q d d := by
  constructor <;> first | exact Set.eqOn_refl _ _ | rfl

theorem SameSlots.symm (h : SameSlots q d d') : SameSlots q d' d where
  partners := h.partners.symm
  relations := h.relations.symm
  disks := h.disks.symm
  partnerOps := h.partnerOps.symm
  relationOps := h.relationOps.symm
  repConn := h.repConn.symm
  bitmapOps := h.bitmapOps.symm
  replicHdr := h.replicHdr.symm
  dsCount := h.dsCount.symm

theorem SameSlots.trans (h : SameSlots q d d') (h' : SameSlots q d' e) : SameSlots q d e where
  partners := h.partners.trans h'.partners
  relations := h.relations.trans h'.relations
  disks := h.disks.trans h'.disks
  partnerOps := h.partnerOps.trans h'.partnerOps
  relationOps := h.relationOps.trans h'.relationOps
  repConn := h.repConn.trans h'.repConn
  bitmapOps := h.bitmapOps.trans h'.bitmapOps
  replicHdr := h.replicHdr.trans h'.replicHdr
  dsCount := h.dsCount.trans h'.dsCount

theorem SameSlots.mono (hq : q' ⊆ q) (h : SameSlots q d d') : SameSlots q' d d' where
  partners := h.partners.mono hq
  relations := h.relations.mono hq
  disks := h.disks.mono hq
  partnerOps := h.partnerOps.mono hq
  relationOps := h.relationOps.mono hq
  repConn := h.repConn.mono hq
  bitmapOps := h.bitmapOps.mono hq
  replicHdr := h.replicHdr.mono hq
  dsCount := h.dsCount

theorem makePartner_eq {destIp disk : String} {bandwidth : Nat} {hs : HeaderSizes}
    (hpid : pid < maxPartners) :
    d.makePartner pid destIp bandwidth disk hs = some
      { d with
        objects := (d.objects.setPartner pid ⟨pid, .inUse, destIp, bandwidth⟩).setRelation pid
          { d.objects.relations pid with
            role := 0
            partnerId := pid
            relationId := pid
            objState := .inUse
            device := disk
            bitmapSize := (d.replicHdr pid).bitmapSize
            grainSize := (d.replicHdr pid).grainSize }
        partnerOps := Function.update d.partnerOps pid true
        relationOps := Function.update d.relationOps pid true
        repConn := Function.update d.repConn pid true
        replicHdr := Function.update d.replicHdr pid hs
        db := d.db.insertIntoPartner pid .inUse destIp bandwidth } := by
  have hvalid : (d.objects.setPartner pid ⟨pid, .inUse, destIp, bandwidth⟩).isPartnerIdValid pid =
      true := Objects.isPartnerIdValid_setPartner hpid rfl
  unfold makePartner makeRelationWithClient
  simp only [if_pos hpid, if_pos hvalid]
  rfl

/-! ### Stores into another slot -/

section Frame

variable (hp : pid ∉ q)
include hp

theorem sameSlots_makePartner {destIp disk : String} {bandwidth : Nat} {hs : HeaderSizes}
    (h : d.makePartner pid destIp bandwidth disk hs = some e) : SameSlots q d e := by
  by_cases hpid : pid < maxPartners
  · rw [makePartner_eq hpid] at h
    rw [← Option.some.inj h]
    exact { SameSlots.refl d with
      partners := eqOn_update_right (Set.eqOn_refl _ _) hp
      relations := eqOn_update_right (Set.eqOn_refl _ _) hp
      partnerOps := eqOn_update_right (Set.eqOn_refl _ _) hp
      relationOps := eqOn_update_right (Set.eqOn_refl _ _) hp
      repConn := eqOn_update_right (Set.eqOn_refl _ _) hp
      replicHdr := eqOn_update_right (Set.eqOn_refl _ _) hp }
  · unfold makePartner at h
    rw [if_neg hpid] at h
    cases h

theorem sameSlots_synReceived (h : d.synReceived pid = some e) : SameSlots q d e := by
  unfold synReceived at h
  split at h
  · rw [← Option.some.inj h]
    exact { SameSlots.refl d with relations := eqOn_update_right (Set.eqOn_refl _ _) hp }
  · cases h

theorem sameSlots_getBitmap (h : d.getBitmap pid = some e) : SameSlots q d e := by
  unfold getBitmap at h
  split at h
  · dsimp only at h
    split at h
    · rw [← Option.some.inj h]
      exact { SameSlots.refl d with
        partners := eqOn_update_right (Set.eqOn_refl _ _) hp
        relations := eqOn_update_right (Set.eqOn_refl _ _) hp
        disks := eqOn_update_right (Set.eqOn_refl _ _) hp
        bitmapOps := eqOn_update_right (Set.eqOn_refl _ _) hp }
    · rw [← Option.some.inj h]
      exact { SameSlots.refl d with bitmapOps := eqOn_update_right (Set.eqOn_refl _ _) hp }
  · cases h

theorem sameSlots_releaseObjects : SameSlots q d (d.releaseObjects pid) :=
  { SameSlots.refl d with
    partners := eqOn_update_right (Set.eqOn_refl _ _) hp
    relations := eqOn_update_right (Set.eqOn_refl _ _) hp
    disks := eqOn_update_right (Set.eqOn_refl _ _) hp }

theorem sameSlots_removePartner (h : d.removePartner pid = some e) : SameSlots q d e := by
  unfold removePartner at h
  split at h
  · dsimp only at h
    rw [← Option.some.inj h]
    split
    · exact { SameSlots.refl d with
        partners := eqOn_update_right (Set.eqOn_refl _ _) hp
        relations := eqOn_update_right (Set.eqOn_refl _ _) hp
        partnerOps := eqOn_update_right (Set.eqOn_refl _ _) hp }
    · exact { SameSlots.refl d with
        partners := eqOn_update_right (Set.eqOn_refl _ _) hp
        partnerOps := eqOn_update_right (Set.eqOn_refl _ _) hp }
  · cases h

theorem sameSlots_removeRelation (h : d.removeRelation pid = some e) : SameSlots q d e := by
  unfold removeRelation at h
  split at h
  · rw [← Option.some.inj h]
    exact { SameSlots.refl d with relations := eqOn_update_right (Set.eqOn_refl _ _) hp }
  · cases h

end Frame

/-! ### Two daemons with the same slot -/

section Same

variable (ha : SameSlots q d d') (hp : pid ∈ q)
include ha hp

theorem SameSlots.setPartnerState (st : PartnerObjState) :
    Set.EqOn (d.objects.setPartnerState pid st).partners (d'.objects.setPartnerState pid st).partners
      q :=
  eqOn_update ha.partners fun _ => by rw [ha.partners hp]

theorem SameSlots.setRelationState (st : RelationObjState) :
    Set.EqOn (d.objects.setRelationState pid st).relations
      (d'.objects.setRelationState pid st).relations q :=
  eqOn_update ha.relations fun _ => by rw [ha.relations hp]

theorem SameSlots.setDiskState (st : DiskObjState) :
    Set.EqOn (d.objects.setDiskState pid st).disks (d'.objects.setDiskState pid st).disks q :=
  eqOn_update ha.disks fun _ => by rw [ha.disks hp]

theorem SameSlots.synReceived (h : d.synReceived pid = some e) (h' : d'.synReceived pid = some e') :
    SameSlots q e e' := by
  unfold ServerDaemon.synReceived at h h'
  split at h
  · split at h'
    · rw [← Option.some.inj h, ← Option.some.inj h']
      exact { ha with
        relations := eqOn_update ha.relations fun _ => by rw [ha.relations hp, ha.replicHdr hp] }
    · cases h'
  · cases h

theorem SameSlots.getBitmap (h : d.getBitmap pid = some e) (h' : d'.getBitmap pid = some e') :
    SameSlots q e e' := by
  unfold ServerDaemon.getBitmap at h h'
  split at h
  · split at h'
    · dsimp only at h h'
      rw [← ha.partners hp] at h'
      have hops := eqOn_update (p := pid) ha.bitmapOps fun _ => Eq.refl true
      by_cases hrel : (d.objects.partners pid).objState = .released
      · rw [if_pos hrel] at h h'
        rw [← Option.some.inj h, ← Option.some.inj h']
        exact { ha with
          partners := ha.setPartnerState hp _
          relations := ha.setRelationState hp _
          disks := ha.setDiskState hp _
          bitmapOps := hops }
      · rw [if_neg hrel] at h h'
        rw [← Option.some.inj h, ← Option.some.inj h']
        exact { ha with bitmapOps := hops }
    · cases h'
  · cases h

theorem SameSlots.releaseObjects : SameSlots q (d.releaseObjects pid) (d'.releaseObjects pid) :=
  { ha with
    partners := ha.setPartnerState hp _
    relations := ha.setRelationState hp _
    disks := ha.setDiskState hp _ }

theorem SameSlots.removePartner (h : d.removePartner pid = some e)
    (h' : d'.removePartner pid = some e') : SameSlots q e e' := by
  unfold ServerDaemon.removePartner at h h'
  rw [← ha.relations hp] at h'
  split at h
  · split at h'
    · dsimp only at h h'
      rw [← Option.some.inj h, ← Option.some.inj h']
      have hops := eqOn_update (p := pid) ha.partnerOps fun _ => Eq.refl false
      by_cases hrel : (d.objects.relations pid).partnerId = pid ∧
          (d.objects.relations pid).objState = .inUse
      · simp only [if_pos hrel]
        exact { ha with
          partners := eqOn_update ha.partners fun _ => rfl
          relations := ha.setRelationState hp _
          partnerOps := hops }
      · simp only [if_neg hrel]
        exact { ha with
          partners := eqOn_update ha.partners fun _ => rfl
          partnerOps := hops }
    · cases h'
  · cases h

theorem SameSlots.removeRelation (h : d.removeRelation pid = some e)
    (h' : d'.removeRelation pid = some e') : SameSlots q e e' := by
  unfold ServerDaemon.removeRelation at h h'
  split at h
  · split at h'
    · rw [← Option.some.inj h, ← Option.some.inj h']
      exact { ha with relations := ha.setRelationState hp _ }
    · cases h'
  · cases h

omit hp in
theorem SameSlots.createDisk {name : String} {size : Nat} (h : d.createDisk name size = some e)
    (h' : d'.createDisk name size = some e') : SameSlots q e e' := by
  unfold ServerDaemon.createDisk at h h'
  rw [← ha.dsCount] at h'
  split at h
  · rename_i hroom
    rw [if_pos hroom] at h'
    split at h
    · rename_i hfds
      rw [if_pos hfds] at h'
      rw [← Option.some.inj h, ← Option.some.inj h']
      exact { ha with
        disks := eqOn_update ha.disks fun hd => by rw [ha.disks hd]
        dsCount := rfl }
    · cases h
  · rename_i hroom
    rw [if_neg hroom] at h'
    rw [← Option.some.inj h, ← Option.some.inj h']
    exact ha

end Same

theorem SameSlots.makePartner {destIp disk : String} {bandwidth : Nat} {hs : HeaderSizes}
    (ha : SameSlots q d d') (hp : pid ∈ q) (h : d.makePartner pid destIp bandwidth disk hs = some e)
    (h' : d'.makePartner pid destIp bandwidth disk hs = some e') : SameSlots q e e' := by
  by_cases hpid : pid < maxPartners
  · rw [makePartner_eq hpid] at h h'
    rw [← Option.some.inj h, ← Option.some.inj h']
    exact { ha with
      partners := eqOn_update ha.partners fun _ => rfl
      relations := eqOn_update ha.relations fun _ => by rw [ha.relations hp, ha.replicHdr hp]
      partnerOps := eqOn_update ha.partnerOps fun _ => rfl
      relationOps := eqOn_update ha.relationOps fun _ => rfl
      repConn := eqOn_update ha.repConn fun _ => rfl
      replicHdr := eqOn_update ha.replicHdr fun _ => rfl }
  · unfold ServerDaemon.makePartner at h
    rw [if_neg hpid] at h
    cases h

end ServerDaemon

namespace NetServer

/-- What the server keeps for the partners in `q` is the same. -/
structure SameSlots (q : Set Nat) (s s' : NetServer) : Prop where
  socketFd : Set.EqOn s.net.socketFd s'.net.socketFd q
  conn : Set.EqOn s.net.conn s'.net.conn q
  partnerCreated : Set.EqOn s.net.partnerCreated s'.net.partnerCreated q
  sockRecovery : Set.EqOn s.net.sockRecovery s'.net.sockRecovery q
  daemon : ServerDaemon.SameSlots q s.daemon s'.daemon
  recoveryMode : Set.EqOn s.recoveryMode s'.recoveryMode q
  ioState : Set.EqOn s.ioState s'.ioState q
  round : Set.EqOn s.round s'.round q

variable {q q' : Set Nat} {s s' u u' : NetServer} {t c pid : Nat} {io : Io}

theorem SameSlots.refl (s : NetServer) : SameSlots q s s := by
  constructor <;> first | exact Set.eqOn_refl _ _ | exact ServerDaemon.SameSlots.refl _

theorem SameSlots.symm (h : SameSlots q s s') : SameSlots q s' s where
  socketFd := h.socketFd.symm
  conn := h.conn.symm
  partnerCreated := h.partnerCreated.symm
  sockRecovery := h.sockRecovery.symm
  daemon := h.daemon.symm
  recoveryMode := h.recoveryMode.symm
  ioState := h.ioState.symm
  round := h.round.symm

theorem SameSlots.trans (h : SameSlots q s s') (h' : SameSlots q s' u) : SameSlots q s u where
  socketFd := h.socketFd.trans h'.socketFd
  conn := h.conn.trans h'.conn
  partnerCreated := h.partnerCreated.trans h'.partnerCreated
  sockRecovery := h.sockRecovery.trans h'.sockRecovery
  daemon := h.daemon.trans h'.daemon
  recoveryMode := h.recoveryMode.trans h'.recoveryMode
  ioState := h.ioState.trans h'.ioState
  round := h.round.trans h'.round

/-! ### What a handler does outside its slot -/

/-- A handler of the thread `t` that stores into the slot `pid`: it closes numbers of `closes`, and
sends to the connection in the slot. -/
structure Handled (t pid : Nat) (closes : Set Int) (s s' : NetServer) : Prop where
  slots : ∀ q, pid ∉ q → SameSlots q s s'
  saved : s'.savedIndex = s.savedIndex
  shared : s'.net.shared = s.net.shared
  entry : s'.net.entry = s.net.entry
  nextConn : s'.net.nextConn = s.net.nextConn
  sendRecvTid : s'.net.sendRecvTid = s.net.sendRecvTid
  thread : s'.net.thread = s.net.thread
  last : s'.net.last = s.net.last
  rest : ∀ v, v ≠ t → s'.net.rest v = s.net.rest v
  sock : ∀ n, s'.net.sock n = s.net.sock n ∨ (s'.net.sock n = none ∧ n ∈ closes)
  sent : ∃ rs, s'.sent = s.sent ++ rs ∧
    ∀ r ∈ rs, s.net.peer (s.net.socketFd pid).num = some r.conn

variable {closes : Set Int}

theorem Handled.of_net (hnet : s'.net = s.net) (hsaved : s'.savedIndex = s.savedIndex)
    (hslots : ∀ q, pid ∉ q → SameSlots q s s')
    (hsent : ∃ rs, s'.sent = s.sent ++ rs ∧
      ∀ r ∈ rs, s.net.peer (s.net.socketFd pid).num = some r.conn) :
    Handled t pid closes s s' := by
  refine ⟨hslots, hsaved, ?_, ?_, ?_, ?_, ?_, ?_, ?_, ?_, hsent⟩ <;> rw [hnet]
  · exact fun _ _ => rfl
  · exact fun _ => .inl rfl

/-- One part of a handler after another; the first leaves the slot's socket. -/
theorem Handled.trans (h : Handled t pid closes s s')
    (hfd : s'.net.socketFd pid = s.net.socketFd pid) (hsock : s'.net.sock = s.net.sock)
    (h' : Handled t pid closes s' u) : Handled t pid closes s u where
  slots := fun q hq => (h.slots q hq).trans (h'.slots q hq)
  saved := h'.saved.trans h.saved
  shared := h'.shared.trans h.shared
  entry := h'.entry.trans h.entry
  nextConn := h'.nextConn.trans h.nextConn
  sendRecvTid := h'.sendRecvTid.trans h.sendRecvTid
  thread := h'.thread.trans h.thread
  last := h'.last.trans h.last
  rest := fun v hv => (h'.rest v hv).trans (h.rest v hv)
  sock := by
    rw [← hsock]
    exact h'.sock
  sent := by
    obtain ⟨rs, hrs, hto⟩ := h.sent
    obtain ⟨rs', hrs', hto'⟩ := h'.sent
    refine ⟨rs ++ rs', by rw [hrs', hrs, List.append_assoc], fun r hr => ?_⟩
    rcases List.mem_append.mp hr with hr | hr
    · exact hto r hr
    · unfold Net.peer at hto' ⊢
      rw [← hfd, ← hsock]
      exact hto' r hr

theorem sent_same (h : s'.sent = s.sent) : ∃ rs, s'.sent = s.sent ++ rs ∧
    ∀ r ∈ rs, s.net.peer (s.net.socketFd pid).num = some r.conn :=
  ⟨[], by rw [h, List.append_nil], nofun⟩

theorem handled_refl (s : NetServer) : Handled t pid closes s s :=
  .of_net rfl rfl (fun _ _ => SameSlots.refl s) (sent_same rfl)

theorem handled_daemon {d : ServerDaemon}
    (hd : ∀ q, pid ∉ q → ServerDaemon.SameSlots q s.daemon d) :
    Handled t pid closes s { s with daemon := d } :=
  .of_net rfl rfl (fun q hq => { SameSlots.refl s with daemon := hd q hq }) (sent_same rfl)

theorem handled_send (s : NetServer) (p : Payload) : Handled t pid closes s (s.send pid io p) := by
  unfold send
  split
  · refine .of_net rfl rfl (fun q _ => { SameSlots.refl s with }) ⟨_, rfl, fun r hr => ?_⟩
    obtain ⟨d, hd, rfl⟩ := Option.map_eq_some_iff.mp (Option.mem_toList.mp hr)
    exact hd
  · exact handled_refl s

theorem handled_setRound (s : NetServer) (r : BitmapRound) :
    Handled t pid closes s (s.setRound pid r) :=
  .of_net rfl rfl (fun _ hq =>
    { SameSlots.refl s with round := eqOn_update_right (Set.eqOn_refl _ _) hq }) (sent_same rfl)

theorem handled_setRest (s : NetServer) (tail : Option Tail) :
    Handled t pid closes s (s.setRest t tail) :=
  ⟨fun _ _ => { SameSlots.refl s with }, rfl, rfl, rfl, rfl, rfl, rfl, rfl,
    fun _ hv => Function.update_of_ne hv _ _, fun _ => .inl rfl, sent_same rfl⟩

theorem send_daemon (p : Payload) : (s.send pid io p).daemon = s.daemon := by
  unfold send
  split <;> rfl

theorem send_ioState (p : Payload) : (s.send pid io p).ioState = s.ioState := by
  unfold send
  split <;> rfl

/-! ### `get_bitmap` and `terminate` -/

theorem handled_round (s : NetServer) (r : BitmapRound) (ph : Phase) :
    Handled t pid closes s ((s.setRound pid r).setPhase t c pid ph) :=
  (handled_setRound s r).trans rfl rfl (handled_setRest _ _)

theorem handled_getBitmap (h : s.getBitmap t c pid = some s') : Handled t pid closes s s' := by
  obtain ⟨d, hd, rfl⟩ := Option.map_eq_some_iff.mp h
  have hdaemon : Handled t pid closes s { s with daemon := d } :=
    handled_daemon fun q hq => ServerDaemon.sameSlots_getBitmap hq hd
  exact hdaemon.trans rfl rfl (handled_round _ _ _)

theorem handled_chooseBranch (s : NetServer) (u : BmapUser) :
    Handled t pid closes s (s.chooseBranch t c pid u) := by
  unfold chooseBranch
  split
  · exact handled_round s _ _
  · have hconn : Handled t pid closes s
        { s with net := s.net.setConn pid { s.net.conn pid with objState := .inUse } } :=
      ⟨fun q hq => { SameSlots.refl s with conn := eqOn_update_right (Set.eqOn_refl _ _) hq },
        rfl, rfl, rfl, rfl, rfl, rfl, rfl, fun _ _ => rfl, fun _ => .inl rfl, sent_same rfl⟩
    exact hconn.trans rfl rfl (handled_round _ _ _)

/-- The flip of `get_bitmap` finds its own index in `ioctl_obj`. -/
def FlipsOwn (s : NetServer) (pid : Nat) : Phase → Prop
  | .copying _ k true => k < (s.round pid).ubitmap.bitmapSize / 8 ∨ s.ioctlIndex = pid + 1
  | _ => True

/-- `ioctl_obj` has the thread's own index where `get_bitmap` uses it. -/
def UsesOwn (s : NetServer) (pid : Nat) : Phase → Prop
  | .indexed => s.ioctlIndex = pid + 1
  | ph => s.FlipsOwn pid ph

theorem handled_flipDevice (hindex : s.ioctlIndex = pid + 1) :
    Handled t pid closes s ((s.flipDevice (s.ioctlIndex - 1)).markReady t c pid) := by
  rw [hindex, Nat.add_sub_cancel]
  exact (handled_setRound s _).trans rfl rfl (handled_round _ _ _)

theorem handled_copyStep {half : Half} {k : Nat} {flip : Bool}
    (hindex : s.FlipsOwn pid (.copying half k flip))
    (h : s.copyStep t c pid half k flip = some s') : Handled t pid closes s s' := by
  unfold copyStep at h
  dsimp only at h
  split at h
  · split at h
    · rw [← Option.some.inj h]
      exact handled_round s _ _
    · cases h
  · rename_i hk
    split at h
    · rename_i hflip
      split at h
      · rw [← Option.some.inj h]
        subst hflip
        exact handled_flipDevice (hindex.resolve_left hk)
      · cases h
    · rw [← Option.some.inj h]
      exact handled_round s _ _

theorem handled_sendBitmap (s : NetServer) : Handled t pid closes s (s.sendBitmap t pid io) := by
  have hsent : ∀ p, Handled t pid closes s ((s.send pid io p).setRest t none) := fun p =>
    (handled_send s p).trans (by rw [send_net]) (by rw [send_net]) (handled_setRest _ _)
  unfold sendBitmap
  dsimp only
  split
  · refine (hsent _).trans ?_ ?_ (.of_net rfl rfl (fun q hq => ?_) (sent_same rfl))
    · rw [setRest_socketFd, send_net]
    · unfold setRest
      rw [send_net]
    · exact { SameSlots.refl _ with
        ioState := by
          unfold setRest
          rw [send_ioState]
          exact eqOn_update_right (Set.eqOn_refl _ _) hq }
  · exact hsent _

theorem handled_clearStep (s : NetServer) (half : Half) (k : Nat) :
    Handled t pid closes s (s.clearStep t c pid half k) := by
  unfold clearStep
  dsimp only
  split
  · exact handled_round s _ _
  · have hreleased : Handled t pid closes s { s with
        daemon := s.daemon.releaseObjects pid
        recoveryMode := Function.update s.recoveryMode pid false
        ioState := Function.update s.ioState pid .released } :=
      .of_net rfl rfl (fun q hq => { SameSlots.refl s with
        daemon := ServerDaemon.sameSlots_releaseObjects hq
        recoveryMode := eqOn_update_right (Set.eqOn_refl _ _) hq
        ioState := eqOn_update_right (Set.eqOn_refl _ _) hq }) (sent_same rfl)
    exact hreleased.trans rfl rfl (handled_setRest _ _)

theorem handled_terminate (h : s.terminate t c pid = some s') : Handled t pid closes s s' := by
  unfold terminate at h
  split at h
  · split at h
    · rw [← Option.some.inj h]
      exact handled_setRest s _
    · cases h
  · rw [← Option.some.inj h]
    exact handled_refl s

/-- **Frame.** A step of `get_bitmap` or `terminate` stores into the slot of its header, if the device
it flips is the partner's own. -/
theorem handled_runPhase {ph : Phase} (hindex : s.FlipsOwn pid ph)
    (h : s.runPhase t c pid io ph = some s') : Handled t pid closes s s' := by
  cases ph with
  | idle => cases h
  | created =>
    rw [← Option.some.inj h]
    exact ⟨fun _ _ => { SameSlots.refl s with }, rfl, rfl, rfl, rfl, rfl, rfl, rfl,
      fun v hv => Function.update_of_ne hv _ _, fun _ => .inl rfl, sent_same rfl⟩
  | indexed =>
    simp only [runPhase] at h
    split at h
    · rw [← Option.some.inj h]
      exact handled_setRest s _
    · cases h
  | gotUser u =>
    rw [← Option.some.inj h]
    exact handled_chooseBranch s u
  | copying half k flip => exact handled_copyStep hindex h
  | loaded =>
    rw [← Option.some.inj h]
    exact handled_sendBitmap s
  | clearing half k =>
    rw [← Option.some.inj h]
    exact handled_clearStep s half k

/-! ### The other handlers -/

theorem pauseConn_sock (t : Net) (pid : Nat) (n : Int) :
    (t.pauseConn pid).sock n = t.sock n ∨
      ((t.pauseConn pid).sock n = none ∧ n = (t.conn pid).connFd.num) := by
  have hsock : (t.pauseConn pid).sock = Function.update t.sock (t.conn pid).connFd.num none := rfl
  rw [hsock]
  by_cases hn : n = (t.conn pid).connFd.num
  · right
    rw [hn, Function.update_self]
    exact ⟨rfl, rfl⟩
  · left
    exact Function.update_of_ne hn _ _

theorem handled_sendChunk (s : NetServer) (content : Mem)
    (hcloses : s.canSend pid io = false → (s.net.conn pid).connFd.num ∈ closes) :
    Handled t pid closes s (s.sendChunk t c pid io content) := by
  unfold sendChunk
  split
  · exact handled_send _ _
  · rename_i hsend
    refine ⟨fun q hq => ?_, rfl, rfl, rfl, rfl, rfl, rfl, rfl, fun v hv => ?_, fun n => ?_,
      sent_same rfl⟩
    · exact { SameSlots.refl s with
        conn := eqOn_update_right (Set.eqOn_refl _ _) hq
        partnerCreated := eqOn_update_right (Set.eqOn_refl _ _) hq
        sockRecovery := eqOn_update_right (Set.eqOn_refl _ _) hq }
    · exact Function.update_of_ne hv _ _
    · refine (pauseConn_sock s.net pid n).imp_right fun h => ⟨h.1, ?_⟩
      rw [h.2]
      exact hcloses (Bool.not_eq_true _ ▸ hsend)

/-- The source disk cannot be read, or the data cannot be sent. -/
def Fails (s : NetServer) (io : Io) : ServerHeader → Prop
  | .data pid _ _ => io.readOk = false ∨ s.canSend pid io = false
  | _ => False

/-- The numbers a handler may close. -/
def closing (s : NetServer) (hdr : ServerHeader) (io : Io) : Set Int :=
  {n | n = (s.net.socketFd hdr.pid).num ∨
    (s.Fails io hdr ∧ n = (s.net.conn hdr.pid).connFd.num)}

theorem handled_getData {currPos chunkPos : Nat} :
    Handled t pid (s.closing (.data pid currPos chunkPos) io) s
      (s.getData t c pid currPos chunkPos io) := by
  unfold getData
  dsimp only
  split
  · exact handled_refl s
  · split
    · exact handled_sendChunk s _ fun hsend => Or.inr ⟨.inr hsend, rfl⟩
    · rename_i hread
      refine ⟨fun q hq => ?_, rfl, rfl, rfl, rfl, rfl, rfl, rfl, fun v hv => ?_, fun n => ?_,
        sent_same rfl⟩
      · exact { SameSlots.refl s with
          conn := eqOn_update_right (Set.eqOn_refl _ _) hq
          sockRecovery := eqOn_update_right (Set.eqOn_refl _ _) hq
          daemon := { ServerDaemon.SameSlots.refl s.daemon with
            disks := eqOn_update_right (Set.eqOn_refl _ _) hq } }
      · exact Function.update_of_ne hv _ _
      · exact (pauseConn_sock s.net pid n).imp_right fun h =>
          ⟨h.1, .inr ⟨.inl (Bool.not_eq_true _ ▸ hread), h.2⟩⟩

/-- **Frame.** A handler stores into the slot its header names, and sends to the connection there. -/
theorem handled_handle {hdr : ServerHeader} (h : s.handle t c io hdr = some s') :
    Handled t hdr.pid (s.closing hdr io) s s' := by
  cases hdr with
  | bitmapMetadata pid => exact handled_getBitmap h
  | data pid currPos chunkPos =>
    rw [← Option.some.inj h]
    exact handled_getData
  | makePartner pid destIp bandwidth disk sizes =>
    simp only [handle, makePartner] at h
    obtain ⟨d, hd, rfl⟩ := Option.map_eq_some_iff.mp h
    refine ⟨fun q hq => ?_, rfl, rfl, rfl, rfl, rfl, rfl, rfl, fun _ _ => rfl, fun _ => .inl rfl,
      sent_same rfl⟩
    exact { SameSlots.refl s with
      socketFd := eqOn_update_right (Set.eqOn_refl _ _) hq
      conn := eqOn_update_right (Set.eqOn_refl _ _) hq
      daemon := ServerDaemon.sameSlots_makePartner hq hd }
  | removePartner pid =>
    simp only [handle, removePartner] at h
    obtain ⟨d, hd, rfl⟩ := Option.map_eq_some_iff.mp h
    refine ⟨fun q hq => ?_, rfl, rfl, rfl, rfl, rfl, rfl, rfl, fun _ _ => rfl, fun n => ?_,
      sent_same rfl⟩
    · exact { SameSlots.refl s with
        socketFd := eqOn_update_right (Set.eqOn_refl _ _) hq
        daemon := ServerDaemon.sameSlots_removePartner hq hd }
    · by_cases hn : n = (s.net.socketFd pid).num
      · exact .inr ⟨hn ▸ Function.update_self _ _ _, .inl hn⟩
      · exact .inl (Function.update_of_ne hn _ _)
  | rmRelation rid =>
    obtain ⟨d, hd, rfl⟩ := Option.map_eq_some_iff.mp h
    exact handled_daemon fun q hq => ServerDaemon.sameSlots_removeRelation hq hd
  | syn pid =>
    obtain ⟨d, hd, rfl⟩ := Option.map_eq_some_iff.mp h
    refine (handled_send s (.synAck pid (s.daemon.replicHdr pid))).trans ?_ ?_
      (.of_net rfl rfl (fun q hq => ?_) (sent_same rfl))
    · rw [send_net]
    · rw [send_net]
    · exact { SameSlots.refl _ with
        daemon := by
          rw [send_daemon]
          exact ServerDaemon.sameSlots_synReceived hq hd }
  | ack pid =>
    cases h
    exact handled_refl s
  | rplcTermination pid => exact handled_terminate h
  | dataReq pid | verifyData pid =>
    simp only [handle] at h
    split at h
    · cases h
      exact handled_send s _
    · cases h

/-! ### Two servers that differ in what is one client's -/

/-- A client: its connections, which number its threads too, and the slots of its partners. -/
structure Client where
  conns : Nat → Bool
  slots : Nat → Bool

/-- The connections of everybody else. -/
def Client.otherConns (cl : Client) : Set Nat := {x | cl.conns x = false}

/-- The slots of everybody else. -/
def Client.otherSlots (cl : Client) : Set Nat := {q | cl.slots q = false}

/-- What was sent to everybody else. -/
def Client.otherReplies (cl : Client) (rs : List Reply) : List Reply :=
  rs.filter fun r => !cl.conns r.conn

/-- Everybody but the client `cl` sees the same. -/
structure SameView (cl : Client) (s s' : NetServer) : Prop extends
    SameSlots cl.otherSlots s s' where
  saved : s.savedIndex.isSome = s'.savedIndex.isSome
  shared : s.net.shared = s'.net.shared
  entry : s.net.entry = s'.net.entry
  nextConn : s.net.nextConn = s'.net.nextConn
  sendRecvTid : s.net.sendRecvTid = s'.net.sendRecvTid
  thread : Set.EqOn s.net.thread s'.net.thread cl.otherConns
  rest : Set.EqOn s.net.rest s'.net.rest cl.otherConns
  last : Set.EqOn s.net.last s'.net.last cl.otherConns
  created : ∀ v k k', s.net.thread v = some (.created k) → s'.net.thread v = some (.created k') →
    k = k'
  peer : ∀ n, ∀ x ∈ cl.otherConns, s.net.peer n = some x ↔ s'.net.peer n = some x
  sent : cl.otherReplies s.sent = cl.otherReplies s'.sent

variable {cl : Client}

theorem SameView.refl (s : NetServer) : SameView cl s s where
  toSameSlots := SameSlots.refl s
  saved := rfl
  shared := rfl
  entry := rfl
  nextConn := rfl
  sendRecvTid := rfl
  thread := Set.eqOn_refl _ _
  rest := Set.eqOn_refl _ _
  last := Set.eqOn_refl _ _
  created := fun _ _ _ hk hk' => SendRecvThread.created.inj (Option.some.inj (hk.symm.trans hk'))
  peer := fun _ _ _ => Iff.rfl
  sent := rfl

theorem SameView.symm (h : SameView cl s s') : SameView cl s' s where
  toSameSlots := h.toSameSlots.symm
  saved := h.saved.symm
  shared := h.shared.symm
  entry := h.entry.symm
  nextConn := h.nextConn.symm
  sendRecvTid := h.sendRecvTid.symm
  thread := h.thread.symm
  rest := h.rest.symm
  last := h.last.symm
  created := fun v k k' hk hk' => (h.created v k' k hk' hk).symm
  peer := fun n x hx => (h.peer n x hx).symm
  sent := h.sent.symm

theorem peer_close_iff (t : Net) (fd : Fd) (n : Int) (x : Nat) :
    (t.close fd).peer n = some x ↔ n ≠ fd.num ∧ t.peer n = some x := by
  unfold Net.peer Net.close
  by_cases hn : n = fd.num
  · rw [hn]
    simp
  · simp [hn]

theorem peer_pauseConn_iff (t : Net) (pid : Nat) (n : Int) (x : Nat) :
    (t.pauseConn pid).peer n = some x ↔ n ≠ (t.conn pid).connFd.num ∧ t.peer n = some x :=
  peer_close_iff _ _ n x

theorem SameView.send (h : SameView cl s s')
    (hpeer : s.net.peer (s.net.socketFd pid).num = s'.net.peer (s'.net.socketFd pid).num)
    (p : Payload) : SameView cl (s.send pid io p) (s'.send pid io p) := by
  have hcan : s.canSend pid io = s'.canSend pid io := by
    unfold canSend
    rw [hpeer]
  unfold NetServer.send
  rw [← hcan, ← hpeer]
  split
  · exact { h with
      sent := by
        unfold Client.otherReplies
        rw [List.filter_append, List.filter_append]
        exact congrArg (· ++ _) h.sent }
  · exact h

section Slot

variable (h : SameView cl s s') (hp : pid ∈ cl.otherSlots)
include h hp

omit hp in
theorem SameView.setRest (tail : Option Tail) :
    SameView cl (s.setRest t tail) (s'.setRest t tail) :=
  { h with rest := eqOn_update h.rest fun _ => rfl }

omit hp in
theorem SameView.round_phase {r r' : BitmapRound} (hr : r = r') (ph : Phase) :
    SameView cl ((s.setRound pid r).setPhase t c pid ph) ((s'.setRound pid r').setPhase t c pid ph) :=
  { h with
    round := eqOn_update h.round fun _ => hr
    rest := eqOn_update h.rest fun _ => rfl }

theorem SameView.getBitmap (hs : s.getBitmap t c pid = some u)
    (hs' : s'.getBitmap t c pid = some u') : SameView cl u u' := by
  obtain ⟨d, hd, rfl⟩ := Option.map_eq_some_iff.mp hs
  obtain ⟨d', hd', rfl⟩ := Option.map_eq_some_iff.mp hs'
  have hdaemon : SameView cl { s with daemon := d } { s' with daemon := d' } :=
    { h with daemon := h.daemon.getBitmap hp hd hd' }
  exact hdaemon.round_phase (by dsimp only; rw [h.round hp]) .created

theorem SameView.chooseHalf (half : Half) (flip : Bool) :
    SameView cl (s.chooseHalf t c pid half flip) (s'.chooseHalf t c pid half flip) :=
  h.round_phase (by rw [h.round hp, h.daemon.disks hp]) _

theorem SameView.chooseBranch (v : BmapUser) :
    SameView cl (s.chooseBranch t c pid v) (s'.chooseBranch t c pid v) := by
  have hnormal : s.Normal pid ↔ s'.Normal pid := by
    unfold Normal
    rw [h.recoveryMode hp, h.conn hp]
  unfold NetServer.chooseBranch
  by_cases hn : s.Normal pid
  · rw [if_pos hn, if_pos (hnormal.mp hn)]
    exact h.chooseHalf hp _ _
  · rw [if_neg hn, if_neg fun hn' => hn (hnormal.mpr hn'), h.round hp]
    have hconn : SameView cl
        { s with net := s.net.setConn pid { s.net.conn pid with objState := .inUse } }
        { s' with net := s'.net.setConn pid { s'.net.conn pid with objState := .inUse } } :=
      { h with conn := eqOn_update h.conn fun _ => by rw [h.conn hp] }
    exact hconn.chooseHalf hp _ _

theorem SameView.markReady : SameView cl (s.markReady t c pid) (s'.markReady t c pid) :=
  h.round_phase (by rw [h.round hp]) _

theorem SameView.copyStep {half : Half} {k : Nat} {flip : Bool}
    (hi : s.FlipsOwn pid (.copying half k flip)) (hi' : s'.FlipsOwn pid (.copying half k flip))
    (hs : s.copyStep t c pid half k flip = some u)
    (hs' : s'.copyStep t c pid half k flip = some u') : SameView cl u u' := by
  have hround : s.round pid = s'.round pid := h.round hp
  unfold NetServer.copyStep at hs hs'
  dsimp only at hs hs'
  rw [← hround] at hs'
  by_cases hk : k < (s.round pid).ubitmap.bitmapSize / 8
  · rw [if_pos hk] at hs hs'
    split at hs
    · rename_i hroom
      rw [if_pos hroom] at hs'
      rw [← Option.some.inj hs, ← Option.some.inj hs']
      exact h.round_phase (by rw [hround]) _
    · cases hs
  · rw [if_neg hk] at hs hs'
    cases flip with
    | false =>
      rw [← Option.some.inj hs, ← Option.some.inj hs']
      exact h.markReady hp
    | true =>
      have hindex : s.ioctlIndex = pid + 1 := hi.resolve_left hk
      have hindex' : s'.ioctlIndex = pid + 1 := hi'.resolve_left fun hk' => hk (by rwa [hround])
      rw [if_pos rfl, hindex] at hs
      rw [if_pos rfl, hindex'] at hs'
      split at hs
      · split at hs'
        · rw [← Option.some.inj hs, ← Option.some.inj hs', Nat.add_sub_cancel]
          have hflip : SameView cl (s.flipDevice pid) (s'.flipDevice pid) :=
            { h with round := eqOn_update h.round fun _ => by rw [hround] }
          exact hflip.markReady hp
        · cases hs'
      · cases hs

theorem SameView.sendBitmap
    (hpeer : s.net.peer (s.net.socketFd pid).num = s'.net.peer (s'.net.socketFd pid).num) :
    SameView cl (s.sendBitmap t pid io) (s'.sendBitmap t pid io) := by
  have hcan : s.canSend pid io = s'.canSend pid io := by
    unfold canSend
    rw [hpeer]
  have hsent : ∀ p, SameView cl ((s.send pid io p).setRest t none)
      ((s'.send pid io p).setRest t none) := fun p => (h.send hpeer p).setRest none
  unfold NetServer.sendBitmap
  dsimp only
  rw [← h.round hp, ← hcan]
  split
  · exact { hsent _ with ioState := eqOn_update h.ioState fun _ => rfl }
  · exact hsent _

theorem SameView.clearStep (half : Half) (k : Nat) :
    SameView cl (s.clearStep t c pid half k) (s'.clearStep t c pid half k) := by
  unfold NetServer.clearStep
  dsimp only
  rw [← h.daemon.disks hp, ← h.round hp]
  split
  · exact h.round_phase rfl _
  · exact { h.setRest none with
      daemon := h.daemon.releaseObjects hp
      recoveryMode := eqOn_update h.recoveryMode fun _ => rfl
      ioState := eqOn_update h.ioState fun _ => rfl }

/-- **Two steps** of `get_bitmap` or `terminate`. -/
theorem SameView.runPhase {ph : Phase} (hi : s.UsesOwn pid ph) (hi' : s'.UsesOwn pid ph)
    (hpeer : s.net.peer (s.net.socketFd pid).num = s'.net.peer (s'.net.socketFd pid).num)
    (hs : s.runPhase t c pid io ph = some u) (hs' : s'.runPhase t c pid io ph = some u') :
    SameView cl u u' := by
  cases ph with
  | idle => cases hs
  | created =>
    rw [← Option.some.inj hs, ← Option.some.inj hs']
    exact { h with rest := eqOn_update h.rest fun _ => rfl }
  | indexed =>
    have hindex : s.ioctlIndex = pid + 1 := hi
    have hindex' : s'.ioctlIndex = pid + 1 := hi'
    simp only [NetServer.runPhase, hindex, hindex', Nat.add_sub_cancel] at hs hs'
    split at hs
    · split at hs'
      · rw [← Option.some.inj hs, ← Option.some.inj hs', h.round hp]
        exact h.setRest _
      · cases hs'
    · cases hs
  | gotUser v =>
    rw [← Option.some.inj hs, ← Option.some.inj hs']
    exact h.chooseBranch hp v
  | copying half k flip => exact h.copyStep hp hi hi' hs hs'
  | loaded =>
    rw [← Option.some.inj hs, ← Option.some.inj hs']
    exact h.sendBitmap hp hpeer
  | clearing half k =>
    rw [← Option.some.inj hs, ← Option.some.inj hs']
    exact h.clearStep hp half k

theorem SameView.terminate (hs : s.terminate t c pid = some u)
    (hs' : s'.terminate t c pid = some u') : SameView cl u u' := by
  unfold NetServer.terminate at hs hs'
  rw [← h.daemon.partners hp, ← h.round hp] at hs'
  by_cases hrel : (s.daemon.objects.partners pid).objState ≠ .released
  · rw [if_pos hrel] at hs hs'
    split at hs
    · split at hs'
      · rw [← Option.some.inj hs, ← Option.some.inj hs']
        exact h.setRest _
      · cases hs'
    · cases hs
  · rw [if_neg hrel] at hs hs'
    rw [← Option.some.inj hs, ← Option.some.inj hs']
    exact h

theorem SameView.pauseConn :
    SameView cl { s with net := s.net.pauseConn pid } { s' with net := s'.net.pauseConn pid } :=
  { h with
    conn := eqOn_update h.conn fun _ => by
      dsimp only
      rw [h.conn hp]
    sockRecovery := eqOn_update h.sockRecovery fun _ => rfl
    peer := by
      intro n x hx
      dsimp only
      rw [peer_pauseConn_iff, peer_pauseConn_iff, h.peer n x hx, h.conn hp] }

theorem SameView.sendChunk
    (hpeer : s.net.peer (s.net.socketFd pid).num = s'.net.peer (s'.net.socketFd pid).num)
    (content : Mem) :
    SameView cl (s.sendChunk t c pid io content) (s'.sendChunk t c pid io content) := by
  have hcan : s.canSend pid io = s'.canSend pid io := by
    unfold canSend
    rw [hpeer]
  unfold NetServer.sendChunk
  rw [← hcan]
  split
  · exact h.send hpeer _
  · have hpause := h.pauseConn hp
    exact { hpause with
      partnerCreated := eqOn_update hpause.partnerCreated fun _ => rfl
      rest := eqOn_update hpause.rest fun _ => rfl }

theorem SameView.getData
    (hpeer : s.net.peer (s.net.socketFd pid).num = s'.net.peer (s'.net.socketFd pid).num)
    (currPos chunkPos : Nat) :
    SameView cl (s.getData t c pid currPos chunkPos io)
      (s'.getData t c pid currPos chunkPos io) := by
  unfold NetServer.getData
  dsimp only
  rw [← h.ioState hp, ← h.daemon.replicHdr hp]
  split
  · exact h
  · split
    · exact h.sendChunk hp hpeer _
    · have hpause := h.pauseConn hp
      exact { hpause with
        rest := eqOn_update hpause.rest fun _ => rfl
        daemon := { h.daemon with disks := h.daemon.setDiskState hp _ } }

end Slot

/-- **Two handlers.** What a handler stores into its slot and sends depends on that slot only, and on
the entry of the accept loop. -/
theorem SameView.handle {hdr : ServerHeader} (h : SameView cl s s') (hp : hdr.pid ∈ cl.otherSlots)
    (hpeer : s.net.peer (s.net.socketFd hdr.pid).num = s'.net.peer (s'.net.socketFd hdr.pid).num)
    (hs : s.handle t c io hdr = some u) (hs' : s'.handle t c io hdr = some u') :
    SameView cl u u' := by
  cases hdr with
  | bitmapMetadata pid => exact h.getBitmap hp hs hs'
  | data pid currPos chunkPos =>
    rw [← Option.some.inj hs, ← Option.some.inj hs']
    exact h.getData hp hpeer currPos chunkPos
  | makePartner pid destIp bandwidth disk sizes =>
    simp only [NetServer.handle, makePartner] at hs hs'
    obtain ⟨d, hd, rfl⟩ := Option.map_eq_some_iff.mp hs
    obtain ⟨d', hd', rfl⟩ := Option.map_eq_some_iff.mp hs'
    exact { h with
      daemon := h.daemon.makePartner hp hd hd'
      conn := eqOn_update h.conn fun _ => h.shared
      socketFd := eqOn_update h.socketFd fun _ => by rw [h.shared] }
  | removePartner pid =>
    simp only [NetServer.handle, removePartner] at hs hs'
    obtain ⟨d, hd, rfl⟩ := Option.map_eq_some_iff.mp hs
    obtain ⟨d', hd', rfl⟩ := Option.map_eq_some_iff.mp hs'
    exact { h with
      daemon := h.daemon.removePartner hp hd hd'
      socketFd := eqOn_update h.socketFd fun _ => rfl
      peer := by
        intro n x hx
        have hfd : s.net.socketFd pid = s'.net.socketFd pid := h.socketFd hp
        have hclosed : (s.net.close (s.net.socketFd pid)).peer n = some x ↔
            (s'.net.close (s'.net.socketFd pid)).peer n = some x := by
          rw [peer_close_iff, peer_close_iff, hfd, h.peer n x hx]
        exact hclosed }
  | rmRelation rid =>
    obtain ⟨d, hd, rfl⟩ := Option.map_eq_some_iff.mp hs
    obtain ⟨d', hd', rfl⟩ := Option.map_eq_some_iff.mp hs'
    exact { h with daemon := h.daemon.removeRelation hp hd hd' }
  | syn pid =>
    obtain ⟨d, hd, rfl⟩ := Option.map_eq_some_iff.mp hs
    obtain ⟨d', hd', rfl⟩ := Option.map_eq_some_iff.mp hs'
    have hsizes : s.daemon.replicHdr pid = s'.daemon.replicHdr pid := h.daemon.replicHdr hp
    rw [← hsizes]
    exact { h.send hpeer _ with daemon := h.daemon.synReceived hp hd hd' }
  | ack pid =>
    cases hs
    cases hs'
    exact h
  | rplcTermination pid => exact h.terminate hp hs hs'
  | dataReq pid | verifyData pid =>
    simp only [NetServer.handle] at hs hs'
    split at hs
    · split at hs'
      · cases hs
        cases hs'
        exact h.send hpeer _
      · cases hs'
    · cases hs

/-- A handler of the client's thread that keeps to the client's slot and connections. -/
theorem Handled.sameView (hh : Handled t pid closes s s') (ht : cl.conns t = true)
    (hp : cl.slots pid = true)
    (hto : s'.sent = s.sent ∨ ∀ d ∈ s.net.peer (s.net.socketFd pid).num, cl.conns d = true)
    (hcloses : ∀ n ∈ closes, ∀ d ∈ s.net.peer n, cl.conns d = true) : SameView cl s s' where
  toSameSlots := by
    apply hh.slots
    intro hother
    rw [show cl.slots pid = false from hother] at hp
    cases hp
  saved := by rw [hh.saved]
  shared := hh.shared.symm
  entry := hh.entry.symm
  nextConn := hh.nextConn.symm
  sendRecvTid := hh.sendRecvTid.symm
  thread := by
    rw [hh.thread]
    exact Set.eqOn_refl _ _
  rest := by
    intro v hv
    have hne : v ≠ t := by
      rintro rfl
      rw [show cl.conns v = false from hv] at ht
      cases ht
    exact (hh.rest v hne).symm
  last := by
    rw [hh.last]
    exact Set.eqOn_refl _ _
  created := by
    rw [hh.thread]
    exact (@SameView.refl cl s).created
  peer := by
    intro n x hx
    rcases hh.sock n with heq | ⟨hnone, hn⟩
    · unfold Net.peer
      rw [heq]
    · have hgone : s'.net.peer n = none := by
        unfold Net.peer
        rw [hnone]
        rfl
      rw [hgone]
      refine ⟨fun hpeer => ?_, nofun⟩
      -- the connection would be the client's own
      have hmine := hcloses n hn x hpeer
      rw [show cl.conns x = false from hx] at hmine
      cases hmine
  sent := by
    rcases hto with heq | hto
    · rw [heq]
    obtain ⟨rs, hrs, hmine⟩ := hh.sent
    have hnone : cl.otherReplies rs = [] := by
      unfold Client.otherReplies
      rw [List.filter_eq_nil_iff]
      intro r hr
      simp [hto r.conn (hmine r hr)]
    unfold Client.otherReplies at hnone ⊢
    rw [hrs, List.filter_append, hnone, List.append_nil]

end NetServer

end Ebdr
