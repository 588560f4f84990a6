import Ebdr.Database.Restart
import Mathlib

/-!
# The server over its starts and ends

The tables outlive the process of the server, and only a running server changes them. A start comes up
exactly when every disk of the table has a partner of its number with a live row (`restart_outcome`).
`terminate` marks the row of its partner released and leaves the disk's: a server that ends between a
finished round and the next request for metadata never runs again (`finished_round_ends_server`). A
server that has come up with a disk listens already, and the `c` command, which binds its socket once
in a process, ends it (`create_ends_recovered`).
-/

namespace Ebdr

open CInt Lts

namespace ServerProcess

variable {s t : ServerProcess} {db : Db} {env : StartEnv}

/-! ### What a running server keeps -/

/-- The rows that a server may leave. -/
structure Sound (db : Db) : Prop where
  disks : ∀ r ∈ db.disk, r.state ≠ .released
  fits : db.disk.length ≤ ServerDaemon.memoryFds
  pids : ∀ r ∈ db.partner, r.pid < maxPid

/-- A process that runs: its disks are those of the table. -/
structure Up (s : ServerProcess) : Prop where
  dbLock : s.dbLock = false
  dsCount : s.daemon.dsCount = s.daemon.db.disk.length
  unused : ∀ j, s.daemon.db.disk.length ≤ j → (s.daemon.objects.disks j).bitmapSize = 0
  marked : ∀ pid, s.recoveryMode pid = true → s.daemon.db.HasLivePartner pid

/-- An operation keeps the disks, and the number of rows. -/
structure KeepsDisks (d d' : ServerDaemon) : Prop where
  dsCount : d'.dsCount = d.dsCount
  size : ∀ j, (d'.objects.disks j).bitmapSize = (d.objects.disks j).bitmapSize
  length : d'.db.disk.length = d.db.disk.length
  sound : Sound d.db → Sound d'.db

section Operations

variable {d d' : ServerDaemon} {pid : Nat}

theorem KeepsDisks.same (hcount : d'.dsCount = d.dsCount)
    (hdisks : d'.objects.disks = d.objects.disks) (hdisk : d'.db.disk = d.db.disk)
    (hpids : ∀ r ∈ d'.db.partner, r.pid < maxPid ∨ ∃ r' ∈ d.db.partner, r'.pid = r.pid) :
    KeepsDisks d d' where
  dsCount := hcount
  size := fun j => by rw [hdisks]
  length := by rw [hdisk]
  sound := fun h => by
    refine ⟨hdisk ▸ h.disks, hdisk ▸ h.fits, fun r hr => ?_⟩
    rcases hpids r hr with hlt | ⟨r', hr', hpid⟩
    · exact hlt
    · exact hpid ▸ h.pids r' hr'

theorem setDiskState_size (o : Objects) (st : DiskObjState) (j : Nat) :
    ((o.setDiskState pid st).disks j).bitmapSize = (o.disks j).bitmapSize := by
  show (Function.update o.disks pid _ j).bitmapSize = _
  by_cases hj : j = pid
  · rw [hj, Function.update_self]
  · rw [Function.update_of_ne hj]

theorem pid_updateIntoPartner (db : Db) (st : PartnerObjState) :
    ∀ r ∈ (db.updateIntoPartner pid st).partner, r.pid < maxPid ∨ ∃ r' ∈ db.partner, r'.pid = r.pid := by
  intro r hr
  obtain ⟨r', hr', rfl⟩ := List.mem_map.mp hr
  refine Or.inr ⟨r', hr', ?_⟩
  split <;> rfl

theorem state_updateDiskState {db : Db} (h : ∀ r ∈ db.disk, r.state ≠ .released) :
    ∀ r ∈ (db.updateDiskState pid .inUse).disk, r.state ≠ .released := by
  intro r hr
  obtain ⟨r', hr', rfl⟩ := List.mem_map.mp hr
  split
  · exact DiskObjState.noConfusion
  · exact h r' hr'

theorem keepsDisks_refl (d : ServerDaemon) : KeepsDisks d d :=
  .same rfl rfl rfl fun r hr => Or.inr ⟨r, hr, rfl⟩

theorem keepsDisks_makeRelationWithClient (role : Nat) (srcDisk : String) (hs : HeaderSizes) :
    KeepsDisks d (d.makeRelationWithClient pid role srcDisk hs) := by
  unfold ServerDaemon.makeRelationWithClient
  dsimp only
  split <;> exact .same rfl rfl rfl fun r hr => Or.inr ⟨r, hr, rfl⟩

theorem KeepsDisks.trans {e : ServerDaemon} (h : KeepsDisks d d') (h' : KeepsDisks d' e) :
    KeepsDisks d e :=
  ⟨h'.dsCount.trans h.dsCount, fun j => (h'.size j).trans (h.size j), h'.length.trans h.length,
    fun hs => h'.sound (h.sound hs)⟩

theorem keepsDisks_makePartner {destIp disk : String} {bandwidth : Nat} {hs : HeaderSizes}
    (h : d.makePartner pid destIp bandwidth disk hs = some d') : KeepsDisks d d' := by
  unfold ServerDaemon.makePartner at h
  split at h
  case isFalse => cases h
  rename_i hpid
  have hinsert : KeepsDisks d { d with
      objects := d.objects.setPartner pid ⟨pid, .inUse, destIp, bandwidth⟩
      partnerOps := Function.update d.partnerOps pid true
      repConn := Function.update d.repConn pid true
      db := d.db.insertIntoPartner pid .inUse destIp bandwidth } := by
    refine .same rfl rfl rfl fun r hr => ?_
    rcases List.mem_append.mp hr with hr | hr
    · exact Or.inr ⟨r, hr, rfl⟩
    · rw [List.mem_singleton.mp hr]
      exact Or.inl hpid
  dsimp only at h
  split at h
  · rw [← Option.some.inj h]
    exact hinsert.trans (keepsDisks_makeRelationWithClient ..)
  · rw [← Option.some.inj h]
    exact hinsert

theorem keepsDisks_getBitmap (h : d.getBitmap pid = some d') : KeepsDisks d d' := by
  unfold ServerDaemon.getBitmap at h
  split at h
  case isFalse => cases h
  dsimp only at h
  split at h
  · rw [← Option.some.inj h]
    refine ⟨rfl, fun j => setDiskState_size _ _ j, List.length_map _, fun hs => ?_⟩
    refine ⟨state_updateDiskState hs.disks, ?_, fun r hr => ?_⟩
    · exact (List.length_map _).trans_le hs.fits
    · rcases pid_updateIntoPartner d.db .inUse r hr with hlt | ⟨r', hr', hpid⟩
      · exact hlt
      · exact hpid ▸ hs.pids r' hr'
  · rw [← Option.some.inj h]
    exact .same rfl rfl rfl fun r hr => Or.inr ⟨r, hr, rfl⟩

theorem keepsDisks_terminate (h : d.terminate pid = some d') : KeepsDisks d d' := by
  unfold ServerDaemon.terminate at h
  split at h
  · split at h
    case isFalse => cases h
    rw [← Option.some.inj h]
    refine ⟨rfl, fun j => setDiskState_size _ _ j, rfl, fun hs => ⟨hs.disks, hs.fits, ?_⟩⟩
    intro r hr
    rcases pid_updateIntoPartner d.db .released r hr with hlt | ⟨r', hr', hpid⟩
    · exact hlt
    · exact hpid ▸ hs.pids r' hr'
  · rw [← Option.some.inj h]
    exact keepsDisks_refl d

theorem keepsDisks_step {op : ServerDaemon.Op} (hop : ∀ name size, op ≠ .createDisk name size)
    (h : d.step op = some d') : KeepsDisks d d' := by
  cases op with
  | createDisk name size => exact absurd rfl (hop name size)
  | makePartner pid destIp bandwidth disk hs => exact keepsDisks_makePartner h
  | makeRelation pid role srcDisk hs =>
    rw [← Option.some.inj h, ServerDaemon.makeRelation]
    split
    · exact keepsDisks_makeRelationWithClient ..
    · exact keepsDisks_refl d
  | syn pid =>
    obtain ⟨-, h⟩ := Option.ite_none_right_eq_some.mp h
    rw [← Option.some.inj h]
    exact .same rfl rfl rfl fun r hr => Or.inr ⟨r, hr, rfl⟩
  | getBitmap pid => exact keepsDisks_getBitmap h
  | terminate pid => exact keepsDisks_terminate h
  | removePartner pid =>
    obtain ⟨-, h⟩ := Option.ite_none_right_eq_some.mp h
    rw [← Option.some.inj h]
    refine .same rfl ?_ rfl fun r hr => Or.inr ⟨r, hr, rfl⟩
    dsimp only
    split <;> rfl
  | removeRelation | accept =>
    obtain ⟨-, h⟩ := Option.ite_none_right_eq_some.mp h
    rw [← Option.some.inj h]
    exact .same rfl rfl rfl fun r hr => Or.inr ⟨r, hr, rfl⟩

end Operations

/-! ### Live rows -/

/-- A row of this key is not released. -/
def LiveIn (rows : List (Nat × PartnerObjState)) (pid : Nat) : Prop :=
  ∃ x ∈ rows, x.1 = pid ∧ x.2 ≠ .released

theorem hasLivePartner_iff {pid : Nat} : db.HasLivePartner pid ↔ LiveIn db.partnerStates pid := by
  simp only [Db.HasLivePartner, LiveIn, Db.livePartners, Db.partnerStates, List.mem_filter,
    List.mem_map, decide_eq_true_eq]
  constructor
  · rintro ⟨r, ⟨hr, hst⟩, hp⟩
    exact ⟨_, ⟨r, hr, rfl⟩, hp, hst⟩
  · rintro ⟨-, ⟨r, hr, rfl⟩, hp, hst⟩
    exact ⟨r, ⟨hr, hst⟩, hp⟩

section LiveRows

open Mirror

variable {rows : List (Nat × PartnerObjState)} {p q : Nat}

theorem liveIn_append {x : Nat × PartnerObjState} :
    LiveIn (rows ++ [x]) p ↔ LiveIn rows p ∨ x.1 = p ∧ x.2 ≠ .released := by
  simp [LiveIn, or_and_right, exists_or]

theorem liveIn_setRows_of_ne (h : p ≠ q) {v : PartnerObjState} :
    LiveIn (setRows q v rows) p ↔ LiveIn rows p := by
  simp only [LiveIn, setRows, List.mem_map]
  constructor
  · rintro ⟨-, ⟨x, hx, rfl⟩, hp, hv⟩
    by_cases hq : x.1 = q
    · rw [if_pos hq] at hp
      exact absurd hp.symm h
    · rw [if_neg hq] at hp hv
      exact ⟨x, hx, hp, hv⟩
  · rintro ⟨x, hx, hp, hv⟩
    refine ⟨x, ⟨x, hx, if_neg (fun hq => h (hp.symm.trans hq))⟩, hp, hv⟩

theorem liveIn_setRows_self {v : PartnerObjState} (h : LiveIn rows p) (hv : v ≠ .released) :
    LiveIn (setRows p v rows) p := by
  obtain ⟨x, hx, hp, -⟩ := h
  exact ⟨(p, v), List.mem_map.mpr ⟨x, hx, if_pos hp⟩, rfl, hv⟩

theorem not_liveIn_setRows_released (p q : Nat) (h : p = q ∨ ¬ LiveIn rows p) :
    ¬ LiveIn (setRows q .released rows) p := by
  by_cases hpq : p = q
  · rintro ⟨y, hy, hp, hv⟩
    obtain ⟨x, -, rfl⟩ := List.mem_map.mp hy
    by_cases hx : x.1 = q
    · rw [if_pos hx] at hv
      exact hv rfl
    · rw [if_neg hx] at hp
      exact hx (hp.trans hpq)
  · rw [liveIn_setRows_of_ne hpq]
    exact h.resolve_left hpq

variable {d d' : ServerDaemon} {op : ServerDaemon.Op}

/-- An operation that makes the partner's row live again. -/
def Renews (pid : Nat) (op : ServerDaemon.Op) : Prop :=
  op = .getBitmap pid ∨ ∃ destIp bandwidth disk h, op = .makePartner pid destIp bandwidth disk h

theorem live_step (h : d.step op = some d') (hop : op ≠ .terminate p)
    (hlive : d.db.HasLivePartner p) : d'.db.HasLivePartner p := by
  rw [hasLivePartner_iff] at hlive ⊢
  rw [(ServerDaemon.hasEffects h).partners.2]
  cases op with
  | makePartner => exact liveIn_append.mpr (Or.inl hlive)
  | getBitmap q =>
    simp only [ServerDaemon.partnerEffect]
    split
    · by_cases hp : p = q
      · subst hp
        exact liveIn_setRows_self hlive PartnerObjState.noConfusion
      · exact (liveIn_setRows_of_ne hp).mpr hlive
    · exact hlive
  | terminate q =>
    simp only [ServerDaemon.partnerEffect]
    split
    · exact (liveIn_setRows_of_ne fun hp => hop (by rw [hp])).mpr hlive
    · exact hlive
  | createDisk | makeRelation | syn | removePartner | removeRelation | accept => exact hlive

/-- A partner without a live row gets one only by the operations that renew it. -/
theorem dead_step (h : d.step op = some d') (hop : ¬ Renews p op)
    (hdead : ¬ d.db.HasLivePartner p) : ¬ d'.db.HasLivePartner p := by
  rw [hasLivePartner_iff] at hdead ⊢
  rw [(ServerDaemon.hasEffects h).partners.2]
  cases op with
  | makePartner q destIp bandwidth disk hs =>
    refine fun hlive => (liveIn_append.mp hlive).elim hdead fun hq => hop (Or.inr ?_)
    exact ⟨destIp, bandwidth, disk, hs, by rw [← hq.1]⟩
  | getBitmap q =>
    simp only [ServerDaemon.partnerEffect]
    split
    · have hne : p ≠ q := fun hp => hop (Or.inl (by rw [hp]))
      exact fun hlive => hdead ((liveIn_setRows_of_ne hne).mp hlive)
    · exact hdead
  | terminate q =>
    simp only [ServerDaemon.partnerEffect]
    split
    · exact not_liveIn_setRows_released p q (Or.inr hdead)
    · exact hdead
  | createDisk | makeRelation | syn | removePartner | removeRelation | accept => exact hdead

theorem dead_terminate (h : d.terminate p = some d')
    (hactive : (d.objects.partners p).objState ≠ .released) : ¬ d'.db.HasLivePartner p := by
  rw [hasLivePartner_iff, (ServerDaemon.hasEffects_terminate h).partners.2]
  simp only [ServerDaemon.partnerEffect, if_pos hactive]
  exact not_liveIn_setRows_released p p (Or.inl rfl)

end LiveRows

/-! ### The commands and handlers of a running server -/

/-- A call keeps the disks of a running process, and whether it listens. -/
structure Keeps (s t : ServerProcess) : Prop where
  up : Up t
  sound : Sound t.daemon.db
  length : t.daemon.db.disk.length = s.daemon.db.disk.length
  listening : t.listening = s.listening
  once : t.once = s.once

theorem Up.withDaemon {d : ServerDaemon} {recovery : Nat → Bool} (h : Up s)
    (hs : Sound s.daemon.db) (hd : KeepsDisks s.daemon d)
    (hmark : ∀ pid, recovery pid = true → d.db.HasLivePartner pid) :
    Keeps s { s with daemon := d, recoveryMode := recovery } where
  up :=
    { dbLock := h.dbLock
      dsCount := hd.dsCount.trans (h.dsCount.trans hd.length.symm)
      unused := fun j hj => (hd.size j).trans (h.unused j (hd.length ▸ hj))
      marked := hmark }
  sound := hd.sound hs
  length := hd.length
  listening := rfl
  once := rfl

theorem keeps_terminate {pid : Nat} (h : Up s) (hs : Sound s.daemon.db)
    (ht : s.terminate pid = some t) : Keeps s t := by
  unfold terminate at ht
  split at ht
  · split at ht
    case isFalse => cases ht
    obtain ⟨d, hd, rfl⟩ := Option.map_eq_some_iff.mp ht
    refine h.withDaemon hs (keepsDisks_terminate hd) fun p hp => ?_
    by_cases hpid : p = pid
    · rw [hpid, Function.update_self] at hp
      cases hp
    · rw [Function.update_of_ne hpid] at hp
      have hstep : s.daemon.step (.terminate pid) = some d := hd
      exact live_step hstep (by simpa using Ne.symm hpid) (h.marked p hp)
  · obtain rfl := Option.some.inj ht
    exact ⟨h, hs, rfl, rfl, rfl⟩

theorem handle_eq {op : ServerDaemon.Op} (h : s.handle op = some t)
    (hterm : ∀ pid, op ≠ .terminate pid) :
    (∀ name size, op ≠ .createDisk name size) ∧
      s.handle op = (s.daemon.step op).map fun d => { s with daemon := d } := by
  cases op with
  | createDisk | accept => cases h
  | terminate pid => exact absurd rfl (hterm pid)
  | makePartner | makeRelation | syn | getBitmap | removePartner | removeRelation =>
    exact ⟨fun _ _ => ServerDaemon.Op.noConfusion, rfl⟩

theorem keeps_handle {op : ServerDaemon.Op} (h : Up s) (hs : Sound s.daemon.db)
    (ht : s.handle op = some t) : Keeps s t := by
  by_cases hterm : ∃ pid, op = .terminate pid
  · obtain ⟨pid, rfl⟩ := hterm
    exact keeps_terminate h hs ht
  · have hterm' : ∀ pid, op ≠ .terminate pid := fun pid hop => hterm ⟨pid, hop⟩
    obtain ⟨hcreate, heq⟩ := handle_eq ht hterm'
    rw [heq] at ht
    obtain ⟨d, hd, rfl⟩ := Option.map_eq_some_iff.mp ht
    exact h.withDaemon hs (keepsDisks_step hcreate hd) fun p hp =>
      live_step hd (hterm' p) (h.marked p hp)

theorem accept_eq {recovering : Option Nat} (h : s.accept recovering = some t) :
    ∃ f, t = s.setObjects { s.daemon.objects with partners := f } := by
  obtain ⟨-, h⟩ := Option.ite_none_right_eq_some.mp h
  obtain ⟨d, hd, h⟩ := Option.bind_eq_some_iff.mp h
  obtain ⟨-, hd⟩ := Option.ite_none_right_eq_some.mp hd
  obtain rfl := Option.some.inj hd
  split at h
  · exact ⟨_, (Option.some.inj h).symm⟩
  · obtain ⟨-, h⟩ := Option.ite_none_right_eq_some.mp h
    exact ⟨_, (Option.some.inj h).symm⟩

theorem keeps_accept {recovering : Option Nat} (h : Up s) (hs : Sound s.daemon.db)
    (ht : s.accept recovering = some t) : Keeps s t := by
  obtain ⟨f, rfl⟩ := accept_eq ht
  exact ⟨⟨h.dbLock, h.dsCount, h.unused, h.marked⟩, hs, rfl, rfl, rfl⟩

theorem keeps_snapshotDiskInit (snapDisk : String) (pid : Nat) (h : Up s) (hs : Sound s.daemon.db) :
    (∃ t, s.snapshotDiskInit snapDisk pid = .returns t ∧ Keeps s t ∧
        t.daemon.db.partner = s.daemon.db.partner) ∨
      s.snapshotDiskInit snapDisk pid = .undefined := by
  unfold snapshotDiskInit
  split
  case isFalse => exact Or.inr rfl
  left
  have hsize : ∀ j, ((s.daemon.objects.setDisk pid { s.daemon.objects.disks pid with
      snapName := snapDisk }).disks j).bitmapSize = (s.daemon.objects.disks j).bitmapSize := by
    intro j
    show (Function.update s.daemon.objects.disks pid _ j).bitmapSize = _
    by_cases hj : j = pid
    · rw [hj, Function.update_self]
    · rw [Function.update_of_ne hj]
  dsimp only
  by_cases hmark : s.recoveryMode pid = true
  · rw [if_pos (by exact hmark), Outcome.returns_andThen]
    exact ⟨_, rfl, ⟨⟨h.dbLock, h.dsCount, fun j hj => (hsize j).trans (h.unused j hj), h.marked⟩, hs,
      rfl, rfl, rfl⟩, rfl⟩
  · rw [if_neg (by exact hmark), exec_of_unlocked (by exact h.dbLock), Outcome.returns_andThen]
    have hlen : ∀ name, (s.daemon.db.updateIntoDisk pid name snapDisk).disk.length =
        s.daemon.db.disk.length := fun name => List.length_map _
    refine ⟨_, rfl, ⟨⟨h.dbLock, h.dsCount.trans (hlen _).symm, fun j hj => ?_, h.marked⟩,
      ⟨fun r hr => ?_, (hlen _).trans_le hs.fits, hs.pids⟩, hlen _, rfl, rfl⟩, rfl⟩
    · exact (hsize j).trans (h.unused j ((hlen _).symm.trans_le hj))
    · obtain ⟨r', hr', rfl⟩ := List.mem_map.mp hr
      split
      · exact hs.disks r' hr'
      · exact hs.disks r' hr'

theorem sound_insertIntoDisk {n : Nat} {name snap : String} {size : Nat} (hs : Sound db)
    (hlt : db.disk.length < ServerDaemon.memoryFds) :
    Sound (db.insertIntoDisk n name snap size .inUse) where
  disks := fun r hr => by
    rcases List.mem_append.mp hr with hr | hr
    · exact hs.disks r hr
    · rw [List.mem_singleton.mp hr]
      exact DiskObjState.noConfusion
  fits := by
    simp only [Db.insertIntoDisk, List.length_append, List.length_singleton]
    omega
  pids := hs.pids

/-- What the `c` command comes to: it ends the process unless it adds a row for the disk, and binds the
socket or has bound it before. Then it has done what `ServerDaemon.createDisk` does. -/
theorem createDisk_cases (env : StartEnv) (h : Up s) (hs : Sound s.daemon.db) (name : String) (size : Nat) :
    let n := s.daemon.db.disk.length
    let db := s.daemon.db.insertIntoDisk n name "-" size .inUse
    s.createDisk env name size = .undefined ∨
      (∃ t, s.createDisk env name size = .exits t ∧ Sound t.daemon.db ∧
        (t.daemon.db = s.daemon.db ∧ s.recoveryMode n = true ∨ t.daemon.db = db)) ∨
      ∃ t, s.createDisk env name size = .returns t ∧ s.daemon.createDisk name size = some t.daemon ∧
        t.daemon.db = db ∧ Up t ∧ Sound t.daemon.db ∧ (s.once = true ∨ s.listening = false) := by
  intro n db
  have hcount : s.daemon.dsCount = n := h.dsCount
  have hmax : n < maxPartners := lt_of_le_of_lt hs.fits (by decide)
  have hsize : (s.daemon.objects.disks n).bitmapSize = 0 := h.unused n le_rfl
  simp only [createDisk, diskSourceCreate, hcount, if_pos hmax]
  by_cases hmark : s.recoveryMode n = true
  · -- no row, and a mapping of length 0
    rw [if_pos (by exact hmark), Outcome.returns_andThen, diskSourceMmap]
    split
    · exact Or.inl rfl
    · rw [if_neg (by simp [setObjects, Objects.setDisk, hsize, ulong])]
      exact Or.inr (Or.inl ⟨_, rfl, hs, Or.inl ⟨rfl, hmark⟩⟩)
  rw [if_neg (by exact hmark), exec_of_unlocked (by exact h.dbLock), Outcome.returns_andThen,
    diskSourceMmap]
  split
  · exact Or.inl rfl
  rename_i hfds
  have hdaemon : s.daemon.createDisk name size = some { s.daemon with
      objects := s.daemon.objects.setDisk n { s.daemon.objects.disks n with
        objState := .inUse
        name := name
        bitmapSize := size }
      db := db
      dsCount := n + 1 } := by
    rw [ServerDaemon.createDisk, hcount, if_pos hmax, if_pos (by omega)]
  have hsound : Sound db := sound_insertIntoDisk hs (by omega)
  right
  split
  case isFalse => exact Or.inl ⟨_, rfl, hsound, Or.inr rfl⟩
  simp only [Outcome.returns_andThen]
  have hup : ∀ l o, Up { s with
      daemon := { s.daemon with
        objects := s.daemon.objects.setDisk n { s.daemon.objects.disks n with
          objState := .inUse
          name := name
          bitmapSize := size }
        db := db
        dsCount := n + 1 }
      diskOps := Function.update s.diskOps n true
      listening := l
      once := o } := by
    intro l o
    refine ⟨h.dbLock, ?_, fun j hj => ?_, h.marked⟩
    · simp [db, Db.insertIntoDisk, n]
    · have hlen : n + 1 ≤ j := by simpa [db, Db.insertIntoDisk, n] using hj
      show (Function.update s.daemon.objects.disks n _ j).bitmapSize = 0
      rw [Function.update_of_ne (by omega)]
      exact h.unused j (by omega)
  split
  · exact Or.inr ⟨_, rfl, hdaemon, rfl, hup s.listening s.once, hsound, Or.inl ‹_›⟩
  · rw [ebdrConnServerSetup]
    split
    · rename_i hlisten
      rw [Outcome.returns_andThen]
      exact Or.inr ⟨_, rfl, hdaemon, rfl, hup true true, hsound, Or.inr hlisten.1⟩
    · exact Or.inl ⟨_, rfl, hsound, Or.inr rfl⟩

end ServerProcess

/-! ### The server over its starts and ends -/

inductive ServerStatus where
  | running
  /-- A thread waits for ever in `db_init`. -/
  | blocked
  | ended
  deriving DecidableEq, Repr

/-- The machine of the server: its tables outlive the process. -/
structure ServerHost where
  process : ServerProcess
  status : ServerStatus

namespace ServerHost

/-- No server has run yet. -/
def boot : ServerHost := ⟨.zero .created, .ended⟩

def db (s : ServerHost) : Db := s.process.daemon.db

inductive Event where
  /-- A new process, also in place of one that runs. -/
  | start (env : StartEnv)
  | stop
  | createDisk (env : StartEnv) (name : String) (uBitmapSize : Nat)
  | snap (snapDisk : String) (pid : Nat)
  | accept (recovering : Option Nat)
  | handle (op : ServerDaemon.Op)

/-- What a call leaves. -/
def ofOutcome : Outcome ServerProcess → Option ServerHost
  | .returns s => some ⟨s, .running⟩
  | .blocked s => some ⟨s, .blocked⟩
  | .exits s => some ⟨s, .ended⟩
  | .undefined => none

/-- A command or a handler needs a running server. -/
def whenRunning (s : ServerHost) (s' : Option ServerHost) : Option ServerHost :=
  if s.status = .running then s' else none

def step (s : ServerHost) : Event → Option ServerHost
  | .start env => ofOutcome (ServerProcess.dbInit env s.db)
  | .stop => some { s with status := .ended }
  | .createDisk env name uBitmapSize =>
    s.whenRunning (ofOutcome (s.process.createDisk env name uBitmapSize))
  | .snap snapDisk pid =>
    s.whenRunning (if s.process.daemon.objects.isPartnerIdValid pid = true then
      ofOutcome (s.process.snapshotDiskInit snapDisk pid) else some s)
  | .accept recovering =>
    s.whenRunning ((s.process.accept recovering).map fun p => ⟨p, .running⟩)
  | .handle op => s.whenRunning ((s.process.handle op).map fun p => ⟨p, .running⟩)

/-! ### The invariant -/

variable {s t u : ServerHost} {e : Event} {env : StartEnv}

/-- The tables are sound, and a running process has the disks of its table. -/
structure Inv (s : ServerHost) : Prop where
  sound : ServerProcess.Sound s.db
  up : s.status = .running → ServerProcess.Up s.process

theorem liveDisks_eq (h : ServerProcess.Sound s.db) : s.db.liveDisks = s.db.disk :=
  List.filter_eq_self.mpr fun r hr => decide_eq_true (h.disks r hr)

theorem livePids_lt (h : ServerProcess.Sound s.db) : ∀ r ∈ s.db.livePartners,
    r.pid < ServerProcess.maxPid :=
  fun r hr => h.pids r (List.mem_of_mem_filter hr)

/-- **What a start comes to**, for the host. -/
theorem start_cases (hi : Inv s) (env : StartEnv) :
    ∃ t, step s (.start env) = some t ∧ t.db = s.db ∧
      (t.status = .running ∧ s.db.Restartable ∧ env.Serves s.db ∧ ServerProcess.Started s.db t.process ∨
        t.status = .blocked ∧ ¬ (∀ i < s.db.liveDisks.length, s.db.HasLivePartner i) ∨
        t.status = .ended ∧ ¬ (env.Serves s.db ∧ ∀ r ∈ s.db.liveDisks, r.Mappable)) := by
  have hkeeps := ServerProcess.dbInit_keeps env s.db
  have hlen : s.db.liveDisks.length ≤ ServerDaemon.memoryFds := liveDisks_eq hi.sound ▸ hi.sound.fits
  rcases ServerProcess.dbInit_cases env (livePids_lt hi.sound) hlen with
    ⟨hready, hserves, p, hp, hstarted⟩ | ⟨hdead, p, hp⟩ | ⟨hno, p, hp⟩
  · rw [hp] at hkeeps
    refine ⟨⟨p, .running⟩, ?_, hkeeps, Or.inl ⟨rfl, hready, hserves, hstarted⟩⟩
    rw [step, hp, ofOutcome]
  · rw [hp] at hkeeps
    refine ⟨⟨p, .blocked⟩, ?_, hkeeps, Or.inr (Or.inl ⟨rfl, hdead⟩)⟩
    rw [step, hp, ofOutcome]
  · rw [hp] at hkeeps
    refine ⟨⟨p, .ended⟩, ?_, hkeeps, Or.inr (Or.inr ⟨rfl, hno⟩)⟩
    rw [step, hp, ofOutcome]

theorem up_of_started (h : ServerProcess.Sound s.db) {p : ServerProcess}
    (hp : ServerProcess.Started s.db p) : ServerProcess.Up p where
  dbLock := hp.dbLock
  dsCount := by rw [hp.dsCount, hp.db_eq, liveDisks_eq h]
  unused := fun j hj => hp.unused j (by rwa [liveDisks_eq h, ← hp.db_eq])
  marked := fun pid hm => hp.db_eq ▸ hp.marked pid hm

theorem whenRunning_eq_some {o : Option ServerHost} (h : s.whenRunning o = some t) :
    s.status = .running ∧ o = some t :=
  Option.ite_none_right_eq_some.mp h

/-- A step of a running server that is neither a start, nor a stop, nor the `c` command. -/
def Serving : Event → Prop
  | .start _ | .stop | .createDisk .. => False
  | .snap .. | .accept _ | .handle _ => True

/-- **Step lemma.** Such a step keeps the disks. -/
theorem keeps_serving (hi : Inv s) (he : Serving e) (h : step s e = some t) :
    s.status = .running ∧ t.status = .running ∧ ServerProcess.Keeps s.process t.process := by
  cases e with
  | start | stop | createDisk => exact he.elim
  | snap snapDisk pid =>
    obtain ⟨hrun, h⟩ := whenRunning_eq_some h
    have hup := hi.up hrun
    split at h
    · rcases ServerProcess.keeps_snapshotDiskInit snapDisk pid hup hi.sound with
        ⟨p, hp, hkeeps, -⟩ | hp
      · rw [hp] at h
        cases h
        exact ⟨hrun, rfl, hkeeps⟩
      · rw [hp] at h
        cases h
    · cases h
      exact ⟨hrun, hrun, hup, hi.sound, rfl, rfl, rfl⟩
  | accept recovering =>
    obtain ⟨hrun, h⟩ := whenRunning_eq_some h
    obtain ⟨p, hp, rfl⟩ := Option.map_eq_some_iff.mp h
    exact ⟨hrun, rfl, ServerProcess.keeps_accept (hi.up hrun) hi.sound hp⟩
  | handle op =>
    obtain ⟨hrun, h⟩ := whenRunning_eq_some h
    obtain ⟨p, hp, rfl⟩ := Option.map_eq_some_iff.mp h
    exact ⟨hrun, rfl, ServerProcess.keeps_handle (hi.up hrun) hi.sound hp⟩

theorem createDisk_step (hi : Inv s) {name : String} {size : Nat}
    (h : step s (.createDisk env name size) = some t) :
    let n := s.db.disk.length
    let db := s.db.insertIntoDisk n name "-" size .inUse
    s.status = .running ∧ ServerProcess.Sound t.db ∧
      (t.status = .ended ∧ (t.db = s.db ∧ s.process.recoveryMode n = true ∨ t.db = db) ∨
        t.status = .running ∧ t.db = db ∧ ServerProcess.Up t.process ∧
          (s.process.once = true ∨ s.process.listening = false)) := by
  obtain ⟨hrun, h⟩ := whenRunning_eq_some h
  rcases ServerProcess.createDisk_cases env (hi.up hrun) hi.sound name size with
    hp | ⟨p, hp, hs, hdb⟩ | ⟨p, hp, -, hdb, hup, hs, hfirst⟩
  · rw [hp] at h
    cases h
  · rw [hp] at h
    cases h
    exact ⟨hrun, hs, Or.inl ⟨rfl, hdb⟩⟩
  · rw [hp] at h
    cases h
    exact ⟨hrun, hs, Or.inr ⟨rfl, hdb, hup, hfirst⟩⟩

theorem inv_boot : Inv boot where
  sound := ⟨fun _ hr => absurd hr List.not_mem_nil, Nat.zero_le _,
    fun _ hr => absurd hr List.not_mem_nil⟩
  up := fun h => by cases h

theorem inv_serving (hi : Inv s) (he : Serving e) (h : step s e = some t) : Inv t := by
  obtain ⟨-, -, hkeeps⟩ := keeps_serving hi he h
  exact ⟨hkeeps.sound, fun _ => hkeeps.up⟩

/-- **Step lemma.** -/
theorem inv_step (hi : Inv s) (h : step s e = some t) : Inv t := by
  cases e with
  | start env =>
    obtain ⟨t', ht, hdb, hcases⟩ := start_cases hi env
    obtain rfl := Option.some.inj (ht.symm.trans h)
    refine ⟨hdb ▸ hi.sound, fun hrun => ?_⟩
    rcases hcases with ⟨-, -, -, hstarted⟩ | ⟨hst, -⟩ | ⟨hst, -⟩
    · exact up_of_started hi.sound hstarted
    · rw [hst] at hrun
      cases hrun
    · rw [hst] at hrun
      cases hrun
  | stop =>
    cases h
    exact ⟨hi.sound, fun hrun => by cases hrun⟩
  | createDisk env name size =>
    obtain ⟨-, hs, ⟨hst, -⟩ | ⟨-, -, hup, -⟩⟩ := createDisk_step hi h
    · refine ⟨hs, fun hrun => ?_⟩
      rw [hst] at hrun
      cases hrun
    · exact ⟨hs, fun _ => hup⟩
  | snap snapDisk pid => exact inv_serving hi (e := .snap snapDisk pid) trivial h
  | accept recovering => exact inv_serving hi (e := .accept recovering) trivial h
  | handle op => exact inv_serving hi (e := .handle op) trivial h

theorem inv_run {es : List Event} (hi : Inv s) (h : run step s es = some t) : Inv t :=
  Lts.run_inv (fun _ _ _ hi _ h => inv_step hi h) hi (Lts.meets_true s es) h

/-! ### Starts -/

/-- **What a start of the server comes to.** After every run of the server, over any number of starts
and ends, a new start leaves the tables as they are. It comes up exactly when every disk of the table
has a partner of its number with a live row and a bitmap that can be mapped, and the system serves it;
and when the system serves it and only a partner is missing, it waits for its own lock. -/
theorem restart_outcome {es : List Event} (h : run step boot es = some s) (env : StartEnv) :
    ∃ t, step s (.start env) = some t ∧ t.db = s.db ∧
      (t.status = .running ↔ s.db.Restartable ∧ env.Serves s.db) ∧
      (env.Serves s.db → (∀ r ∈ s.db.liveDisks, r.Mappable) →
        (t.status = .blocked ↔ ∃ i < s.db.liveDisks.length, ¬ s.db.HasLivePartner i)) := by
  obtain ⟨t, ht, hdb, hcases⟩ := start_cases (inv_run inv_boot h) env
  refine ⟨t, ht, hdb, ?_, fun hserves hmap => ?_⟩
  · rcases hcases with ⟨hst, hready, hserves, -⟩ | ⟨hst, hdead⟩ | ⟨hst, hno⟩
    · simp [hst, hready, hserves]
    · simp only [hst, reduceCtorEq, false_iff]
      exact fun hok => hdead hok.1.partners
    · simp only [hst, reduceCtorEq, false_iff]
      exact fun hok => hno ⟨hok.2, hok.1.mappable⟩
  · rcases hcases with ⟨hst, hready, -, -⟩ | ⟨hst, hdead⟩ | ⟨hst, hno⟩
    · simp only [hst, reduceCtorEq, false_iff]
      rintro ⟨i, hlt, hno⟩
      exact hno (hready.partners i hlt)
    · simp only [hst, true_iff]
      simpa using hdead
    · exact absurd ⟨hserves, hmap⟩ hno

/-- A system that serves every call. -/
def served : StartEnv := ⟨true, fun _ => true, true⟩

/-- A disk, its partner and the start of a round. -/
def firstRound : List Event :=
  [.start served, .createDisk served "/dev/sdb" 16384,
    .handle (.makePartner 0 "10.0.0.1" 100 "/dev/sdb" ⟨16384, 2097152, 8⟩), .handle (.getBitmap 0)]

def firstRoundEnd : ServerHost := (run step boot firstRound).getD boot

theorem run_firstRound : run step boot firstRound = some firstRoundEnd := rfl

def firstRoundRecovered : ServerHost := (step firstRoundEnd (.start served)).getD boot

theorem start_firstRound : step firstRoundEnd (.start served) = some firstRoundRecovered := rfl

/-- During the round a new start comes up. -/
theorem restart_outcome_first :
    ∃ t, step firstRoundEnd (.start served) = some t ∧ t.status = .running := by
  obtain ⟨t, ht, -, hrun, -⟩ := restart_outcome run_firstRound served
  have hready : firstRoundEnd.db.Restartable := ⟨by decide, by decide⟩
  exact ⟨t, ht, hrun.mpr ⟨hready, rfl, fun _ _ => rfl, fun _ => rfl⟩⟩

/-- A server that does not run, with tables it cannot be started with, never runs again. -/
theorem never_runs (hi : Inv s) (hst : s.status ≠ .running) (hno : ¬ s.db.Restartable)
    {es : List Event} (h : run step s es = some t) : t.status ≠ .running := by
  let I (s : ServerHost) : Prop := Inv s ∧ s.status ≠ .running ∧ ¬ s.db.Restartable
  have hstep : ∀ s e t, I s → True → step s e = some t → I t := by
    rintro s e t ⟨hi, hst, hno⟩ - h
    refine ⟨inv_step hi h, ?_⟩
    cases e with
    | start env =>
      obtain ⟨t', ht, hdb, hcases⟩ := start_cases hi env
      obtain rfl := Option.some.inj (ht.symm.trans h)
      refine ⟨fun hrun => ?_, hdb ▸ hno⟩
      rcases hcases with ⟨-, hready, -⟩ | ⟨hst', -⟩ | ⟨hst', -⟩
      · exact hno hready
      · rw [hst'] at hrun
        cases hrun
      · rw [hst'] at hrun
        cases hrun
    | stop =>
      cases h
      exact ⟨ServerStatus.noConfusion, hno⟩
    | createDisk | snap | accept | handle => exact absurd (whenRunning_eq_some h).1 hst
  exact (Lts.run_inv (I := I) hstep ⟨hi, hst, hno⟩ (Lts.meets_true s es) h).2.1

/-! ### The end of a round -/

/-- The process ends, by itself or in favour of a new one. -/
def Event.Ends : Event → Prop
  | .start _ | .stop => True
  | .createDisk .. | .snap .. | .accept _ | .handle _ => False

/-- The partner gets a live row: it asks for metadata, or it is made anew. -/
def Event.Renews (pid : Nat) : Event → Prop
  | .handle op => ServerProcess.Renews pid op
  | .start _ | .stop | .createDisk .. | .snap .. | .accept _ => False

/-- There is a disk of this number, and its partner has no live row. -/
structure Lost (pid : Nat) (s : ServerHost) : Prop where
  disk : pid < s.db.disk.length
  dead : ¬ s.db.HasLivePartner pid

theorem Lost.not_restartable {pid : Nat} (h : Lost pid s) (hs : ServerProcess.Sound s.db) :
    ¬ s.db.Restartable := fun hready =>
  h.dead (hready.partners pid (by rw [liveDisks_eq hs]; exact h.disk))

theorem Lost.of_partner {pid : Nat} (h : Lost pid s) (hpartner : t.db.partner = s.db.partner)
    (hdisk : s.db.disk.length ≤ t.db.disk.length) : Lost pid t where
  disk := lt_of_lt_of_le h.disk hdisk
  dead := by
    have hdead := h.dead
    simp only [Db.HasLivePartner, Db.livePartners] at hdead ⊢
    rwa [hpartner]

theorem handle_daemon {p q : ServerProcess} {op : ServerDaemon.Op} (h : p.handle op = some q) :
    q.daemon = p.daemon ∨ p.daemon.step op = some q.daemon := by
  by_cases hterm : ∃ pid, op = .terminate pid
  · obtain ⟨pid, rfl⟩ := hterm
    simp only [ServerProcess.handle, ServerProcess.terminate] at h
    split at h
    · obtain ⟨-, h⟩ := Option.ite_none_right_eq_some.mp h
      obtain ⟨d, hd, rfl⟩ := Option.map_eq_some_iff.mp h
      exact Or.inr hd
    · cases h
      exact Or.inl rfl
  · rw [(ServerProcess.handle_eq h fun pid hop => hterm ⟨pid, hop⟩).2] at h
    obtain ⟨d, hd, rfl⟩ := Option.map_eq_some_iff.mp h
    exact Or.inr hd

/-- **Step lemma.** Only the operations that renew the partner bring it back. -/
theorem lost_step {pid : Nat} (hi : Inv s) (he : ¬ e.Renews pid) (hl : Lost pid s)
    (h : step s e = some t) : Lost pid t := by
  cases e with
  | start env =>
    obtain ⟨t', ht, hdb, -⟩ := start_cases hi env
    obtain rfl := Option.some.inj (ht.symm.trans h)
    exact hl.of_partner (by rw [hdb]) (by rw [hdb])
  | stop =>
    cases h
    exact ⟨hl.disk, hl.dead⟩
  | createDisk env name size =>
    have hinsert : t.db = s.db.insertIntoDisk s.db.disk.length name "-" size .inUse → Lost pid t :=
      fun hdb => hl.of_partner (by rw [hdb]; rfl) (by rw [hdb]; simp [Db.insertIntoDisk])
    obtain ⟨-, -, ⟨-, ⟨hdb, -⟩ | hdb⟩ | ⟨-, hdb, -⟩⟩ := createDisk_step hi h
    · exact hl.of_partner (by rw [hdb]) (by rw [hdb])
    · exact hinsert hdb
    · exact hinsert hdb
  | snap snapDisk q =>
    obtain ⟨-, -, hkeeps⟩ := keeps_serving hi (e := .snap snapDisk q) trivial h
    obtain ⟨hrun, h⟩ := whenRunning_eq_some h
    refine hl.of_partner ?_ hkeeps.length.ge
    split at h
    · rcases ServerProcess.keeps_snapshotDiskInit snapDisk q (hi.up hrun)
        hi.sound with ⟨p, hp, -, hpartner⟩ | hp
      · rw [hp] at h
        cases h
        exact hpartner
      · rw [hp] at h
        cases h
    · cases h
      rfl
  | accept recovering =>
    obtain ⟨-, h⟩ := whenRunning_eq_some h
    obtain ⟨p, hp, rfl⟩ := Option.map_eq_some_iff.mp h
    obtain ⟨f, rfl⟩ := ServerProcess.accept_eq hp
    exact ⟨hl.disk, hl.dead⟩
  | handle op =>
    obtain ⟨-, -, hkeeps⟩ := keeps_serving hi (e := .handle op) trivial h
    obtain ⟨-, h⟩ := whenRunning_eq_some h
    obtain ⟨p, hp, rfl⟩ := Option.map_eq_some_iff.mp h
    rcases handle_daemon hp with hsame | hop
    · exact hl.of_partner (congrArg (fun d => d.db.partner) hsame) hkeeps.length.ge
    · exact ⟨hkeeps.length ▸ hl.disk, ServerProcess.dead_step hop he hl.dead⟩

theorem lost_run {pid : Nat} {es : List Event} (hi : Inv s) (hl : Lost pid s)
    (hes : ∀ e ∈ es, ¬ e.Renews pid) (h : run step s es = some t) : Inv t ∧ Lost pid t := by
  have hstep : ∀ s e t, Inv s ∧ Lost pid s → ¬ e.Renews pid → step s e = some t →
      Inv t ∧ Lost pid t :=
    fun _ _ _ hil he h => ⟨inv_step hil.1 h, lost_step hil.1 he hil.2 h⟩
  exact Lts.run_inv hstep ⟨hi, hl⟩ (Lts.meets_of_forall s hes) h

/-- **The end of a round ends the server.** Once a round of a partner is over, for a partner with a
disk, the server that ends before the partner asks for metadata again, or is made anew, never runs
again: not after any further starts, with whatever answers of the system, nor any other order of
events. -/
theorem finished_round_ends_server {es fs gs : List Event} {pid : Nat}
    (hs : run step boot es = some s) (hdisk : pid < s.process.daemon.dsCount)
    (hactive : (s.process.daemon.objects.partners pid).objState ≠ .released)
    (ht : step s (.handle (.terminate pid)) = some t) (hfs : ∀ f ∈ fs, ¬ f.Renews pid)
    (he : e.Ends) (hu : run step t (fs ++ e :: gs) = some u) : u.status ≠ .running := by
  have hi := inv_run inv_boot hs
  obtain ⟨hrun, -, hkeeps⟩ := keeps_serving hi (e := .handle (.terminate pid)) trivial ht
  have hit := inv_step hi ht
  have hlost : Lost pid t := by
    obtain ⟨-, h⟩ := whenRunning_eq_some ht
    obtain ⟨p, hp, rfl⟩ := Option.map_eq_some_iff.mp h
    simp only [ServerProcess.handle, ServerProcess.terminate, if_pos hactive] at hp
    obtain ⟨-, hp⟩ := Option.ite_none_right_eq_some.mp hp
    obtain ⟨d, hd, rfl⟩ := Option.map_eq_some_iff.mp hp
    refine ⟨?_, ServerProcess.dead_terminate hd hactive⟩
    rw [(hi.up hrun).dsCount] at hdisk
    exact hkeeps.length ▸ hdisk
  obtain ⟨v, hv, hw⟩ := Lts.run_append_some.mp hu
  obtain ⟨w, hw, hgs⟩ := Lts.run_cons_some.mp hw
  obtain ⟨hiv, hlv⟩ := lost_run hit hlost hfs hv
  have hno := hlv.not_restartable hiv.sound
  have hstopped : w.status ≠ .running ∧ w.db = v.db := by
    cases e with
    | start env =>
      obtain ⟨w', hw', hdb, hcases⟩ := start_cases hiv env
      obtain rfl := Option.some.inj (hw'.symm.trans hw)
      refine ⟨fun hrun => ?_, hdb⟩
      rcases hcases with ⟨-, hready, -⟩ | ⟨hst, -⟩ | ⟨hst, -⟩
      · exact hno hready
      · rw [hst] at hrun
        cases hrun
      · rw [hst] at hrun
        cases hrun
    | stop =>
      cases hw
      exact ⟨ServerStatus.noConfusion, rfl⟩
    | createDisk | snap | accept | handle => exact he.elim
  exact never_runs (inv_step hiv hw) hstopped.1 (hstopped.2 ▸ hno) hgs

def firstRoundOver : ServerHost := (step firstRoundEnd (.handle (.terminate 0))).getD boot

theorem end_firstRound : step firstRoundEnd (.handle (.terminate 0)) = some firstRoundOver := rfl

/-- The server of the run above does not come up again after its round. -/
theorem finished_round_ends_server_first :
    ∃ u, run step firstRoundOver ([.accept none] ++ .stop :: [.start served]) = some u ∧
      u.status ≠ .running := by
  have hdisk : 0 < firstRoundEnd.process.daemon.dsCount := by decide
  have hactive : (firstRoundEnd.process.daemon.objects.partners 0).objState ≠ .released := by decide
  have haccept : ∀ f ∈ [Event.accept none], ¬ f.Renews 0 := by simp [Event.Renews]
  have hrun : (run step firstRoundOver ([.accept none] ++ .stop :: [.start served])).isSome = true := by
    decide
  obtain ⟨u, hu⟩ := Option.isSome_iff_exists.mp hrun
  exact ⟨u, hu, finished_round_ends_server run_firstRound hdisk hactive end_firstRound haccept
    (e := .stop) trivial hu⟩

/-! ### A disk for a server that has come up again -/

/-- **No new disk after a recovery.** A server that has come up with a disk in its table keeps the
number of its disks as long as it runs. The `c` command ends it, and then it runs again only if there
is a partner of the new disk's number already. -/
theorem create_ends_recovered {es fs : List Event} (hs : run step boot es = some s)
    (hdisks : 0 < s.db.disk.length) (ht : step s (.start env) = some t)
    (hfs : ∀ f ∈ fs, ∀ env', f ≠ .start env') (hu : run step t fs = some u)
    (hrun : u.status = .running) :
    u.db.disk.length = s.db.disk.length ∧
      ∀ env' name size v, step u (.createDisk env' name size) = some v → v.status = .ended ∧
        ∀ gs w, run step v gs = some w → w.status = .running →
          u.db.HasLivePartner u.db.disk.length := by
  have hi := inv_run inv_boot hs
  let I (u : ServerHost) : Prop := Inv u ∧ (u.status = .running →
    u.process.listening = true ∧ u.process.once = false ∧ u.db.disk.length = s.db.disk.length)
  have hstarted : I t := by
    refine ⟨inv_step hi ht, fun hrun => ?_⟩
    obtain ⟨t', ht', hdb, hcases⟩ := start_cases hi env
    obtain rfl := Option.some.inj (ht'.symm.trans ht)
    rcases hcases with ⟨-, -, -, hst⟩ | ⟨hst, -⟩ | ⟨hst, -⟩
    · exact ⟨hst.listening.mpr (by rwa [liveDisks_eq hi.sound]), hst.once, by rw [hdb]⟩
    · rw [hst] at hrun
      cases hrun
    · rw [hst] at hrun
      cases hrun
  have hstep : ∀ u e v, I u → (∀ env', e ≠ Event.start env') → step u e = some v → I v := by
    rintro u e v ⟨hiu, hkeep⟩ he h
    refine ⟨inv_step hiu h, fun hrun => ?_⟩
    have hserving : Serving e → _ := fun hs => keeps_serving hiu hs h
    cases e with
    | start env' => exact absurd rfl (he env')
    | stop =>
      cases h
      cases hrun
    | createDisk env' name size =>
      obtain ⟨hur, -, ⟨hst, -⟩ | ⟨-, -, -, hfirst⟩⟩ := createDisk_step hiu h
      · rw [hst] at hrun
        cases hrun
      · obtain ⟨hlisten, honce, -⟩ := hkeep hur
        rw [hlisten, honce] at hfirst
        simp at hfirst
    | snap | accept | handle =>
      obtain ⟨hur, -, hkeeps⟩ := hserving trivial
      obtain ⟨hlisten, honce, hlen⟩ := hkeep hur
      exact ⟨hkeeps.listening.trans hlisten, hkeeps.once.trans honce, hkeeps.length.trans hlen⟩
  obtain ⟨hiu, hkeep⟩ := Lts.run_inv (I := I) hstep hstarted
    (Lts.meets_of_forall t hfs) hu
  obtain ⟨hlisten, honce, hlen⟩ := hkeep hrun
  refine ⟨hlen, fun env' name size v hv => ?_⟩
  obtain ⟨-, hsound, ⟨hst, hdb⟩ | ⟨-, -, -, hfirst⟩⟩ := createDisk_step hiu hv
  · refine ⟨hst, fun gs w hw hwr => ?_⟩
    by_contra hdead
    rcases hdb with ⟨-, hmark⟩ | hdb
    · exact hdead ((hiu.up hrun).marked _ hmark)
    · have hlost : Lost u.db.disk.length v :=
        ⟨by simp [hdb, Db.insertIntoDisk], by rw [hdb]; exact hdead⟩
      exact never_runs (inv_step hiu hv) (by simp [hst]) (hlost.not_restartable hsound) hw hwr
  · rw [hlisten, honce] at hfirst
    simp at hfirst

/-- The server of the run above comes up again in its round, and ends with its second disk. -/
theorem create_ends_recovered_first :
    ∃ v, step firstRoundRecovered (.createDisk served "/dev/sdc" 16384) = some v ∧
      v.status = .ended := by
  have hdisks : 0 < firstRoundEnd.db.disk.length := by decide
  have hnone : ∀ f ∈ ([] : List Event), ∀ env', f ≠ .start env' := by simp
  have hstep : (step firstRoundRecovered (.createDisk served "/dev/sdc" 16384)).isSome = true := by
    decide
  obtain ⟨v, hv⟩ := Option.isSome_iff_exists.mp hstep
  exact ⟨v, hv, ((create_ends_recovered run_firstRound hdisks start_firstRound hnone rfl rfl).2 served
    "/dev/sdc" 16384 v hv).1⟩

end ServerHost

end Ebdr
