import Ebdr.Database.Restore
import Ebdr.Database.ServerObjects
import Ebdr.Lib.Outcome
import Mathlib

/-!
# Starting the server again

`db_init` runs when the server starts. It holds `db_lock` from its first statement to its last, reads
the tables back, and makes the disks again with the functions of the `c` and the `snap` command.
These issue a statement of their own unless `recovery_mode` says that the disk is being restored, and
a statement takes `db_lock`, which is not recursive. `recovery_mode` is set for the partners that have
a live row, and it is asked for with the number of the disk.

So `db_init` returns exactly when every disk of the table has a partner of its number with a live row,
and the system serves its calls; without such a partner it waits for its own lock (`dbInit_cases`).
-/

namespace Ebdr

open CInt Lts

/-- The process of the server. -/
structure ServerProcess where
  daemon : ServerDaemon
  recoveryMode : Nat → Bool
  /-- `ebdr_disk_src_obj[pid].ops` is set. -/
  diskOps : Nat → Bool
  /-- `db_lock` is held. -/
  dbLock : Bool
  /-- `once` of the `c` command. -/
  once : Bool
  /-- A socket listens on `SRV_TCP_PORT`. -/
  listening : Bool

/-- The answers of the calls of a start or of a `c` command. -/
structure StartEnv where
  /-- The configuration is read, and every call of the database library succeeds. -/
  connects : Bool
  /-- The memory-control device of a disk can be opened and mapped. -/
  mmap : Nat → Bool
  /-- `bind` and `listen`, on a port that is free. -/
  bind : Bool

namespace ServerProcess

/-- Static storage, with the tables as they are. -/
def zero (db : Db) : ServerProcess where
  daemon := { ServerDaemon.boot with db := db }
  recoveryMode := fun _ => false
  diskOps := fun _ => false
  dbLock := false
  once := false
  listening := false

/-- `MAX_PID`, the length of `recovery_mode`. -/
def maxPid : Nat := 2048

/-- `pthread_mutex_lock(&db_lock)`, by the thread that may hold it already. -/
def lockDb (s : ServerProcess) : Outcome ServerProcess :=
  if s.dbLock = true then .blocked s else .returns { s with dbLock := true }

def setObjects (s : ServerProcess) (o : Objects) : ServerProcess :=
  { s with daemon := { s.daemon with objects := o } }

def setDb (s : ServerProcess) (db : Db) : ServerProcess :=
  { s with daemon := { s.daemon with db := db } }

/-- A statement of `atdr_db.c`, between lock and unlock. -/
def exec (s : ServerProcess) (stmt : Statement) : Outcome ServerProcess :=
  s.lockDb.andThen fun s => .returns { s.setDb (s.daemon.db.exec stmt) with dbLock := false }

/-- `disk_source_mmap`. -/
def diskSourceMmap (env : StartEnv) (serverPid : Nat) (s : ServerProcess) : Outcome ServerProcess :=
  -- an index past the end of `memory_fd`
  if ServerDaemon.memoryFds ≤ serverPid then .undefined
  else if env.mmap serverPid = true ∧
      ulong (2 * (s.daemon.objects.disks serverPid).bitmapSize) ≠ 0 then .returns s
  else .exits s

/-- `ebdr_disk_init` with `disk_source_create`, on the object of `slot`. -/
def diskSourceCreate (env : StartEnv) (uBitmapSize : Nat) (name : String) (slot : Nat)
    (s : ServerProcess) : Outcome ServerProcess :=
  let serverPid := s.daemon.dsCount
  let s := { s with diskOps := Function.update s.diskOps slot true }
  if serverPid < maxPartners then
    let disk := { s.daemon.objects.disks slot with objState := .inUse, name := name }
    (if s.recoveryMode serverPid = true then
      .returns (s.setObjects (s.daemon.objects.setDisk slot disk))
    else
      (s.setObjects (s.daemon.objects.setDisk slot { disk with bitmapSize := uBitmapSize })).exec
        (.insertIntoDisk serverPid name "-" uBitmapSize .inUse)).andThen fun s =>
    (s.diskSourceMmap env serverPid).andThen fun s =>
    .returns { s with daemon := { s.daemon with dsCount := serverPid + 1 } }
  else .returns s

/-- `snapshot_disk_init`. -/
def snapshotDiskInit (snapDisk : String) (pid : Nat) (s : ServerProcess) : Outcome ServerProcess :=
  if s.diskOps pid = true then
    let disk := { s.daemon.objects.disks pid with snapName := snapDisk }
    let s := s.setObjects (s.daemon.objects.setDisk pid disk)
    (if s.recoveryMode pid = true then .returns s
    else s.exec (.updateIntoDisk pid disk.name snapDisk)).andThen fun s =>
    let relation := { s.daemon.objects.relations pid with device := snapDisk }
    .returns (s.setObjects (s.daemon.objects.setRelation pid relation))
  else .undefined

/-- `ebdr_conn_server_setup`: a second socket cannot be bound while the first one listens. -/
def ebdrConnServerSetup (env : StartEnv) (s : ServerProcess) : Outcome ServerProcess :=
  if s.listening = false ∧ env.bind = true then .returns { s with listening := true } else .exits s

/-- `recovery_mode[all_partner_servers[i].id] = 1`. -/
def markRecovery (i : Nat) (s : ServerProcess) : Outcome ServerProcess :=
  let pid := (s.daemon.objects.partners i).id
  if pid < maxPid then .returns { s with recoveryMode := Function.update s.recoveryMode pid true }
  else .undefined

/-- A pass of the loop of `db_init` over the disks. -/
def recoverDisk (env : StartEnv) (i : Nat) (s : ServerProcess) : Outcome ServerProcess :=
  let pid := (s.daemon.objects.partners i).id
  (s.diskSourceCreate env 0 (s.daemon.objects.disks pid).name pid).andThen fun s =>
  (s.snapshotDiskInit (s.daemon.objects.disks pid).snapName pid).andThen fun s =>
  let d := s.daemon
  let relation := d.objects.relations pid
  .returns { s with
    daemon := { d with
      bitmapOps := Function.update d.bitmapOps pid true
      repConn := Function.update d.repConn pid true
      replicHdr := Function.update d.replicHdr pid
        { d.replicHdr pid with
          grainSize := relation.grainSize
          chunkSize := relation.chunkSize } } }

/-- `db_init`. -/
def dbInit (env : StartEnv) (db : Db) : Outcome ServerProcess :=
  (zero db).lockDb.andThen fun s =>
  if env.connects = true then
    let s := s.setObjects (s.daemon.objects.retrieveFromPartner db)
    (Outcome.loop markRecovery db.livePartners.length s).andThen fun s =>
    let s := s.setObjects (s.daemon.objects.retrieveFromRelation db)
    let s := s.setObjects (s.daemon.objects.retrieveFromDisk db)
    (Outcome.loop (recoverDisk env) db.liveDisks.length s).andThen fun s =>
    (if 0 < db.liveDisks.length then s.ebdrConnServerSetup env else .returns s).andThen fun s =>
    .returns { s with dbLock := false }
  -- `finish_with_error`
  else .exits { s with dbLock := false }

/-- The `c` command, after the device was created. -/
def createDisk (env : StartEnv) (name : String) (uBitmapSize : Nat) (s : ServerProcess) :
    Outcome ServerProcess :=
  (s.diskSourceCreate env uBitmapSize name s.daemon.dsCount).andThen fun s =>
  if s.once = true then .returns s
  else (s.ebdrConnServerSetup env).andThen fun s => .returns { s with once := true }

/-- `terminate` calls the operations of the disk, and ends the recovery mode of the partner. -/
def terminate (s : ServerProcess) (pid : Nat) : Option ServerProcess :=
  if (s.daemon.objects.partners pid).objState ≠ .released then
    if s.diskOps pid = true then
      (s.daemon.terminate pid).map fun d =>
        { s with daemon := d, recoveryMode := Function.update s.recoveryMode pid false }
    else none
  else some s

/-- Another handler or command. -/
def handle (s : ServerProcess) : ServerDaemon.Op → Option ServerProcess
  | .createDisk .. | .accept => none
  | .terminate pid => s.terminate pid
  | op => (s.daemon.step op).map fun d => { s with daemon := d }

/-- A connection is accepted: the partners are read back, and one of them may be recovering. -/
def accept (s : ServerProcess) (recovering : Option Nat) : Option ServerProcess :=
  if s.listening = true then
    s.daemon.accept.bind fun d =>
      match recovering with
      | none => some { s with daemon := d }
      | some pid =>
        if s.recoveryMode pid = true ∧ (d.objects.partners pid).objState = .inUse then
          some { s with daemon := { d with objects := d.objects.setPartnerState pid .recovery } }
        else none
  else none

/-! ### What `db_init` needs -/

end ServerProcess

/-- A row of the partner is not released. -/
def Db.HasLivePartner (db : Db) (pid : Nat) : Prop := ∃ r ∈ db.livePartners, r.pid = pid

instance instDecidableHasLivePartner (db : Db) (pid : Nat) : Decidable (db.HasLivePartner pid) :=
  inferInstanceAs (Decidable (∃ r ∈ db.livePartners, r.pid = pid))

/-- The memory of the disk in this row can be mapped. -/
def DiskRow.Mappable (r : DiskRow) : Prop := ulong (2 * r.bitmapSize) ≠ 0

instance instDecidableMappable (r : DiskRow) : Decidable r.Mappable :=
  inferInstanceAs (Decidable (ulong (2 * r.bitmapSize) ≠ 0))

/-- The calls of the system that a start makes with these tables succeed. -/
structure StartEnv.Serves (env : StartEnv) (db : Db) : Prop where
  connects : env.connects = true
  mmap : ∀ i < db.liveDisks.length, env.mmap i = true
  bind : 0 < db.liveDisks.length → env.bind = true

/-- The server comes up with these tables. -/
structure Db.Restartable (db : Db) : Prop where
  partners : ∀ i < db.liveDisks.length, db.HasLivePartner i
  mappable : ∀ r ∈ db.liveDisks, r.Mappable

namespace ServerProcess

variable {s t : ServerProcess} {db : Db} {env : StartEnv}

theorem exec_of_locked (h : s.dbLock = true) (stmt : Statement) : s.exec stmt = .blocked s := by
  rw [exec, lockDb, if_pos h, Outcome.blocked_andThen]

theorem exec_of_unlocked (h : s.dbLock = false) (stmt : Statement) :
    s.exec stmt = .returns (s.setDb (s.daemon.db.exec stmt)) := by
  rw [exec, lockDb, if_neg (by simp [h]), Outcome.returns_andThen]
  simp [setDb, ← h]

/-- The first passes of the loop of `db_init` are done. -/
structure Recovering (db : Db) (i : Nat) (s : ServerProcess) : Prop where
  dbLock : s.dbLock = true
  db_eq : s.daemon.db = db
  partner : ∀ r j, db.livePartners[j]? = some r → (s.daemon.objects.partners j).id = r.pid
  size : ∀ r j, db.liveDisks[j]? = some r → (s.daemon.objects.disks j).bitmapSize = r.bitmapSize
  unused : ∀ j, db.liveDisks.length ≤ j → (s.daemon.objects.disks j).bitmapSize = 0
  marked : ∀ pid, s.recoveryMode pid = true ↔ db.HasLivePartner pid
  dsCount : s.daemon.dsCount = i
  listening : s.listening = false
  once : s.once = false

/-- If the partners `0` to `i` all have live rows, there are more than `i` such rows. -/
theorem livePartner_get {i : Nat} (h : ∀ j ≤ i, db.HasLivePartner j) :
    ∃ r, db.livePartners[i]? = some r := by
  have hsub : List.range (i + 1) ⊆ db.livePartners.map PartnerRow.pid := by
    intro j hj
    obtain ⟨r, hr, rfl⟩ := h j (by simpa [Nat.lt_succ_iff] using hj)
    exact List.mem_map_of_mem hr
  have hlen := (List.subperm_of_subset List.nodup_range hsub).length_le
  rw [List.length_range, List.length_map] at hlen
  exact ⟨_, List.getElem?_eq_getElem hlen⟩

theorem Recovering.setDisk {i : Nat} (h : Recovering db i s) {slot : Nat} (disk : Disk)
    (hsize : disk.bitmapSize = (s.daemon.objects.disks slot).bitmapSize) (ops : Nat → Bool) :
    Recovering db i
      ({ s with diskOps := ops }.setObjects (s.daemon.objects.setDisk slot disk)) := by
  have hsame : ∀ j, ((s.daemon.objects.setDisk slot disk).disks j).bitmapSize =
      (s.daemon.objects.disks j).bitmapSize := by
    intro j
    show (Function.update s.daemon.objects.disks slot disk j).bitmapSize = _
    by_cases hj : j = slot
    · rw [hj, Function.update_self, hsize]
    · rw [Function.update_of_ne hj]
  exact {
    dbLock := h.dbLock
    db_eq := h.db_eq
    partner := h.partner
    size := fun r j hr => (hsame j).trans (h.size r j hr)
    unused := fun j hj => (hsame j).trans (h.unused j hj)
    marked := h.marked
    dsCount := h.dsCount
    listening := h.listening
    once := h.once }

theorem Recovering.diskSourceCreate (env : StartEnv) {i : Nat} (h : Recovering db i s)
    (hi : i < ServerDaemon.memoryFds) (hlive : db.HasLivePartner i) (name : String) (slot : Nat) :
    ∃ t, Recovering db i t ∧ t.diskOps slot = true ∧ s.diskSourceCreate env 0 name slot =
      (t.diskSourceMmap env i).andThen fun u =>
        .returns { u with daemon := { u.daemon with dsCount := i + 1 } } := by
  have hlt : i < maxPartners := lt_trans hi (by decide)
  refine ⟨_, h.setDisk { s.daemon.objects.disks slot with
    objState := .inUse
    name := name } rfl (Function.update s.diskOps slot true), by simp [setObjects], ?_⟩
  simp only [ServerProcess.diskSourceCreate, h.dsCount, if_pos hlt]
  rw [if_pos ((h.marked i).mpr hlive), Outcome.returns_andThen]

/-- Without a live row the statement for the disk waits for the lock of `db_init`. -/
theorem Recovering.diskSourceCreate_blocked (env : StartEnv) {i : Nat} (h : Recovering db i s)
    (hi : i < ServerDaemon.memoryFds) (hlive : ¬ db.HasLivePartner i) (name : String) (slot : Nat) :
    ∃ t, s.diskSourceCreate env 0 name slot = .blocked t := by
  have hlt : i < maxPartners := lt_trans hi (by decide)
  have hmark : ¬ s.recoveryMode i = true := fun hm => hlive ((h.marked i).mp hm)
  simp only [ServerProcess.diskSourceCreate, h.dsCount, if_pos hlt]
  rw [if_neg hmark, exec_of_locked, Outcome.blocked_andThen]
  · exact ⟨_, rfl⟩
  · exact h.dbLock

theorem Recovering.diskSourceMmap {i : Nat} (h : Recovering db i s)
    (hi : i < ServerDaemon.memoryFds) {r : DiskRow} (hr : db.liveDisks[i]? = some r) :
    s.diskSourceMmap env i =
      if env.mmap i = true ∧ r.Mappable then .returns s else .exits s := by
  rw [ServerProcess.diskSourceMmap, if_neg (by omega), h.size r i hr]
  rfl

theorem Recovering.snapshotDiskInit {i pid : Nat} (h : Recovering db i s)
    (hops : s.diskOps pid = true) (hlive : db.HasLivePartner pid) (snapDisk : String) :
    ∃ t, s.snapshotDiskInit snapDisk pid = .returns t ∧ Recovering db i t := by
  have hsnap := h.setDisk { s.daemon.objects.disks pid with snapName := snapDisk } rfl s.diskOps
  rw [ServerProcess.snapshotDiskInit, if_pos hops]
  dsimp only
  rw [if_pos (by exact (h.marked pid).mpr hlive), Outcome.returns_andThen]
  exact ⟨_, rfl, hsnap.dbLock, hsnap.db_eq, hsnap.partner, hsnap.size, hsnap.unused, hsnap.marked,
    hsnap.dsCount, hsnap.listening, hsnap.once⟩

/-- **Step lemma.** A pass of the loop over the disks. -/
theorem recoverDisk_cases (env : StartEnv) {i : Nat} (h : Recovering db i s) (hi : i < ServerDaemon.memoryFds)
    (hseen : ∀ j < i, db.HasLivePartner j) {r : DiskRow} (hr : db.liveDisks[i]? = some r) :
    (db.HasLivePartner i ∧ env.mmap i = true ∧ r.Mappable ∧
        ∃ t, s.recoverDisk env i = .returns t ∧ Recovering db (i + 1) t) ∨
      (¬ db.HasLivePartner i ∧ ∃ t, s.recoverDisk env i = .blocked t) ∨
      (¬ (env.mmap i = true ∧ r.Mappable) ∧ ∃ t, s.recoverDisk env i = .exits t) := by
  by_cases hlive : db.HasLivePartner i
  case neg =>
    obtain ⟨t, ht⟩ := h.diskSourceCreate_blocked env hi hlive
      (s.daemon.objects.disks (s.daemon.objects.partners i).id).name (s.daemon.objects.partners i).id
    refine Or.inr (Or.inl ⟨hlive, t, ?_⟩)
    rw [recoverDisk, ht, Outcome.blocked_andThen]
  obtain ⟨t, ht, hops, hcreate⟩ := h.diskSourceCreate env hi hlive
    (s.daemon.objects.disks (s.daemon.objects.partners i).id).name (s.daemon.objects.partners i).id
  rw [ht.diskSourceMmap hi hr] at hcreate
  by_cases hsize : env.mmap i = true ∧ r.Mappable
  case neg =>
    rw [if_neg hsize, Outcome.exits_andThen] at hcreate
    refine Or.inr (Or.inr ⟨hsize, t, ?_⟩)
    rw [recoverDisk, hcreate, Outcome.exits_andThen]
  rw [if_pos hsize, Outcome.returns_andThen] at hcreate
  refine Or.inl ⟨hlive, hsize.1, hsize.2, ?_⟩
  -- the partner of this pass has a live row, so the snapshot issues no statement either
  obtain ⟨p, hp⟩ := livePartner_get fun j hj =>
    (Nat.lt_or_eq_of_le hj).elim (hseen j) fun heq => heq ▸ hlive
  have hpartner : db.HasLivePartner (s.daemon.objects.partners i).id :=
    ⟨p, List.mem_of_getElem? hp, (h.partner p i hp).symm⟩
  have hnext : Recovering db (i + 1) { t with daemon := { t.daemon with dsCount := i + 1 } } :=
    ⟨ht.dbLock, ht.db_eq, ht.partner, ht.size, ht.unused, ht.marked, rfl, ht.listening, ht.once⟩
  obtain ⟨u, hu, hrec⟩ := hnext.snapshotDiskInit hops hpartner
    (t.daemon.objects.disks (s.daemon.objects.partners i).id).snapName
  rw [recoverDisk, hcreate, Outcome.returns_andThen, hu, Outcome.returns_andThen]
  exact ⟨_, rfl, hrec.dbLock, hrec.db_eq, hrec.partner, hrec.size, hrec.unused, hrec.marked,
    hrec.dsCount, hrec.listening, hrec.once⟩

/-! ### `db_init` as a whole -/

theorem markRecovery_loop (hs : ∀ pid, s.recoveryMode pid = false)
    (hpartner : ∀ r j, db.livePartners[j]? = some r → (s.daemon.objects.partners j).id = r.pid)
    (hpid : ∀ r ∈ db.livePartners, r.pid < maxPid) :
    ∃ f, Outcome.loop markRecovery db.livePartners.length s = .returns { s with recoveryMode := f } ∧
      ∀ pid, f pid = true ↔ db.HasLivePartner pid := by
  let I (i : Nat) (t : ServerProcess) : Prop := ∃ f, t = { s with recoveryMode := f } ∧
    ∀ pid, f pid = true ↔ ∃ j < i, ∃ r, db.livePartners[j]? = some r ∧ r.pid = pid
  have hnext : ∀ i < db.livePartners.length, ∀ t, I i t →
      ∃ u, markRecovery i t = .returns u ∧ I (i + 1) u := by
    rintro i hi t ⟨f, rfl, hf⟩
    have hget := List.getElem?_eq_getElem hi
    have hid := hpartner _ i hget
    refine ⟨_, ?_, Function.update f (db.livePartners[i]).pid true, rfl, fun pid => ?_⟩
    · rw [markRecovery]
      dsimp only
      rw [hid, if_pos (hpid _ (List.getElem_mem hi))]
    · by_cases hp : pid = (db.livePartners[i]).pid
      · rw [hp, Function.update_self]
        exact ⟨fun _ => ⟨i, Nat.lt_succ_self i, _, hget, rfl⟩, fun _ => rfl⟩
      · rw [Function.update_of_ne hp, hf]
        constructor
        · rintro ⟨j, hj, r, hr⟩
          exact ⟨j, Nat.lt_succ_of_lt hj, r, hr⟩
        · rintro ⟨j, hj, r, hr, rfl⟩
          refine ⟨j, ?_, r, hr, rfl⟩
          rcases Nat.lt_succ_iff_lt_or_eq.mp hj with hlt | rfl
          · exact hlt
          · exact absurd (congrArg PartnerRow.pid (Option.some.inj (hr.symm.trans hget))) hp
  obtain ⟨t, ht, f, rfl, hf⟩ := Outcome.loop_returns hnext
    (show I 0 s from ⟨s.recoveryMode, rfl, fun pid => by simp [hs]⟩)
  refine ⟨f, ht, fun pid => (hf pid).trans ⟨?_, ?_⟩⟩
  · rintro ⟨j, -, r, hr, hp⟩
    exact ⟨r, List.mem_of_getElem? hr, hp⟩
  · rintro ⟨r, hr, hp⟩
    obtain ⟨j, hj⟩ := List.getElem?_of_mem hr
    exact ⟨j, (List.getElem?_eq_some_iff.mp hj).1, r, hj, hp⟩

/-- A process that has come up. -/
structure Started (db : Db) (s : ServerProcess) : Prop where
  dbLock : s.dbLock = false
  db_eq : s.daemon.db = db
  unused : ∀ j, db.liveDisks.length ≤ j → (s.daemon.objects.disks j).bitmapSize = 0
  dsCount : s.daemon.dsCount = db.liveDisks.length
  listening : s.listening = true ↔ 0 < db.liveDisks.length
  once : s.once = false
  marked : ∀ pid, s.recoveryMode pid = true → db.HasLivePartner pid

theorem fetched_size (o : Objects) (db : Db) {r : DiskRow} {j : Nat} (h : db.liveDisks[j]? = some r) :
    ((o.retrieveFromDisk db).disks j).bitmapSize = r.bitmapSize := by
  simp [Objects.retrieveFromDisk, fetchRows_zero, fetched_eq, h, Disk.scan]

theorem fetched_id (o : Objects) (db : Db) {r : PartnerRow} {j : Nat}
    (h : db.livePartners[j]? = some r) : ((o.retrieveFromPartner db).partners j).id = r.pid := by
  simp [Objects.retrieveFromPartner, fetchRows_zero, fetched_eq, h, Partner.scan]

/-- The memory after the tables were read. -/
def reloaded (db : Db) (recoveryMode : Nat → Bool) : ServerProcess where
  daemon := { ServerDaemon.boot with objects := Objects.zero.dbInitServer db, db := db }
  recoveryMode := recoveryMode
  diskOps := fun _ => false
  dbLock := true
  once := false
  listening := false

theorem recovering_reloaded {f : Nat → Bool} (hf : ∀ pid, f pid = true ↔ db.HasLivePartner pid) :
    Recovering db 0 (reloaded db f) where
  dbLock := rfl
  db_eq := rfl
  partner := fun r j hr => fetched_id Objects.zero db hr
  size := fun r j hr => fetched_size _ db hr
  unused := fun j hj => by
    show ((Objects.zero.dbInitServer db).disks j).bitmapSize = 0
    simp [Objects.dbInitServer, Objects.retrieveFromDisk, Objects.retrieveFromRelation,
      Objects.retrieveFromPartner, fetchRows_zero, fetched_eq, hj, Objects.zero]
  marked := hf
  dsCount := rfl
  listening := rfl
  once := rfl

theorem dbInit_eq (hconn : env.connects = true) (hpid : ∀ r ∈ db.livePartners, r.pid < maxPid) :
    ∃ f, (∀ pid, f pid = true ↔ db.HasLivePartner pid) ∧ dbInit env db =
      (Outcome.loop (recoverDisk env) db.liveDisks.length (reloaded db f)).andThen fun s =>
      (if 0 < db.liveDisks.length then s.ebdrConnServerSetup env else .returns s).andThen fun s =>
      .returns { s with dbLock := false } := by
  let s0 : ServerProcess := { zero db with dbLock := true }
  obtain ⟨f, hloop, hf⟩ := markRecovery_loop (s := s0.setObjects (Objects.zero.retrieveFromPartner db))
    (fun _ => rfl) (fun r j hr => fetched_id Objects.zero db hr) hpid
  have hlock : (zero db).lockDb = .returns s0 := rfl
  have hobjects : s0.daemon.objects = Objects.zero := rfl
  refine ⟨f, hf, ?_⟩
  rw [dbInit, hlock, Outcome.returns_andThen, if_pos hconn]
  dsimp only
  rw [hobjects, hloop, Outcome.returns_andThen]
  rfl

/-- **What a start comes to.** -/
theorem dbInit_cases (env : StartEnv) (hpid : ∀ r ∈ db.livePartners, r.pid < maxPid)
    (hlen : db.liveDisks.length ≤ ServerDaemon.memoryFds) :
    (db.Restartable ∧ env.Serves db ∧ ∃ t, dbInit env db = .returns t ∧ Started db t) ∨
      (¬ (∀ i < db.liveDisks.length, db.HasLivePartner i) ∧ ∃ t, dbInit env db = .blocked t) ∨
      (¬ (env.Serves db ∧ ∀ r ∈ db.liveDisks, r.Mappable) ∧ ∃ t, dbInit env db = .exits t) := by
  by_cases hconn : env.connects = true
  case neg =>
    have hlock : (zero db).lockDb = .returns { zero db with dbLock := true } := rfl
    refine Or.inr (Or.inr ⟨fun h => hconn h.1.connects, ?_⟩)
    rw [dbInit, hlock, Outcome.returns_andThen, if_neg hconn]
    exact ⟨_, rfl⟩
  obtain ⟨f, hf, heq⟩ := dbInit_eq hconn hpid
  let I (i : Nat) (t : ServerProcess) : Prop := Recovering db i t ∧ ∀ j < i,
    db.HasLivePartner j ∧ env.mmap j = true ∧ ∀ r, db.liveDisks[j]? = some r → r.Mappable
  have hget : ∀ i < db.liveDisks.length, ∃ r, db.liveDisks[i]? = some r := fun i hi =>
    ⟨_, List.getElem?_eq_getElem hi⟩
  have hnext : ∀ i < db.liveDisks.length, ∀ t, I i t →
      (∃ u, recoverDisk env i t = .returns u ∧ I (i + 1) u) ∨ (recoverDisk env i t).Stops := by
    rintro i hi t ⟨hrec, hseen⟩
    obtain ⟨r, hr⟩ := hget i hi
    rcases recoverDisk_cases env hrec (by omega) (fun j hj => (hseen j hj).1) hr with
      ⟨hlive, hmap, hsize, u, hu, hrec'⟩ | ⟨-, u, hu⟩ | ⟨-, u, hu⟩
    · refine Or.inl ⟨u, hu, hrec', fun j hj => ?_⟩
      rcases Nat.lt_succ_iff_lt_or_eq.mp hj with hlt | rfl
      · exact hseen j hlt
      · refine ⟨hlive, hmap, fun r' hr' => ?_⟩
        rwa [← Option.some.inj (hr.symm.trans hr')]
    · exact Or.inr (hu ▸ Outcome.Stops.blocked)
    · exact Or.inr (hu ▸ Outcome.Stops.exits)
  rcases Outcome.loop_cases hnext
    (show I 0 (reloaded db f) from ⟨recovering_reloaded hf, fun j hj => absurd hj (Nat.not_lt_zero j)⟩)
    with ⟨t, ht, hrec, hall⟩ | ⟨i, hi, t, ⟨hrec, hseen⟩, hstop, ht⟩
  · rw [ht, Outcome.returns_andThen] at heq
    have hready : db.Restartable := ⟨fun i hi => (hall i hi).1, fun r hr => by
      obtain ⟨j, hj⟩ := List.getElem?_of_mem hr
      exact (hall j (List.getElem?_eq_some_iff.mp hj).1).2.2 r hj⟩
    have hmap : ∀ i < db.liveDisks.length, env.mmap i = true := fun i hi => (hall i hi).2.1
    by_cases hpos : 0 < db.liveDisks.length
    · rw [if_pos hpos, ebdrConnServerSetup] at heq
      by_cases hbind : env.bind = true
      · rw [if_pos ⟨hrec.listening, hbind⟩, Outcome.returns_andThen] at heq
        exact Or.inl ⟨hready, ⟨hconn, hmap, fun _ => hbind⟩, _, heq, rfl, hrec.db_eq, hrec.unused,
          hrec.dsCount, by simp [hpos], hrec.once, fun pid => (hrec.marked pid).mp⟩
      · rw [if_neg fun h => hbind h.2, Outcome.exits_andThen] at heq
        exact Or.inr (Or.inr ⟨fun h => hbind (h.1.bind hpos), t, heq⟩)
    · rw [if_neg hpos, Outcome.returns_andThen] at heq
      exact Or.inl ⟨hready, ⟨hconn, hmap, fun h => absurd h hpos⟩, _, heq, rfl, hrec.db_eq,
        hrec.unused, hrec.dsCount, by simp [hpos, hrec.listening], hrec.once,
        fun pid => (hrec.marked pid).mp⟩
  · rw [ht, hstop.andThen] at heq
    obtain ⟨r, hr⟩ := hget i hi
    rcases recoverDisk_cases env hrec (by omega) (fun j hj => (hseen j hj).1) hr with
      ⟨-, -, -, u, hu, -⟩ | ⟨hlive, u, hu⟩ | ⟨hsize, u, hu⟩
    · exact absurd hu (hstop u)
    · exact Or.inr (Or.inl ⟨fun h => hlive (h i hi), u, heq.trans hu⟩)
    · exact Or.inr (Or.inr ⟨fun h => hsize ⟨h.1.mmap i hi, h.2 r (List.mem_of_getElem? hr)⟩, u,
        heq.trans hu⟩)

/-! ### What a start leaves in the tables -/

/-- `db_lock` is held, and the tables are as they were. -/
def Holding (db : Db) (s : ServerProcess) : Prop := s.dbLock = true ∧ s.daemon.db = db

theorem holding_exec (h : Holding db s) (stmt : Statement) : (s.exec stmt).Always (Holding db) := by
  rw [exec_of_locked h.1]
  exact h

theorem holding_diskSourceMmap (h : Holding db s) (serverPid : Nat) :
    (s.diskSourceMmap env serverPid).Always (Holding db) := by
  unfold diskSourceMmap
  split
  · trivial
  · split
    · exact h
    · exact h

theorem holding_diskSourceCreate (h : Holding db s) (uBitmapSize : Nat) (name : String) (slot : Nat) :
    (s.diskSourceCreate env uBitmapSize name slot).Always (Holding db) := by
  unfold diskSourceCreate
  dsimp only
  split
  · refine Outcome.Always.andThen ?_ fun t ht => (holding_diskSourceMmap ht _).andThen fun u hu => hu
    split
    · exact h
    · exact holding_exec (by exact h) _
  · exact h

theorem holding_snapshotDiskInit (h : Holding db s) (snapDisk : String) (pid : Nat) :
    (s.snapshotDiskInit snapDisk pid).Always (Holding db) := by
  unfold snapshotDiskInit
  split
  · dsimp only
    refine Outcome.Always.andThen ?_ fun t ht => ht
    split
    · exact h
    · exact holding_exec (by exact h) _
  · trivial

theorem holding_recoverDisk (h : Holding db s) (i : Nat) :
    (s.recoverDisk env i).Always (Holding db) :=
  (holding_diskSourceCreate h _ _ _).andThen fun _ ht =>
    (holding_snapshotDiskInit ht _ _).andThen fun _ hu => hu

theorem holding_markRecovery (h : Holding db s) (i : Nat) :
    (s.markRecovery i).Always (Holding db) := by
  unfold markRecovery
  dsimp only
  split
  · exact h
  · trivial

theorem holding_ebdrConnServerSetup (h : Holding db s) :
    (s.ebdrConnServerSetup env).Always (Holding db) := by
  unfold ebdrConnServerSetup
  split
  · exact h
  · exact h

/-- A start changes no table, whatever the system answers and however it ends. -/
theorem dbInit_keeps (env : StartEnv) (db : Db) :
    (dbInit env db).Always fun s => s.daemon.db = db := by
  have hdb : ∀ s, Holding db s → s.daemon.db = db := fun s hs => hs.2
  have hlock : (zero db).lockDb = .returns { zero db with dbLock := true } := rfl
  rw [dbInit, hlock, Outcome.returns_andThen]
  split
  · refine Outcome.Always.bind (Outcome.Always.loop (P := Holding db)
      (fun i s hs => holding_markRecovery hs i) ⟨rfl, rfl⟩) hdb fun s hs => ?_
    refine Outcome.Always.bind (Outcome.Always.loop (P := Holding db)
      (fun i t ht => holding_recoverDisk ht i) hs) hdb fun t ht => ?_
    refine Outcome.Always.bind (P := Holding db) ?_ hdb fun u hu => hu.2
    split
    · exact holding_ebdrConnServerSetup ht
    · exact ht
  · exact rfl

end ServerProcess

end Ebdr
