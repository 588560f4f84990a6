import Ebdr.Database.ClientObjects
import Mathlib

/-!
# The objects of the server and their rows

The handlers and commands of the server that store an object state, with the statements they issue,
and the result for both builds: memory and tables agree all along a run exactly when every operation
of it meets the condition of its effect.
-/

namespace Ebdr

open Mirror

/-- The server daemon. -/
structure ServerDaemon where
  objects : Objects
  /-- `all_partner_servers[pid].ops` is set. -/
  partnerOps : Nat → Bool
  /-- `all_relation_servers[pid].ops` is set. -/
  relationOps : Nat → Bool
  /-- `replic_server_obj[pid].rep_conn` is set. -/
  repConn : Nat → Bool
  /-- `bitmap_server_obj[pid].ops` is set. -/
  bitmapOps : Nat → Bool
  /-- The sizes in `replic_hdr_server_obj[pid]`. -/
  replicHdr : Nat → HeaderSizes
  /-- The disks below `ds_count` have their operations set and are mapped. -/
  dsCount : Nat
  /-- `ebdrdbs`. -/
  db : Db

namespace ServerDaemon

def boot : ServerDaemon where
  objects := .zero
  partnerOps := fun _ => false
  relationOps := fun _ => false
  repConn := fun _ => false
  bitmapOps := fun _ => false
  replicHdr := fun _ => ⟨0, 0, 0⟩
  dsCount := 0
  db := .created

/-- The length of the local arrays of `disk_source_mmap`. -/
def memoryFds : Nat := 5

/-- The `c` command, after the device was created: `disk_source_create`. -/
def createDisk (s : ServerDaemon) (name : String) (bitmapSize : Nat) : Option ServerDaemon :=
  if s.dsCount < maxPartners then
    if s.dsCount < memoryFds then
      some { s with
        objects := s.objects.setDisk s.dsCount
          { s.objects.disks s.dsCount with
            objState := .inUse
            name := name
            bitmapSize := bitmapSize }
        db := s.db.insertIntoDisk s.dsCount name "-" bitmapSize .inUse
        dsCount := s.dsCount + 1 }
    -- an index past the end of `memory_fd`
    else none
  else some s

/-- `make_relation_with_client`: the relation takes the sizes that the header had before. -/
def makeRelationWithClient (s : ServerDaemon) (pid role : Nat) (srcDisk : String)
    (h : HeaderSizes) : ServerDaemon :=
  let s := { s with relationOps := Function.update s.relationOps pid true }
  if s.objects.isPartnerIdValid pid = true then
    { s with
      objects := s.objects.setRelation pid
        { s.objects.relations pid with
          role := if role = 0 then 0 else 1
          partnerId := pid
          relationId := pid
          objState := .inUse
          device := srcDisk
          bitmapSize := (s.replicHdr pid).bitmapSize
          grainSize := (s.replicHdr pid).grainSize }
      replicHdr := Function.update s.replicHdr pid h }
  else s

/-- `make_partner`. -/
def makePartner (s : ServerDaemon) (pid : Nat) (destIp : String) (bandwidth : Nat) (disk : String)
    (h : HeaderSizes) : Option ServerDaemon :=
  if pid < maxPartners then
    let s := { s with
      objects := s.objects.setPartner pid ⟨pid, .inUse, destIp, bandwidth⟩
      partnerOps := Function.update s.partnerOps pid true
      repConn := Function.update s.repConn pid true
      db := s.db.insertIntoPartner pid .inUse destIp bandwidth }
    if s.objects.isPartnerIdValid pid = true then some (s.makeRelationWithClient pid 0 disk h)
    else some s
  else none

/-- The `x` command. -/
def makeRelation (s : ServerDaemon) (pid role : Nat) (srcDisk : String) (h : HeaderSizes) :
    ServerDaemon :=
  if s.objects.isPartnerIdValid pid = true then s.makeRelationWithClient pid role srcDisk h else s

/-- `syn_received`: only here the relation gets a row. -/
def synReceived (s : ServerDaemon) (pid : Nat) : Option ServerDaemon :=
  if s.repConn pid = true then
    let h := s.replicHdr pid
    let r := s.objects.relations pid
    some { s with
      objects := s.objects.setRelation pid
        { r with
          bitmapSize := h.bitmapSize
          grainSize := h.grainSize
          chunkSize := h.chunkSize }
      db := s.db.insertIntoRelation r.role r.partnerId r.relationId .inUse r.device h.bitmapSize
        h.grainSize h.chunkSize }
  else none

/-- `get_bitmap`. -/
def getBitmap (s : ServerDaemon) (pid : Nat) : Option ServerDaemon :=
  if s.repConn pid = true ∧ pid < s.dsCount then
    let s := { s with bitmapOps := Function.update s.bitmapOps pid true }
    if (s.objects.partners pid).objState = .released then
      some { s with
        objects :=
          ((s.objects.setPartnerState pid .inUse).setRelationState pid .inUse).setDiskState pid
            .inUse
        db := ((s.db.updateIntoPartner pid .inUse).updateRelationState pid .inUse).updateDiskState
          pid .inUse }
    else some s
  else none

/-- The end of `terminate`: the objects are released, and the partner's row is updated. -/
def releaseObjects (s : ServerDaemon) (pid : Nat) : ServerDaemon :=
  { s with
    objects :=
      ((s.objects.setPartnerState pid .released).setRelationState pid .released).setDiskState pid
        .released
    db := s.db.updateIntoPartner pid .released }

/-- `terminate`. -/
def terminate (s : ServerDaemon) (pid : Nat) : Option ServerDaemon :=
  if (s.objects.partners pid).objState ≠ .released then
    if pid < s.dsCount ∧ s.bitmapOps pid = true then some (s.releaseObjects pid) else none
  else some s

/-- `remove_partner`. -/
def removePartner (s : ServerDaemon) (pid : Nat) : Option ServerDaemon :=
  if s.partnerOps pid = true then
    let o :=
      if (s.objects.relations pid).partnerId = pid ∧
          (s.objects.relations pid).objState = .inUse then
        s.objects.setRelationState pid .released
      else s.objects
    some { s with
      objects := o.setPartner pid ⟨0, .released, "", 0⟩
      partnerOps := Function.update s.partnerOps pid false }
  else none

/-- A connection is accepted: `replic_thread_init` reads the partners back, each row into the slot of
its position. Only a start of the daemon sets `recovery_mode`, so no partner is marked as recovering
here. -/
def accept (s : ServerDaemon) : Option ServerDaemon :=
  if s.db.livePartners.length ≤ maxPartners then
    some { s with objects := s.objects.retrieveFromPartner s.db }
  -- an index past the end of `all_partner_servers`
  else none

/-- `remove_relation`. -/
def removeRelation (s : ServerDaemon) (rid : Nat) : Option ServerDaemon :=
  if s.relationOps rid = true then
    some { s with objects := s.objects.setRelationState rid .released }
  else none

inductive Op where
  | createDisk (name : String) (bitmapSize : Nat)
  | makePartner (pid : Nat) (destIp : String) (bandwidth : Nat) (disk : String) (h : HeaderSizes)
  | makeRelation (pid role : Nat) (srcDisk : String) (h : HeaderSizes)
  | syn (pid : Nat)
  | getBitmap (pid : Nat)
  | terminate (pid : Nat)
  | removePartner (pid : Nat)
  | removeRelation (rid : Nat)
  | accept

def step (s : ServerDaemon) : Op → Option ServerDaemon
  | .createDisk name bitmapSize => s.createDisk name bitmapSize
  | .makePartner pid destIp bandwidth disk h => s.makePartner pid destIp bandwidth disk h
  | .makeRelation pid role srcDisk h => some (s.makeRelation pid role srcDisk h)
  | .syn pid => s.synReceived pid
  | .getBitmap pid => s.getBitmap pid
  | .terminate pid => s.terminate pid
  | .removePartner pid => s.removePartner pid
  | .removeRelation rid => s.removeRelation rid
  | .accept => s.accept

/-! ### What an operation does to a kind of object -/

def partnerEffect (s : ServerDaemon) : Op → Effect Nat PartnerObjState
  | .makePartner pid _ _ _ _ => .storeInsert pid .inUse pid
  | .getBitmap pid =>
    if (s.objects.partners pid).objState = .released then .storeUpdate pid .inUse else .keep
  | .terminate pid =>
    if (s.objects.partners pid).objState ≠ .released then .storeUpdate pid .released else .keep
  | .removePartner pid => .store pid .released
  | .accept =>
    .load (List.range s.db.livePartners.length) fun i =>
      ((s.db.livePartners[i]?).map PartnerRow.state).getD .free
  | .createDisk .. | .makeRelation .. | .syn _ | .removeRelation _ => .keep

def relationEffect (s : ServerDaemon) : Op → Effect Nat RelationObjState
  | .makePartner pid _ _ _ _ => .store pid .inUse
  | .makeRelation pid _ _ _ =>
    if s.objects.isPartnerIdValid pid = true then .store pid .inUse else .keep
  | .syn pid => .insert (s.objects.relations pid).partnerId .inUse
  | .getBitmap pid =>
    if (s.objects.partners pid).objState = .released then .storeUpdate pid .inUse else .keep
  | .terminate pid =>
    if (s.objects.partners pid).objState ≠ .released then .store pid .released else .keep
  | .removePartner pid =>
    if (s.objects.relations pid).partnerId = pid ∧ (s.objects.relations pid).objState = .inUse then
      .store pid .released
    else .keep
  | .removeRelation rid => .store rid .released
  | .createDisk .. | .accept => .keep

def diskEffect (s : ServerDaemon) : Op → Effect Nat DiskObjState
  | .createDisk _ _ =>
    if s.dsCount < maxPartners then .storeInsert s.dsCount .inUse s.dsCount else .keep
  | .getBitmap pid =>
    if (s.objects.partners pid).objState = .released then .storeUpdate pid .inUse else .keep
  | .terminate pid =>
    if (s.objects.partners pid).objState ≠ .released then .store pid .released else .keep
  | .makePartner .. | .makeRelation .. | .syn _ | .removePartner _ | .removeRelation _ | .accept =>
    .keep

/-- The step of an operation has the operation's effects. -/
abbrev HasEffects (s : ServerDaemon) (op : Op) (s' : ServerDaemon) : Prop :=
  StepEffects (s.partnerEffect op) (s.relationEffect op) (s.diskEffect op) s.objects s.db s'.objects
    s'.db

variable {s s' : ServerDaemon} {pid : Nat}

theorem hasEffects_createDisk {name : String} {bitmapSize : Nat}
    (h : s.createDisk name bitmapSize = some s') : HasEffects s (.createDisk name bitmapSize) s' := by
  unfold createDisk at h
  split at h
  · rename_i hd
    split at h
    · rw [← Option.some.inj h]
      refine ⟨⟨rfl, rfl⟩, ⟨rfl, rfl⟩, ?_⟩
      simp only [diskEffect, if_pos hd]
      exact ⟨Objects.diskStates_setDisk _, Db.diskStates_insertIntoDisk ..⟩
    · cases h
  · rename_i hd
    rw [← Option.some.inj h]
    exact .same rfl rfl (if_neg hd) rfl rfl

theorem makeRelationWithClient_spec (s : ServerDaemon) (pid role : Nat) (srcDisk : String)
    (h : HeaderSizes) :
    let e : Effect Nat RelationObjState :=
      if s.objects.isPartnerIdValid pid = true then .store pid .inUse else .keep
    let s' := s.makeRelationWithClient pid role srcDisk h
    StepEffects .keep e .keep s.objects s.db s'.objects s'.db := by
  unfold makeRelationWithClient
  by_cases hv : s.objects.isPartnerIdValid pid = true
  · simp only [if_pos hv]
    exact ⟨⟨rfl, rfl⟩, ⟨Objects.relationStates_setRelation _, rfl⟩, ⟨rfl, rfl⟩⟩
  · simp only [if_neg hv]
    exact .same rfl rfl rfl rfl rfl

theorem hasEffects_makePartner {destIp disk : String} {bandwidth : Nat} {hs : HeaderSizes}
    (h : s.makePartner pid destIp bandwidth disk hs = some s') :
    HasEffects s (.makePartner pid destIp bandwidth disk hs) s' := by
  unfold makePartner at h
  split at h
  · rename_i hpid
    have hvalid : (s.objects.setPartner pid ⟨pid, .inUse, destIp, bandwidth⟩).isPartnerIdValid pid =
        true := Objects.isPartnerIdValid_setPartner hpid rfl
    simp only [if_pos hvalid] at h
    rw [← Option.some.inj h]
    obtain ⟨hp, hr, hd⟩ := makeRelationWithClient_spec { s with
      objects := s.objects.setPartner pid ⟨pid, .inUse, destIp, bandwidth⟩
      partnerOps := Function.update s.partnerOps pid true
      repConn := Function.update s.repConn pid true
      db := s.db.insertIntoPartner pid .inUse destIp bandwidth } pid 0 disk hs
    simp only [if_pos hvalid] at hr
    refine ⟨?_, hr, hd⟩
    rw [hp.1, hp.2]
    exact ⟨Objects.partnerStates_setPartner _, Db.partnerStates_insertIntoPartner ..⟩
  · cases h

theorem hasEffects_makeRelation {role : Nat} {srcDisk : String} {hs : HeaderSizes} :
    HasEffects s (.makeRelation pid role srcDisk hs) (s.makeRelation pid role srcDisk hs) := by
  unfold makeRelation
  split
  · exact makeRelationWithClient_spec s pid role srcDisk hs
  · rename_i hv
    exact .same rfl (if_neg hv) rfl rfl rfl

theorem hasEffects_syn (h : s.synReceived pid = some s') : HasEffects s (.syn pid) s' := by
  unfold synReceived at h
  split at h
  · rw [← Option.some.inj h]
    refine ⟨⟨rfl, rfl⟩, ⟨?_, Db.relationStates_insertIntoRelation ..⟩, ⟨rfl, rfl⟩⟩
    -- the state of the relation is stored back as it was
    rw [Objects.relationStates_setRelation]
    exact Function.update_eq_self pid s.objects.relationStates
  · cases h

theorem hasEffects_getBitmap (h : s.getBitmap pid = some s') : HasEffects s (.getBitmap pid) s' := by
  unfold getBitmap at h
  split at h
  · dsimp only at h
    split at h
    · rename_i hrel
      rw [← Option.some.inj h]
      refine ⟨?_, ?_, ?_⟩
      · simp only [partnerEffect, if_pos hrel]
        exact ⟨by simp [Effect.memory], Db.partnerStates_updateIntoPartner ..⟩
      · simp only [relationEffect, if_pos hrel]
        exact ⟨by simp [Effect.memory], Db.relationStates_updateRelationState ..⟩
      · simp only [diskEffect, if_pos hrel]
        exact ⟨by simp [Effect.memory], Db.diskStates_updateDiskState ..⟩
    · rename_i hrel
      rw [← Option.some.inj h]
      exact .same (if_neg hrel) (if_neg hrel) (if_neg hrel) rfl rfl
  · cases h

theorem hasEffects_terminate (h : s.terminate pid = some s') : HasEffects s (.terminate pid) s' := by
  unfold terminate at h
  split at h
  · rename_i hrel
    split at h
    · rw [← Option.some.inj h]
      refine ⟨?_, ?_, ?_⟩
      · simp only [partnerEffect, if_pos hrel]
        exact ⟨by simp [releaseObjects, Effect.memory], Db.partnerStates_updateIntoPartner ..⟩
      · simp only [relationEffect, if_pos hrel]
        exact ⟨by simp [releaseObjects, Effect.memory], rfl⟩
      · simp only [diskEffect, if_pos hrel]
        exact ⟨by simp [releaseObjects, Effect.memory], rfl⟩
    · cases h
  · rename_i hrel
    rw [← Option.some.inj h]
    exact .same (if_neg hrel) (if_neg hrel) (if_neg hrel) rfl rfl

theorem hasEffects_removePartner (h : s.removePartner pid = some s') :
    HasEffects s (.removePartner pid) s' := by
  unfold removePartner at h
  split at h
  · rw [← Option.some.inj h]
    refine ⟨⟨?_, rfl⟩, ?_, ⟨?_, rfl⟩⟩
    · split <;> exact Objects.partnerStates_setPartner _
    · simp only [relationEffect]
      split
      · exact ⟨Objects.relationStates_setRelationState _, rfl⟩
      · exact ⟨rfl, rfl⟩
    · split <;> rfl
  · cases h

theorem hasEffects_removeRelation {rid : Nat} (h : s.removeRelation rid = some s') :
    HasEffects s (.removeRelation rid) s' := by
  unfold removeRelation at h
  split at h
  · rw [← Option.some.inj h]
    exact ⟨⟨rfl, rfl⟩, ⟨Objects.relationStates_setRelationState _, rfl⟩, ⟨rfl, rfl⟩⟩
  · cases h

theorem hasEffects_accept (h : s.accept = some s') : HasEffects s .accept s' := by
  unfold accept at h
  split at h
  · rw [← Option.some.inj h]
    refine ⟨⟨?_, rfl⟩, ⟨rfl, rfl⟩, ⟨rfl, rfl⟩⟩
    funext i
    show (fetchRows Partner.scan 0 s.db.livePartners s.objects.partners i).objState = _
    rw [fetchRows_zero, fetched_eq]
    by_cases hi : i < s.db.livePartners.length
    · simp [partnerEffect, Effect.memory, hi, Partner.scan]
    · simp [partnerEffect, Effect.memory, hi, Objects.partnerStates]
  · cases h

theorem hasEffects {op : Op} (h : s.step op = some s') : HasEffects s op s' := by
  cases op with
  | createDisk name bitmapSize => exact hasEffects_createDisk h
  | makePartner pid destIp bandwidth disk hs => exact hasEffects_makePartner h
  | makeRelation pid role srcDisk hs =>
    rw [← Option.some.inj h]
    exact hasEffects_makeRelation
  | syn pid => exact hasEffects_syn h
  | getBitmap pid => exact hasEffects_getBitmap h
  | terminate pid => exact hasEffects_terminate h
  | removePartner pid => exact hasEffects_removePartner h
  | removeRelation rid => exact hasEffects_removeRelation h
  | accept => exact hasEffects_accept h

theorem partnerEffect_notFree (s : ServerDaemon) (op : Op)
    (hf : NoneFree .free s.db.partnerStates) : (s.partnerEffect op).NotFree .free := by
  cases op with
  | makePartner | removePartner => exact PartnerObjState.noConfusion
  | getBitmap | terminate => exact .ite PartnerObjState.noConfusion trivial
  | accept =>
    intro i hi
    have hget := List.getElem?_eq_getElem (List.mem_range.mp hi)
    have hrow := (List.mem_filter.mp (List.mem_of_getElem? hget)).1
    dsimp only
    rw [hget, Option.map_some, Option.getD_some]
    exact hf _ (List.mem_map_of_mem hrow)
  | createDisk | makeRelation | syn | removeRelation => trivial

theorem relationEffect_notFree (s : ServerDaemon) (op : Op) :
    (s.relationEffect op).NotFree .free := by
  cases op with
  | makePartner | syn | removeRelation => exact RelationObjState.noConfusion
  | makeRelation | getBitmap | terminate | removePartner =>
    exact .ite RelationObjState.noConfusion trivial
  | createDisk | accept => trivial

theorem diskEffect_notFree (s : ServerDaemon) (op : Op) : (s.diskEffect op).NotFree .free := by
  cases op with
  | createDisk | getBitmap | terminate => exact .ite DiskObjState.noConfusion trivial
  | makePartner | makeRelation | syn | removePartner | removeRelation | accept => trivial

/-! ### Agreement -/

def PartnersAgree (s : ServerDaemon) : Prop :=
  Mirrors .free s.objects.partnerStates s.db.partnerStates

def RelationsAgree (s : ServerDaemon) : Prop :=
  Mirrors .free s.objects.relationStates s.db.relationStates

def DisksAgree (s : ServerDaemon) : Prop := Mirrors .free s.objects.diskStates s.db.diskStates

/-- Memory and tables agree on the states of all objects. -/
def Agree (s : ServerDaemon) : Prop := s.PartnersAgree ∧ s.RelationsAgree ∧ s.DisksAgree

def PartnerOk (s : ServerDaemon) (op : Op) : Prop :=
  (s.partnerEffect op).Ok .free s.objects.partnerStates

def RelationOk (s : ServerDaemon) (op : Op) : Prop :=
  (s.relationEffect op).Ok .free s.objects.relationStates

def DiskOk (s : ServerDaemon) (op : Op) : Prop := (s.diskEffect op).Ok .free s.objects.diskStates

/-- The operation keeps the agreement. -/
def Ok (s : ServerDaemon) (op : Op) : Prop := s.PartnerOk op ∧ s.RelationOk op ∧ s.DiskOk op

instance (s : ServerDaemon) (op : Op) : Decidable (s.Ok op) := by
  unfold Ok PartnerOk RelationOk DiskOk
  infer_instance

variable {ops : List Op}

theorem partners_agree_iff (hr : Lts.run step boot ops = some s) :
    Lts.Always step PartnersAgree boot ops ↔ Lts.Meets step PartnerOk boot ops :=
  always_mirrors_iff (fun _ _ _ h => (hasEffects h).partners) partnerEffect_notFree mirrors_nil
    noneFree_nil hr

theorem relations_agree_iff (hr : Lts.run step boot ops = some s) :
    Lts.Always step RelationsAgree boot ops ↔ Lts.Meets step RelationOk boot ops :=
  always_mirrors_iff (fun _ _ _ h => (hasEffects h).relations) (fun s op _ => relationEffect_notFree s op) mirrors_nil
    noneFree_nil hr

theorem disks_agree_iff (hr : Lts.run step boot ops = some s) :
    Lts.Always step DisksAgree boot ops ↔ Lts.Meets step DiskOk boot ops :=
  always_mirrors_iff (fun _ _ _ h => (hasEffects h).disks) (fun s op _ => diskEffect_notFree s op) mirrors_nil
    noneFree_nil hr

theorem agree_iff (hr : Lts.run step boot ops = some s) :
    Lts.Always step Agree boot ops ↔ Lts.Meets step Ok boot ops := by
  have hp := partners_agree_iff hr
  have hrel := relations_agree_iff hr
  have hd := disks_agree_iff hr
  unfold Agree Ok
  rw [Lts.always_and, Lts.always_and, Lts.meets_and, Lts.meets_and, hp, hrel, hd]

end ServerDaemon

/-- **Memory and tables agree on object states.** After every operation of a run of the client, and
of a run of the server, the states of the partners, relations and disks in memory are those of their
rows exactly when every operation of the run keeps the agreement; for each kind of object alone the
same holds. -/
theorem object_states_agree {cs : List ClientDaemon.Op} {ss : List ServerDaemon.Op}
    {c : ClientDaemon} {t : ServerDaemon} (hc : Lts.run ClientDaemon.step .boot cs = some c)
    (ht : Lts.run ServerDaemon.step .boot ss = some t) :
    (Lts.Always ClientDaemon.step ClientDaemon.Agree .boot cs ↔
        Lts.Meets ClientDaemon.step ClientDaemon.Ok .boot cs) ∧
      (Lts.Always ClientDaemon.step ClientDaemon.PartnersAgree .boot cs ↔
        Lts.Meets ClientDaemon.step ClientDaemon.PartnerOk .boot cs) ∧
      (Lts.Always ClientDaemon.step ClientDaemon.RelationsAgree .boot cs ↔
        Lts.Meets ClientDaemon.step ClientDaemon.RelationOk .boot cs) ∧
      (Lts.Always ClientDaemon.step ClientDaemon.DisksAgree .boot cs ↔
        Lts.Meets ClientDaemon.step ClientDaemon.DiskOk .boot cs) ∧
      (Lts.Always ServerDaemon.step ServerDaemon.Agree .boot ss ↔
        Lts.Meets ServerDaemon.step ServerDaemon.Ok .boot ss) ∧
      (Lts.Always ServerDaemon.step ServerDaemon.PartnersAgree .boot ss ↔
        Lts.Meets ServerDaemon.step ServerDaemon.PartnerOk .boot ss) ∧
      (Lts.Always ServerDaemon.step ServerDaemon.RelationsAgree .boot ss ↔
        Lts.Meets ServerDaemon.step ServerDaemon.RelationOk .boot ss) ∧
      (Lts.Always ServerDaemon.step ServerDaemon.DisksAgree .boot ss ↔
        Lts.Meets ServerDaemon.step ServerDaemon.DiskOk .boot ss) :=
  ⟨ClientDaemon.agree_iff hc, ClientDaemon.partners_agree_iff hc, ClientDaemon.relations_agree_iff hc,
    ClientDaemon.disks_agree_iff hc, ServerDaemon.agree_iff ht, ServerDaemon.partners_agree_iff ht,
    ServerDaemon.relations_agree_iff ht, ServerDaemon.disks_agree_iff ht⟩

/-- A partner of the client up to its first resync. -/
def clientToResync : List ClientDaemon.Op :=
  [.makePartner "10.0.0.1" 100, .makeRelation 0 1 "/dev/sdb" ⟨16384, 1024, 8⟩ true, .metadata 0,
    .startResync 0 0, .passBit 0 1 true]

/-- The same partner on the server, after its disk was created. -/
def serverToResync : List ServerDaemon.Op :=
  [.createDisk "/dev/sda" 16384, .makePartner 0 "10.0.0.2" 100 "/dev/sda" ⟨16384, 1024, 8⟩, .syn 0,
    .getBitmap 0]

/-- Up to there, and over a pause and a resume, the client's memory and tables agree. -/
theorem object_states_agree_resume :
    Lts.Always ClientDaemon.step ClientDaemon.Agree .boot
      (clientToResync ++ [.pause 0, .resume 0]) := by
  have hc : (Lts.run ClientDaemon.step .boot (clientToResync ++ [.pause 0, .resume 0])).isSome =
      true := by decide
  obtain ⟨c, hc⟩ := Option.isSome_iff_exists.mp hc
  have ht : (Lts.run ServerDaemon.step .boot serverToResync).isSome = true := by decide
  obtain ⟨t, ht⟩ := Option.isSome_iff_exists.mp ht
  exact (object_states_agree hc ht).1.mpr (by decide)

/-- When the resync completes, the client stores the released states of the relation and of the disk
without a statement; so does the server, whose relation had no row before its SYN either. -/
theorem completion_disagrees :
    ¬ Lts.Always ClientDaemon.step ClientDaemon.RelationsAgree .boot
        (clientToResync ++ [.complete 0]) ∧
      ¬ Lts.Always ClientDaemon.step ClientDaemon.DisksAgree .boot
        (clientToResync ++ [.complete 0]) ∧
      ¬ Lts.Always ServerDaemon.step ServerDaemon.DisksAgree .boot
        (serverToResync ++ [.terminate 0]) ∧
      ¬ Lts.Always ServerDaemon.step ServerDaemon.Agree .boot serverToResync := by
  have hc : (Lts.run ClientDaemon.step .boot (clientToResync ++ [.complete 0])).isSome = true := by
    decide
  obtain ⟨c, hc⟩ := Option.isSome_iff_exists.mp hc
  have ht : (Lts.run ServerDaemon.step .boot (serverToResync ++ [.terminate 0])).isSome = true := by
    decide
  obtain ⟨t, ht⟩ := Option.isSome_iff_exists.mp ht
  have hu : (Lts.run ServerDaemon.step .boot serverToResync).isSome = true := by decide
  obtain ⟨u, hu⟩ := Option.isSome_iff_exists.mp hu
  refine ⟨?_, ?_, ?_, ?_⟩
  · rw [ClientDaemon.relations_agree_iff hc]
    unfold ClientDaemon.RelationOk
    decide
  · rw [ClientDaemon.disks_agree_iff hc]
    unfold ClientDaemon.DiskOk
    decide
  · rw [ServerDaemon.disks_agree_iff ht]
    unfold ServerDaemon.DiskOk
    decide
  · rw [ServerDaemon.agree_iff hu]
    decide

end Ebdr
