import Ebdr.Database.States

/-!
# The objects of the client and their rows

The operations of the client that store an object state, with the statements they issue. `none`
means that the daemon dies (an index of `-1`, or a call through an operations table or a connection
pointer that is not set). `ebdrdbc` is empty at the start, so `recovery_mode` is never set.
-/

namespace Ebdr

open Mirror

/-- The client daemon. -/
structure ClientDaemon where
  objects : Objects
  /-- `all_partner_clients[pid].ops` is set. -/
  partnerOps : Nat → Bool
  /-- `all_relation_clients[pid].ops` is set. -/
  relationOps : Nat → Bool
  /-- `replic_client_obj[pid].rep_conn` is set. -/
  repConn : Nat → Bool
  /-- `bitmap_client_obj[pid].ops` is set. -/
  bitmapOps : Nat → Bool
  dtCount : Nat
  /-- `ebdrdbc`. -/
  db : Db

/-- The sizes that the negotiation leaves in `replic_hdr_client_obj[pid]`. -/
structure HeaderSizes where
  bitmapSize : Nat
  grainSize : Nat
  chunkSize : Nat
  deriving DecidableEq, Repr

def HeaderSizes.geometry (z : HeaderSizes) : Geometry := ⟨z.grainSize, z.chunkSize⟩

namespace ClientDaemon

def boot : ClientDaemon where
  objects := .zero
  partnerOps := fun _ => false
  relationOps := fun _ => false
  repConn := fun _ => false
  bitmapOps := fun _ => false
  dtCount := 0
  db := .created

/-- `get_new_partner_client_id`; `none` is `-1`. -/
def getNewPartnerClientId (o : Objects) : Option Nat :=
  firstFrom (fun i => (o.partners i).objState != .inUse && (o.partners i).objState != .released)
    maxPartners 0

/-- The `p` command: `make_partner_with_server`, `make_partner_client`. -/
def makePartner (s : ClientDaemon) (ip : String) (bandwidth : Nat) : Option ClientDaemon :=
  (getNewPartnerClientId s.objects).map fun pid =>
    { s with
      objects := s.objects.setPartner pid ⟨pid, .inUse, ip, bandwidth⟩
      partnerOps := Function.update s.partnerOps pid true
      repConn := Function.update s.repConn pid true
      db := s.db.insertIntoPartner pid .inUse ip bandwidth }

/-- `prepare_for_replication`: the row goes by `dt_count`, the object by `pid`. -/
def prepareForReplication (s : ClientDaemon) (targetDisk : String) (pid : Nat) (opened : Bool) :
    ClientDaemon :=
  let s :=
    if s.dtCount < maxPartners then
      let size := (s.objects.relations s.dtCount).bitmapSize
      { s with
        objects := s.objects.setDisk pid
          { s.objects.disks pid with
            objState := .inUse
            name := targetDisk
            bitmapSize := size }
        db := s.db.insertIntoDisk s.dtCount targetDisk "-" size .inUse }
    else s
  if opened = true then { s with dtCount := s.dtCount + 1 } else s

/-- The `y` command: `make_relation_with_server`. -/
def makeRelation (s : ClientDaemon) (pid role : Nat) (targetDisk : String) (h : HeaderSizes)
    (opened : Bool) : Option ClientDaemon :=
  if s.objects.isPartnerIdValid pid = true then
    if s.repConn pid = true then
      let role := if role = 0 then 0 else 1
      let s := { s with
        objects := s.objects.setRelation pid
          ⟨role, pid, pid, .inUse, targetDisk, h.bitmapSize, h.grainSize, h.chunkSize⟩
        relationOps := Function.update s.relationOps pid true
        db := s.db.insertIntoRelation role pid pid .inUse targetDisk h.bitmapSize h.grainSize
          h.chunkSize }
      some (s.prepareForReplication targetDisk pid opened)
    else none
  else some s

/-- The `m` command: `request_server_for_metadata`. -/
def metadata (s : ClientDaemon) (pid : Nat) : Option ClientDaemon :=
  if s.objects.isPartnerIdValid pid = true then
    if s.repConn pid = true then
      let s := { s with bitmapOps := Function.update s.bitmapOps pid true }
      if (s.objects.partners pid).objState = .released then
        some { s with
          objects :=
            ((s.objects.setPartnerState pid .inUse).setRelationState pid .inUse).setDiskState pid
              .inUse
          db := ((s.db.updateIntoPartner pid .inUse).updateRelationState pid .inUse).updateDiskState
            pid .inUse }
      else some s
    else none
  else some s

/-- A resync thread begins at `bit_pos`. -/
def startResync (s : ClientDaemon) (pid bitPos : Nat) : ClientDaemon :=
  if bitPos = 0 then
    { s with
      objects := s.objects.setReplication pid
        { s.objects.replications pid with repState := .inProgress }
      db := s.db.insertIntoResync pid (s.objects.disks pid).name 0 .inProgress
        "RESYNC_IN_PROGRESS" }
  else s

/-- A resync thread passes a bit; `copied` tells whether it was set. -/
def passBit (s : ClientDaemon) (pid bitPos : Nat) (copied : Bool) : ClientDaemon :=
  { s with
    objects := s.objects.setReplication pid
      { s.objects.replications pid with lastResyncedBit := bitPos }
    db := if copied = true then
        s.db.updateIntoResync pid bitPos (s.objects.replications pid).repState
      else s.db }

/-- The `n` command. -/
def pause (s : ClientDaemon) (pid : Nat) : ClientDaemon :=
  if s.objects.isPartnerIdValid pid = true ∧ (s.objects.replications pid).lastResyncedBit ≠ 0 then
    { s with
      objects := (s.objects.setPartnerState pid .pause).setReplication pid
        { s.objects.replications pid with repState := .pause }
      db := (s.db.updateIntoPartner pid .pause).updateResyncState pid .pause "RESYNC_PAUSE" }
  else s

/-- The `l` command; the thread it starts begins later (`startResync`). -/
def resume (s : ClientDaemon) (pid : Nat) : ClientDaemon :=
  if s.objects.isPartnerIdValid pid = true ∧
      (s.objects.replications pid).repState ≠ .completed then
    { s with
      objects := (s.objects.setPartnerState pid .resume).setReplication pid
        { s.objects.replications pid with repState := .resume }
      db := (s.db.updateIntoPartner pid .resume).updateResyncState pid .resume "RESYNC_RESUME " }
  else s

/-- `replication_terminate`. -/
def replicationTerminate (s : ClientDaemon) (pid : Nat) : Option ClientDaemon :=
  if (s.objects.replications pid).repState ≠ .completed then
    if s.repConn pid = true ∧ s.bitmapOps pid = true then
      let last :=
        if (s.objects.partners pid).objState ≠ .pause then 0
        else (s.objects.replications pid).lastResyncedBit
      some { s with
        objects :=
          (((s.objects.setPartnerState pid .released).setRelationState pid .released).setDiskState
            pid .released).setReplication pid ⟨last, .completed⟩
        db := (s.db.updateIntoPartner pid .released).updateResyncState pid .completed
          "RESYNC_COMPLETED" }
    else none
  else some s

/-- The `k` command. It looks the `pid` up in `all_partner_servers`, which is all zero in the
client: only `0` is found. -/
def removePartner (s : ClientDaemon) (pid : Nat) : Option ClientDaemon :=
  if pid = 0 then
    if s.repConn pid = true ∧ s.partnerOps pid = true then
      let o :=
        if (s.objects.relations pid).partnerId = pid ∧
            (s.objects.relations pid).objState = .inUse then
          s.objects.setRelationState pid .released
        else s.objects
      some { s with
        objects := o.setPartner pid ⟨0, .released, "", 0⟩
        partnerOps := Function.update s.partnerOps pid false }
    else none
  else some s

/-- The `o` command: `remove_relation_in_client`. -/
def removeRelation (s : ClientDaemon) (rid : Nat) : Option ClientDaemon :=
  if s.relationOps rid = true ∧ s.repConn rid = true then
    some { s with objects := s.objects.setRelationState rid .released }
  else none

inductive Op where
  | makePartner (ip : String) (bandwidth : Nat)
  | makeRelation (pid role : Nat) (targetDisk : String) (h : HeaderSizes) (opened : Bool)
  | metadata (pid : Nat)
  | startResync (pid bitPos : Nat)
  | passBit (pid bitPos : Nat) (copied : Bool)
  | pause (pid : Nat)
  | resume (pid : Nat)
  | complete (pid : Nat)
  | removePartner (pid : Nat)
  | removeRelation (rid : Nat)

def step (s : ClientDaemon) : Op → Option ClientDaemon
  | .makePartner ip bandwidth => s.makePartner ip bandwidth
  | .makeRelation pid role targetDisk h opened => s.makeRelation pid role targetDisk h opened
  | .metadata pid => s.metadata pid
  | .startResync pid bitPos => some (s.startResync pid bitPos)
  | .passBit pid bitPos copied => some (s.passBit pid bitPos copied)
  | .pause pid => some (s.pause pid)
  | .resume pid => some (s.resume pid)
  | .complete pid => s.replicationTerminate pid
  | .removePartner pid => s.removePartner pid
  | .removeRelation rid => s.removeRelation rid

/-! ### What an operation does to a kind of object -/

/-- The `metadata` command finds the partner released. -/
def Reused (s : ClientDaemon) (pid : Nat) : Prop :=
  s.objects.isPartnerIdValid pid = true ∧ (s.objects.partners pid).objState = .released

instance (s : ClientDaemon) (pid : Nat) : Decidable (s.Reused pid) :=
  inferInstanceAs (Decidable (_ ∧ _))

def partnerEffect (s : ClientDaemon) : Op → Effect Nat PartnerObjState
  | .makePartner _ _ =>
    match getNewPartnerClientId s.objects with
    | some pid => .storeInsert pid .inUse pid
    | none => .keep
  | .metadata pid => if s.Reused pid then .storeUpdate pid .inUse else .keep
  | .pause pid =>
    if s.objects.isPartnerIdValid pid = true ∧ (s.objects.replications pid).lastResyncedBit ≠ 0 then
      .storeUpdate pid .pause
    else .keep
  | .resume pid =>
    if s.objects.isPartnerIdValid pid = true ∧
        (s.objects.replications pid).repState ≠ .completed then
      .storeUpdate pid .resume
    else .keep
  | .complete pid =>
    if (s.objects.replications pid).repState ≠ .completed then .storeUpdate pid .released else .keep
  | .removePartner pid => if pid = 0 then .store pid .released else .keep
  | .makeRelation .. | .startResync .. | .passBit .. | .removeRelation _ => .keep

def relationEffect (s : ClientDaemon) : Op → Effect Nat RelationObjState
  | .makeRelation pid _ _ _ _ =>
    if s.objects.isPartnerIdValid pid = true then .storeInsert pid .inUse pid else .keep
  | .metadata pid => if s.Reused pid then .storeUpdate pid .inUse else .keep
  | .complete pid =>
    if (s.objects.replications pid).repState ≠ .completed then .store pid .released else .keep
  | .removePartner pid =>
    if pid = 0 ∧ (s.objects.relations pid).partnerId = pid ∧
        (s.objects.relations pid).objState = .inUse then
      .store pid .released
    else .keep
  | .removeRelation rid => .store rid .released
  | .makePartner .. | .startResync .. | .passBit .. | .pause _ | .resume _ => .keep

def diskEffect (s : ClientDaemon) : Op → Effect Nat DiskObjState
  | .makeRelation pid _ _ _ _ =>
    if s.objects.isPartnerIdValid pid = true ∧ s.dtCount < maxPartners then
      .storeInsert pid .inUse s.dtCount
    else .keep
  | .metadata pid => if s.Reused pid then .storeUpdate pid .inUse else .keep
  | .complete pid =>
    if (s.objects.replications pid).repState ≠ .completed then .store pid .released else .keep
  | .makePartner .. | .startResync .. | .passBit .. | .pause _ | .resume _ | .removePartner _
  | .removeRelation _ => .keep

/-- The step of an operation has the operation's effects. -/
abbrev HasEffects (s : ClientDaemon) (op : Op) (s' : ClientDaemon) : Prop :=
  StepEffects (s.partnerEffect op) (s.relationEffect op) (s.diskEffect op) s.objects s.db s'.objects
    s'.db

variable {s s' : ClientDaemon} {pid : Nat}

theorem hasEffects_makePartner {ip : String} {bandwidth : Nat}
    (h : s.makePartner ip bandwidth = some s') : HasEffects s (.makePartner ip bandwidth) s' := by
  obtain ⟨pid, hpid, rfl⟩ := Option.map_eq_some_iff.mp h
  have heff : s.partnerEffect (.makePartner ip bandwidth) = .storeInsert pid .inUse pid := by
    simp only [partnerEffect, hpid]
  refine ⟨?_, ⟨rfl, rfl⟩, ⟨rfl, rfl⟩⟩
  rw [heff]
  exact ⟨Objects.partnerStates_setPartner _, Db.partnerStates_insertIntoPartner ..⟩

theorem prepareForReplication_spec (pid : Nat) (targetDisk : String) (opened : Bool) :
    let e : Effect Nat DiskObjState :=
      if s.dtCount < maxPartners then .storeInsert pid .inUse s.dtCount else .keep
    let s' := s.prepareForReplication targetDisk pid opened
    s'.objects.diskStates = e.memory s.objects.diskStates ∧
      s'.db.diskStates = e.table s.db.diskStates ∧
      s'.objects.partnerStates = s.objects.partnerStates ∧
      s'.objects.relationStates = s.objects.relationStates ∧
      s'.db.partnerStates = s.db.partnerStates ∧ s'.db.relationStates = s.db.relationStates := by
  unfold prepareForReplication
  by_cases hd : s.dtCount < maxPartners
  · simp only [if_pos hd]
    split <;> exact ⟨Objects.diskStates_setDisk _, Db.diskStates_insertIntoDisk .., rfl, rfl, rfl,
      rfl⟩
  · simp only [if_neg hd]
    split <;> exact ⟨rfl, rfl, rfl, rfl, rfl, rfl⟩

theorem hasEffects_makeRelation {role : Nat} {targetDisk : String} {hs : HeaderSizes}
    {opened : Bool} (h : s.makeRelation pid role targetDisk hs opened = some s') :
    HasEffects s (.makeRelation pid role targetDisk hs opened) s' := by
  unfold makeRelation at h
  split at h
  · rename_i hvalid
    split at h
    · rw [← Option.some.inj h]
      obtain ⟨hd, hdb, hp, hr, hpdb, hrdb⟩ := prepareForReplication_spec (s := { s with
        objects := s.objects.setRelation pid ⟨if role = 0 then 0 else 1, pid, pid, .inUse,
          targetDisk, hs.bitmapSize, hs.grainSize, hs.chunkSize⟩
        relationOps := Function.update s.relationOps pid true
        db := s.db.insertIntoRelation (if role = 0 then 0 else 1) pid pid .inUse targetDisk
          hs.bitmapSize hs.grainSize hs.chunkSize }) pid targetDisk opened
      refine ⟨⟨hp, hpdb⟩, ?_, ?_⟩
      · rw [hr, hrdb]
        simp only [relationEffect, if_pos hvalid]
        exact ⟨Objects.relationStates_setRelation _, Db.relationStates_insertIntoRelation ..⟩
      · rw [hd, hdb]
        simp only [diskEffect, hvalid, true_and]
        exact ⟨rfl, rfl⟩
    · cases h
  · rename_i hvalid
    rw [← Option.some.inj h]
    exact .same rfl (if_neg hvalid) (if_neg fun hc => hvalid hc.1) rfl rfl

theorem hasEffects_metadata (h : s.metadata pid = some s') : HasEffects s (.metadata pid) s' := by
  unfold metadata at h
  split at h
  · rename_i hvalid
    split at h
    · dsimp only at h
      split at h
      · rename_i hrel
        have hreused : s.Reused pid := ⟨hvalid, hrel⟩
        rw [← Option.some.inj h]
        refine ⟨?_, ?_, ?_⟩
        · simp only [partnerEffect, if_pos hreused]
          exact ⟨by simp [Effect.memory], Db.partnerStates_updateIntoPartner ..⟩
        · simp only [relationEffect, if_pos hreused]
          exact ⟨by simp [Effect.memory], Db.relationStates_updateRelationState ..⟩
        · simp only [diskEffect, if_pos hreused]
          exact ⟨by simp [Effect.memory], Db.diskStates_updateDiskState ..⟩
      · rename_i hrel
        have hreused : ¬ s.Reused pid := fun hc => hrel hc.2
        rw [← Option.some.inj h]
        exact .same (if_neg hreused) (if_neg hreused) (if_neg hreused) rfl rfl
    · cases h
  · rename_i hvalid
    have hreused : ¬ s.Reused pid := fun hc => hvalid hc.1
    rw [← Option.some.inj h]
    exact .same (if_neg hreused) (if_neg hreused) (if_neg hreused) rfl rfl

theorem hasEffects_startResync (bitPos : Nat) :
    HasEffects s (.startResync pid bitPos) (s.startResync pid bitPos) := by
  unfold startResync
  split <;> exact ⟨⟨rfl, rfl⟩, ⟨rfl, rfl⟩, ⟨rfl, rfl⟩⟩

theorem hasEffects_passBit (bitPos : Nat) (copied : Bool) :
    HasEffects s (.passBit pid bitPos copied) (s.passBit pid bitPos copied) := by
  cases copied <;> exact ⟨⟨rfl, rfl⟩, ⟨rfl, rfl⟩, ⟨rfl, rfl⟩⟩

theorem hasEffects_pause : HasEffects s (.pause pid) (s.pause pid) := by
  unfold pause
  split
  · rename_i hc
    refine ⟨?_, ⟨rfl, rfl⟩, ⟨rfl, rfl⟩⟩
    simp only [partnerEffect, if_pos hc]
    exact ⟨Objects.partnerStates_setPartnerState _, Db.partnerStates_updateIntoPartner ..⟩
  · rename_i hc
    exact .same (if_neg hc) rfl rfl rfl rfl

theorem hasEffects_resume : HasEffects s (.resume pid) (s.resume pid) := by
  unfold resume
  split
  · rename_i hc
    refine ⟨?_, ⟨rfl, rfl⟩, ⟨rfl, rfl⟩⟩
    simp only [partnerEffect, if_pos hc]
    exact ⟨Objects.partnerStates_setPartnerState _, Db.partnerStates_updateIntoPartner ..⟩
  · rename_i hc
    exact .same (if_neg hc) rfl rfl rfl rfl

theorem hasEffects_complete (h : s.replicationTerminate pid = some s') :
    HasEffects s (.complete pid) s' := by
  unfold replicationTerminate at h
  split at h
  · rename_i hc
    split at h
    · rw [← Option.some.inj h]
      refine ⟨?_, ?_, ?_⟩
      · simp only [partnerEffect, if_pos hc]
        exact ⟨by simp [Effect.memory], Db.partnerStates_updateIntoPartner ..⟩
      · simp only [relationEffect, if_pos hc]
        exact ⟨by simp [Effect.memory], rfl⟩
      · simp only [diskEffect, if_pos hc]
        exact ⟨by simp [Effect.memory], rfl⟩
    · cases h
  · rename_i hc
    rw [← Option.some.inj h]
    exact .same (if_neg hc) (if_neg hc) (if_neg hc) rfl rfl

theorem hasEffects_removePartner (h : s.removePartner pid = some s') :
    HasEffects s (.removePartner pid) s' := by
  unfold removePartner at h
  split at h
  · rename_i hpid
    split at h
    · rw [← Option.some.inj h]
      refine ⟨?_, ?_, ?_⟩
      · simp only [partnerEffect, if_pos hpid]
        refine ⟨?_, rfl⟩
        split <;> exact Objects.partnerStates_setPartner _
      · simp only [relationEffect, hpid, true_and]
        split
        · exact ⟨Objects.relationStates_setRelationState _, rfl⟩
        · exact ⟨rfl, rfl⟩
      · refine ⟨?_, rfl⟩
        split <;> rfl
    · cases h
  · rename_i hpid
    rw [← Option.some.inj h]
    exact .same (if_neg hpid) (if_neg fun hc => hpid hc.1) rfl rfl rfl

theorem hasEffects_removeRelation {rid : Nat} (h : s.removeRelation rid = some s') :
    HasEffects s (.removeRelation rid) s' := by
  unfold removeRelation at h
  split at h
  · rw [← Option.some.inj h]
    exact ⟨⟨rfl, rfl⟩, ⟨Objects.relationStates_setRelationState _, rfl⟩, ⟨rfl, rfl⟩⟩
  · cases h

theorem hasEffects {op : Op} (h : s.step op = some s') : HasEffects s op s' := by
  cases op with
  | makePartner ip bandwidth => exact hasEffects_makePartner h
  | makeRelation pid role targetDisk hs opened => exact hasEffects_makeRelation h
  | metadata pid => exact hasEffects_metadata h
  | startResync pid bitPos =>
    rw [← Option.some.inj h]
    exact hasEffects_startResync bitPos
  | passBit pid bitPos copied =>
    rw [← Option.some.inj h]
    exact hasEffects_passBit bitPos copied
  | pause pid =>
    rw [← Option.some.inj h]
    exact hasEffects_pause
  | resume pid =>
    rw [← Option.some.inj h]
    exact hasEffects_resume
  | complete pid => exact hasEffects_complete h
  | removePartner pid => exact hasEffects_removePartner h
  | removeRelation rid => exact hasEffects_removeRelation h

theorem partnerEffect_notFree (s : ClientDaemon) (op : Op) : (s.partnerEffect op).NotFree .free := by
  cases op with
  | makePartner ip bandwidth =>
    unfold partnerEffect
    cases getNewPartnerClientId s.objects with
    | none => trivial
    | some pid => exact PartnerObjState.noConfusion
  | metadata pid | pause pid | resume pid | complete pid | removePartner pid =>
    exact .ite PartnerObjState.noConfusion trivial
  | makeRelation | startResync | passBit | removeRelation => trivial

theorem relationEffect_notFree (s : ClientDaemon) (op : Op) :
    (s.relationEffect op).NotFree .free := by
  cases op with
  | makeRelation | metadata | complete | removePartner =>
    exact .ite RelationObjState.noConfusion trivial
  | removeRelation rid => exact RelationObjState.noConfusion
  | makePartner | startResync | passBit | pause | resume => trivial

theorem diskEffect_notFree (s : ClientDaemon) (op : Op) : (s.diskEffect op).NotFree .free := by
  cases op with
  | makeRelation | metadata | complete => exact .ite DiskObjState.noConfusion trivial
  | makePartner | startResync | passBit | pause | resume | removePartner | removeRelation => trivial

/-! ### Agreement -/

def PartnersAgree (s : ClientDaemon) : Prop :=
  Mirrors .free s.objects.partnerStates s.db.partnerStates

def RelationsAgree (s : ClientDaemon) : Prop :=
  Mirrors .free s.objects.relationStates s.db.relationStates

def DisksAgree (s : ClientDaemon) : Prop := Mirrors .free s.objects.diskStates s.db.diskStates

/-- Memory and tables agree on the states of all objects. -/
def Agree (s : ClientDaemon) : Prop := s.PartnersAgree ∧ s.RelationsAgree ∧ s.DisksAgree

def PartnerOk (s : ClientDaemon) (op : Op) : Prop :=
  (s.partnerEffect op).Ok .free s.objects.partnerStates

def RelationOk (s : ClientDaemon) (op : Op) : Prop :=
  (s.relationEffect op).Ok .free s.objects.relationStates

def DiskOk (s : ClientDaemon) (op : Op) : Prop := (s.diskEffect op).Ok .free s.objects.diskStates

/-- The operation keeps the agreement. -/
def Ok (s : ClientDaemon) (op : Op) : Prop := s.PartnerOk op ∧ s.RelationOk op ∧ s.DiskOk op

instance (s : ClientDaemon) (op : Op) : Decidable (s.Ok op) := by
  unfold Ok PartnerOk RelationOk DiskOk
  infer_instance

variable {ops : List Op}

theorem partners_agree_iff (hr : Lts.run step boot ops = some s) :
    Lts.Always step PartnersAgree boot ops ↔ Lts.Meets step PartnerOk boot ops :=
  always_mirrors_iff (fun _ _ _ h => (hasEffects h).partners) (fun s op _ => partnerEffect_notFree s op) mirrors_nil
    noneFree_nil hr

theorem relations_agree_iff (hr : Lts.run step boot ops = some s) :
    Lts.Always step RelationsAgree boot ops ↔ Lts.Meets step RelationOk boot ops :=
  always_mirrors_iff (fun _ _ _ h => (hasEffects h).relations) (fun s op _ => relationEffect_notFree s op) mirrors_nil
    noneFree_nil hr

theorem disks_agree_iff (hr : Lts.run step boot ops = some s) :
    Lts.Always step DisksAgree boot ops ↔ Lts.Meets step DiskOk boot ops :=
  always_mirrors_iff (fun _ _ _ h => (hasEffects h).disks) (fun s op _ => diskEffect_notFree s op) mirrors_nil
    noneFree_nil hr

theorem agree_iff (hr : Lts.run step boot ops = some s) :
    Lts.Always step Agree boot ops ↔ Lts.Meets step Ok boot ops := by
  have hp := partners_agree_iff hr
  have hrel := relations_agree_iff hr
  have hd := disks_agree_iff hr
  unfold Agree Ok
  rw [Lts.always_and, Lts.always_and, Lts.meets_and, Lts.meets_and, hp, hrel, hd]

end ClientDaemon

end Ebdr
