import Ebdr.Database.Tables
import Ebdr.Lib.Mirror

/-!
# Object states in memory and in the tables

The `obj_state`s of the partners, relations and disks, as the memory holds them and as the rows of
the tables hold them, and what storing an object and issuing a statement do to them.
-/

namespace Ebdr

open Mirror

/-- `for(i = 0; i < n; i++) if(p(i)) return i;` from `i` on, with `n` passes left. -/
def firstFrom (p : Nat → Bool) : Nat → Nat → Option Nat
  | 0, _ => none
  | n + 1, i => if p i = true then some i else firstFrom p n (i + 1)

theorem firstFrom_isSome {p : Nat → Bool} {n i k : Nat} (hi : i ≤ k) (hk : k < i + n)
    (hp : p k = true) : (firstFrom p n i).isSome = true := by
  induction n generalizing i with
  | zero => omega
  | succ n ih =>
    unfold firstFrom
    split
    · rfl
    · rename_i hpi
      have hne : i ≠ k := fun heq => hpi (heq ▸ hp)
      exact ih (by omega) (by omega)

theorem firstFrom_eq_some_iff {p : Nat → Bool} {n i k : Nat} :
    firstFrom p n i = some k ↔
      i ≤ k ∧ k < i + n ∧ p k = true ∧ ∀ j, i ≤ j → j < k → p j = false := by
  induction n generalizing i with
  | zero =>
    constructor
    · intro h
      exact absurd h (by simp [firstFrom])
    · rintro ⟨hle, hlt, -⟩
      omega
  | succ n ih =>
    unfold firstFrom
    split
    · rename_i hi
      rw [Option.some_inj]
      constructor
      · rintro rfl
        exact ⟨Nat.le_refl i, by omega, hi, fun j h1 h2 => absurd h1 (by omega)⟩
      · rintro ⟨hle, -, -, hfirst⟩
        by_contra hne
        have hfalse := hfirst i (Nat.le_refl i) (by omega)
        rw [hi] at hfalse
        exact Bool.noConfusion hfalse
    · rename_i hi
      rw [ih]
      constructor
      · rintro ⟨hle, hlt, hk, hfirst⟩
        refine ⟨by omega, by omega, hk, ?_⟩
        intro j h1 h2
        by_cases hj : j = i
        · rw [hj]
          simpa using hi
        · exact hfirst j (by omega) h2
      · rintro ⟨hle, hlt, hk, hfirst⟩
        have hne : i ≠ k := fun heq => hi (heq ▸ hk)
        exact ⟨by omega, by omega, hk, fun j h1 h2 => hfirst j (by omega) h2⟩

theorem firstFrom_isSome_iff {p : Nat → Bool} {n i : Nat} :
    (firstFrom p n i).isSome = true ↔ ∃ k, i ≤ k ∧ k < i + n ∧ p k = true := by
  constructor
  · intro h
    obtain ⟨k, hk⟩ := Option.isSome_iff_exists.mp h
    obtain ⟨hle, hlt, hp, -⟩ := firstFrom_eq_some_iff.mp hk
    exact ⟨k, hle, hlt, hp⟩
  · rintro ⟨k, hle, hlt, hp⟩
    exact firstFrom_isSome hle hlt hp

namespace Objects

variable (o : Objects) (pid : Nat)

def setPartner (x : Partner) : Objects := { o with partners := Function.update o.partners pid x }

def setRelation (x : Relation) : Objects := { o with relations := Function.update o.relations pid x }

def setDisk (x : Disk) : Objects := { o with disks := Function.update o.disks pid x }

def setReplication (x : Replication) : Objects :=
  { o with replications := Function.update o.replications pid x }

def setPartnerState (st : PartnerObjState) : Objects :=
  o.setPartner pid { o.partners pid with objState := st }

def setRelationState (st : RelationObjState) : Objects :=
  o.setRelation pid { o.relations pid with objState := st }

def setDiskState (st : DiskObjState) : Objects := o.setDisk pid { o.disks pid with objState := st }

def partnerStates : Nat → PartnerObjState := Partner.objState ∘ o.partners

def relationStates : Nat → RelationObjState := Relation.objState ∘ o.relations

def diskStates : Nat → DiskObjState := Disk.objState ∘ o.disks

/-- `is_client_partner_id_valid` and `is_server_partner_id_valid`: some slot has this `id`. -/
def isPartnerIdValid : Bool :=
  (firstFrom (fun i => (o.partners i).id == pid) maxPartners 0).isSome

variable {o pid}

theorem isPartnerIdValid_setPartner {x : Partner} (hpid : pid < maxPartners) (hx : x.id = pid) :
    (o.setPartner pid x).isPartnerIdValid pid = true := by
  apply firstFrom_isSome (Nat.zero_le pid) (by omega)
  simp [setPartner, hx]

@[simp] theorem partnerStates_setPartner (x : Partner) :
    (o.setPartner pid x).partnerStates = Function.update o.partnerStates pid x.objState :=
  Function.comp_update ..

@[simp] theorem relationStates_setRelation (x : Relation) :
    (o.setRelation pid x).relationStates = Function.update o.relationStates pid x.objState :=
  Function.comp_update ..

@[simp] theorem diskStates_setDisk (x : Disk) :
    (o.setDisk pid x).diskStates = Function.update o.diskStates pid x.objState :=
  Function.comp_update ..

@[simp] theorem partnerStates_setPartnerState (st : PartnerObjState) :
    (o.setPartnerState pid st).partnerStates = Function.update o.partnerStates pid st :=
  partnerStates_setPartner _

@[simp] theorem relationStates_setRelationState (st : RelationObjState) :
    (o.setRelationState pid st).relationStates = Function.update o.relationStates pid st :=
  relationStates_setRelation _

@[simp] theorem diskStates_setDiskState (st : DiskObjState) :
    (o.setDiskState pid st).diskStates = Function.update o.diskStates pid st :=
  diskStates_setDisk _

@[simp] theorem partnerStates_setRelation (x : Relation) :
    (o.setRelation pid x).partnerStates = o.partnerStates := rfl

@[simp] theorem partnerStates_setDisk (x : Disk) :
    (o.setDisk pid x).partnerStates = o.partnerStates := rfl

@[simp] theorem partnerStates_setReplication (x : Replication) :
    (o.setReplication pid x).partnerStates = o.partnerStates := rfl

@[simp] theorem partnerStates_setRelationState (st : RelationObjState) :
    (o.setRelationState pid st).partnerStates = o.partnerStates := rfl

@[simp] theorem partnerStates_setDiskState (st : DiskObjState) :
    (o.setDiskState pid st).partnerStates = o.partnerStates := rfl

@[simp] theorem relationStates_setPartner (x : Partner) :
    (o.setPartner pid x).relationStates = o.relationStates := rfl

@[simp] theorem relationStates_setDisk (x : Disk) :
    (o.setDisk pid x).relationStates = o.relationStates := rfl

@[simp] theorem relationStates_setReplication (x : Replication) :
    (o.setReplication pid x).relationStates = o.relationStates := rfl

@[simp] theorem relationStates_setPartnerState (st : PartnerObjState) :
    (o.setPartnerState pid st).relationStates = o.relationStates := rfl

@[simp] theorem relationStates_setDiskState (st : DiskObjState) :
    (o.setDiskState pid st).relationStates = o.relationStates := rfl

@[simp] theorem diskStates_setPartner (x : Partner) :
    (o.setPartner pid x).diskStates = o.diskStates := rfl

@[simp] theorem diskStates_setRelation (x : Relation) :
    (o.setRelation pid x).diskStates = o.diskStates := rfl

@[simp] theorem diskStates_setReplication (x : Replication) :
    (o.setReplication pid x).diskStates = o.diskStates := rfl

@[simp] theorem diskStates_setPartnerState (st : PartnerObjState) :
    (o.setPartnerState pid st).diskStates = o.diskStates := rfl

@[simp] theorem diskStates_setRelationState (st : RelationObjState) :
    (o.setRelationState pid st).diskStates = o.diskStates := rfl

end Objects

namespace Db

variable (db : Db)

def partnerStates : List (Nat × PartnerObjState) := db.partner.map fun r => (r.pid, r.state)

def relationStates : List (Nat × RelationObjState) := db.relation.map fun r => (r.pid, r.state)

def diskStates : List (Nat × DiskObjState) := db.disk.map fun r => (r.pid, r.state)

theorem map_updateWhere {ρ σ : Type*} (key : ρ → Nat) (state : ρ → σ) (put : ρ → ρ) (pid : Nat)
    {st : σ} (hkey : ∀ r, key (put r) = key r) (hput : ∀ r, state (put r) = st) (rows : List ρ) :
    (updateWhere (fun r => key r == pid) put rows).map (fun r => (key r, state r)) =
      setRows pid st (rows.map fun r => (key r, state r)) := by
  unfold updateWhere setRows
  rw [List.map_map, List.map_map]
  apply List.map_congr_left
  intro r _
  dsimp only [Function.comp]
  by_cases h : key r = pid
  · rw [if_pos h, if_pos (beq_iff_eq.mpr h), hkey, hput, h]
  · rw [if_neg h, if_neg (by simpa using h)]

@[simp] theorem partnerStates_insertIntoPartner (pid : Nat) (st : PartnerObjState) (ip : String)
    (bandwidth : Nat) :
    (db.insertIntoPartner pid st ip bandwidth).partnerStates = db.partnerStates ++ [(pid, st)] :=
  List.map_append ..

@[simp] theorem relationStates_insertIntoRelation (role pid rid : Nat) (st : RelationObjState)
    (disk : String) (bitmapSize grainSize chunkSize : Nat) :
    (db.insertIntoRelation role pid rid st disk bitmapSize grainSize chunkSize).relationStates =
      db.relationStates ++ [(pid, st)] :=
  List.map_append ..

@[simp] theorem diskStates_insertIntoDisk (pid : Nat) (name snapName : String) (bitmapSize : Nat)
    (st : DiskObjState) :
    (db.insertIntoDisk pid name snapName bitmapSize st).diskStates = db.diskStates ++ [(pid, st)] :=
  List.map_append ..

@[simp] theorem partnerStates_updateIntoPartner (pid : Nat) (st : PartnerObjState) :
    (db.updateIntoPartner pid st).partnerStates = setRows pid st db.partnerStates :=
  map_updateWhere PartnerRow.pid PartnerRow.state (fun r => { r with state := st }) pid (fun _ => rfl)
    (fun _ => rfl) db.partner

@[simp] theorem relationStates_updateRelationState (pid : Nat) (st : RelationObjState) :
    (db.updateRelationState pid st).relationStates = setRows pid st db.relationStates :=
  map_updateWhere RelationRow.pid RelationRow.state (fun r => { r with state := st }) pid (fun _ => rfl)
    (fun _ => rfl) db.relation

@[simp] theorem diskStates_updateDiskState (pid : Nat) (st : DiskObjState) :
    (db.updateDiskState pid st).diskStates = setRows pid st db.diskStates :=
  map_updateWhere DiskRow.pid DiskRow.state (fun r => { r with state := st }) pid (fun _ => rfl)
    (fun _ => rfl) db.disk

end Db
/-! ### Steps -/

/-- The states and the rows after a step, in terms of its effects on the partners, the relations and
the disks. -/
structure StepEffects (ep : Effect Nat PartnerObjState) (er : Effect Nat RelationObjState)
    (ed : Effect Nat DiskObjState) (o : Objects) (db : Db) (o' : Objects) (db' : Db) : Prop where
  partners : o'.partnerStates = ep.memory o.partnerStates ∧
    db'.partnerStates = ep.table db.partnerStates
  relations : o'.relationStates = er.memory o.relationStates ∧
    db'.relationStates = er.table db.relationStates
  disks : o'.diskStates = ed.memory o.diskStates ∧ db'.diskStates = ed.table db.diskStates

theorem StepEffects.same {ep : Effect Nat PartnerObjState} {er : Effect Nat RelationObjState}
    {ed : Effect Nat DiskObjState} {o o' : Objects} {db db' : Db} (hp : ep = .keep) (hr : er = .keep)
    (hd : ed = .keep) (ho : o' = o) (hdb : db' = db) : StepEffects ep er ed o db o' db' := by
  subst hp hr hd ho hdb
  exact ⟨⟨rfl, rfl⟩, ⟨rfl, rfl⟩, ⟨rfl, rfl⟩⟩

end Ebdr
