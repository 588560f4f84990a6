import Ebdr.Daemon.Objects
import Mathlib.Data.List.Basic
import Mathlib.Logic.Function.Basic

/-!
# The database of the daemon

The tables `partner`, `relation`, `disk` and `resync` of `ebdrdbs` (server) and `ebdrdbc` (client),
the statements the daemon issues on them, and the functions that read them back into the objects in
memory. A `SELECT` returns the rows it matches in insertion order; the names and addresses in the
rows are single words, so `sscanf` with `%s` reads them back whole.
-/

namespace Ebdr

/-! ### Objects in memory, with the fields the tables keep -/

/-- `partner_t`. -/
structure Partner where
  id : Nat
  objState : PartnerObjState
  ip : String
  bandwidth : Nat
  deriving DecidableEq, Repr

/-- `relation_t`. -/
structure Relation where
  role : Nat
  partnerId : Nat
  relationId : Nat
  objState : RelationObjState
  device : String
  bitmapSize : Nat
  grainSize : Nat
  chunkSize : Nat
  deriving DecidableEq, Repr

/-- `struct ebdr_disk`. -/
structure Disk where
  name : String
  snapName : String
  bitmapSize : Nat
  objState : DiskObjState
  deriving DecidableEq, Repr

/-- `struct ebdr_replication`. -/
structure Replication where
  lastResyncedBit : Nat
  repState : RepState
  deriving DecidableEq, Repr

/-- The object arrays of one build (`all_partner_servers`, … or `all_partner_clients`, …). -/
structure Objects where
  partners : Nat → Partner
  relations : Nat → Relation
  disks : Nat → Disk
  replications : Nat → Replication

/-! ### Rows -/

structure PartnerRow where
  pid : Nat
  state : PartnerObjState
  ip : String
  bandwidth : Nat
  deriving DecidableEq, Repr

structure RelationRow where
  role : Nat
  pid : Nat
  rid : Nat
  state : RelationObjState
  disk : String
  bitmapSize : Nat
  grainSize : Nat
  chunkSize : Nat
  deriving DecidableEq, Repr

structure DiskRow where
  pid : Nat
  name : String
  snapName : String
  bitmapSize : Nat
  state : DiskObjState
  deriving DecidableEq, Repr

structure ResyncRow where
  pid : Nat
  targetDisk : String
  lastResyncedBit : Nat
  state : RepState
  status : String
  deriving DecidableEq, Repr

structure Db where
  partner : List PartnerRow
  relation : List RelationRow
  disk : List DiskRow
  resync : List ResyncRow
  deriving DecidableEq, Repr

namespace Db

/-- The tables as `CREATE TABLE` makes them. -/
def created : Db := ⟨[], [], [], []⟩

/-! ### Statements -/

/-- `UPDATE … SET … WHERE …`. -/
def updateWhere {ρ : Type*} (cond : ρ → Bool) (set : ρ → ρ) (rows : List ρ) : List ρ :=
  rows.map fun row => if cond row = true then set row else row

def insertIntoPartner (db : Db) (pid : Nat) (state : PartnerObjState) (ip : String)
    (bandwidth : Nat) : Db :=
  { db with partner := db.partner ++ [⟨pid, state, ip, bandwidth⟩] }

def updateIntoPartner (db : Db) (pid : Nat) (objState : PartnerObjState) : Db :=
  { db with
    partner := updateWhere (fun r => r.pid == pid) (fun r => { r with state := objState })
      db.partner }

def insertIntoRelation (db : Db) (role pid rid : Nat) (state : RelationObjState) (disk : String)
    (bitmapSize grainSize chunkSize : Nat) : Db :=
  { db with
    relation := db.relation ++ [⟨role, pid, rid, state, disk, bitmapSize, grainSize, chunkSize⟩] }

def updateRelationState (db : Db) (pid : Nat) (state : RelationObjState) : Db :=
  { db with
    relation := updateWhere (fun r => r.pid == pid) (fun r => { r with state := state })
      db.relation }

def insertIntoDisk (db : Db) (pid : Nat) (name snapName : String) (bitmapSize : Nat)
    (state : DiskObjState) : Db :=
  { db with disk := db.disk ++ [⟨pid, name, snapName, bitmapSize, state⟩] }

/-- Unlike the other updates this one goes by the name and sets the `pid`. -/
def updateIntoDisk (db : Db) (pid : Nat) (name snapName : String) : Db :=
  { db with
    disk := updateWhere (fun r => r.name == name)
      (fun r => { r with
        pid := pid
        snapName := snapName }) db.disk }

def updateDiskState (db : Db) (pid : Nat) (state : DiskObjState) : Db :=
  { db with
    disk := updateWhere (fun r => r.pid == pid) (fun r => { r with state := state }) db.disk }

def insertIntoResync (db : Db) (pid : Nat) (targetDisk : String) (lastResyncedBit : Nat)
    (state : RepState) (status : String) : Db :=
  { db with resync := db.resync ++ [⟨pid, targetDisk, lastResyncedBit, state, status⟩] }

def updateIntoResync (db : Db) (pid : Nat) (lastResyncedBit : Nat) (state : RepState) : Db :=
  { db with
    resync := updateWhere (fun r => r.pid == pid && r.state == state)
      (fun r => { r with lastResyncedBit := lastResyncedBit }) db.resync }

def updateResyncState (db : Db) (pid : Nat) (state : RepState) (status : String) : Db :=
  { db with
    resync := updateWhere (fun r => r.pid == pid)
      (fun r => { r with
        state := state
        status := status }) db.resync }

/-! ### Live rows, as the `SELECT`s filter them -/

def livePartners (db : Db) : List PartnerRow := db.partner.filter fun r => r.state ≠ .released

def liveRelations (db : Db) : List RelationRow := db.relation.filter fun r => r.state ≠ .released

def liveDisks (db : Db) : List DiskRow := db.disk.filter fun r => r.state ≠ .released

def liveResyncs (db : Db) : List ResyncRow := db.resync.filter fun r => r.state ≠ .completed

end Db

/-! ### Reading back -/

section Fetch

variable {σ ρ : Type*} (store : σ → ρ → σ)

/-- `while(row = mysql_fetch_row(res)) { …; i++; }`, where the body stores into `obj[i]`. -/
def fetchRows : Nat → List ρ → (Nat → σ) → Nat → σ
  | _, [], obj => obj
  | i, row :: rows, obj => fetchRows (i + 1) rows (Function.update obj i (store (obj i) row))

/-- The row that the loop stores into each slot, if any. -/
def fetched (rows : List ρ) : Nat → Option ρ :=
  fetchRows (fun _ row => some row) 0 rows fun _ => none

theorem fetchRows_apply (rows : List ρ) (i : Nat) (obj : Nat → σ) (q : Nat) :
    fetchRows store i rows obj q =
      if q < i then obj q else ((rows[q - i]?).map (store (obj q))).getD (obj q) := by
  induction rows generalizing i obj with
  | nil => simp [fetchRows]
  | cons row rows ih =>
    rw [fetchRows, ih]
    rcases Nat.lt_trichotomy q i with h | rfl | h
    · rw [if_pos (by omega), if_pos h, Function.update_of_ne (by omega)]
    · rw [if_pos (by omega), if_neg (by omega), Function.update_self]
      simp
    · rw [if_neg (by omega), if_neg (by omega), Function.update_of_ne (by omega)]
      have hq : q - i = (q - (i + 1)) + 1 := by omega
      rw [hq, List.getElem?_cons_succ]

theorem fetched_eq (rows : List ρ) (q : Nat) : fetched rows q = rows[q]? := by
  rw [fetched, fetchRows_apply, if_neg (Nat.not_lt_zero q), Nat.sub_zero]
  cases rows[q]? <;> rfl

/-- What a slot holds afterwards depends only on the row stored into it. -/
theorem fetchRows_zero (rows : List ρ) (obj : Nat → σ) (q : Nat) :
    fetchRows store 0 rows obj q = ((fetched rows q).map (store (obj q))).getD (obj q) := by
  rw [fetchRows_apply, if_neg (Nat.not_lt_zero q), Nat.sub_zero, fetched_eq]

end Fetch

/-- `sscanf` of a row of `partner`. -/
def Partner.scan (_ : Partner) (row : PartnerRow) : Partner :=
  ⟨row.pid, row.state, row.ip, row.bandwidth⟩

/-- `sscanf` of a row of `relation`. -/
def Relation.scan (_ : Relation) (row : RelationRow) : Relation :=
  ⟨row.role, row.pid, row.rid, row.state, row.disk, row.bitmapSize, row.grainSize, row.chunkSize⟩

/-- `sscanf` of a row of `disk`; its `pid` is not read. -/
def Disk.scan (_ : Disk) (row : DiskRow) : Disk :=
  ⟨row.name, row.snapName, row.bitmapSize, row.state⟩

/-- `sscanf` of a row of `resync`, the disk's part. -/
def Disk.scanTarget (d : Disk) (row : ResyncRow) : Disk := { d with name := row.targetDisk }

/-- `sscanf` of a row of `resync`; its `pid` is not read. -/
def Replication.scan (_ : Replication) (row : ResyncRow) : Replication :=
  ⟨row.lastResyncedBit, row.state⟩

namespace Objects

def retrieveFromPartner (db : Db) (o : Objects) : Objects :=
  { o with partners := fetchRows Partner.scan 0 db.livePartners o.partners }

def retrieveFromRelation (db : Db) (o : Objects) : Objects :=
  { o with relations := fetchRows Relation.scan 0 db.liveRelations o.relations }

def retrieveFromDisk (db : Db) (o : Objects) : Objects :=
  { o with disks := fetchRows Disk.scan 0 db.liveDisks o.disks }

def retrieveFromResync (db : Db) (o : Objects) : Objects :=
  { o with
    disks := fetchRows Disk.scanTarget 0 db.liveResyncs o.disks
    replications := fetchRows Replication.scan 0 db.liveResyncs o.replications }

/-- The restoring part of `db_init` in the server. -/
def dbInitServer (db : Db) (o : Objects) : Objects :=
  retrieveFromDisk db (retrieveFromRelation db (retrieveFromPartner db o))

/-- The restoring part of `db_init` in the client. -/
def dbInitClient (db : Db) (o : Objects) : Objects :=
  retrieveFromResync db (retrieveFromDisk db (retrieveFromRelation db (retrieveFromPartner db o)))

/-- Static storage before `db_init`. -/
def zero : Objects where
  partners := fun _ => ⟨0, .free, "", 0⟩
  relations := fun _ => ⟨0, 0, 0, .free, "", 0, 0, 0⟩
  disks := fun _ => ⟨"", "", 0, .free⟩
  replications := fun _ => ⟨0, .inProgress⟩

end Objects

end Ebdr
