import Ebdr.Database.Tables
import Mathlib.Data.List.Range
import Mathlib.Tactic.Common

/-!
# Restoring the objects from the tables

The functions that read the tables back store the rows by their position in the result, while
everything else in the daemon goes by `pid`. The two agree exactly when the live rows of each table
carry the `pid`s `0, 1, 2, …` in insertion order (`Numbered`); in the client, where
`retrieve_from_resync` stores the target name over the one of `retrieve_from_disk`, the two rows of
a partner have to name the same disk as well.
-/

namespace Ebdr

/-! ### Contents of the tables -/

/-- One call of a function of `atdr_db.c` that changes a table. -/
inductive Statement where
  | insertIntoPartner (pid : Nat) (state : PartnerObjState) (ip : String) (bandwidth : Nat)
  | updateIntoPartner (pid : Nat) (objState : PartnerObjState)
  | insertIntoRelation (role pid rid : Nat) (state : RelationObjState) (disk : String)
      (bitmapSize grainSize chunkSize : Nat)
  | updateRelationState (pid : Nat) (state : RelationObjState)
  | insertIntoDisk (pid : Nat) (name snapName : String) (bitmapSize : Nat) (state : DiskObjState)
  | updateIntoDisk (pid : Nat) (name snapName : String)
  | updateDiskState (pid : Nat) (state : DiskObjState)
  | insertIntoResync (pid : Nat) (targetDisk : String) (lastResyncedBit : Nat) (state : RepState)
      (status : String)
  | updateIntoResync (pid lastResyncedBit : Nat) (state : RepState)
  | updateResyncState (pid : Nat) (state : RepState) (status : String)

namespace Db

def exec (db : Db) : Statement → Db
  | .insertIntoPartner pid state ip bandwidth => db.insertIntoPartner pid state ip bandwidth
  | .updateIntoPartner pid objState => db.updateIntoPartner pid objState
  | .insertIntoRelation role pid rid state disk bitmapSize grainSize chunkSize =>
    db.insertIntoRelation role pid rid state disk bitmapSize grainSize chunkSize
  | .updateRelationState pid state => db.updateRelationState pid state
  | .insertIntoDisk pid name snapName bitmapSize state =>
    db.insertIntoDisk pid name snapName bitmapSize state
  | .updateIntoDisk pid name snapName => db.updateIntoDisk pid name snapName
  | .updateDiskState pid state => db.updateDiskState pid state
  | .insertIntoResync pid targetDisk lastResyncedBit state status =>
    db.insertIntoResync pid targetDisk lastResyncedBit state status
  | .updateIntoResync pid lastResyncedBit state => db.updateIntoResync pid lastResyncedBit state
  | .updateResyncState pid state status => db.updateResyncState pid state status

/-- The tables after the daemon has issued these statements. -/
def after (stmts : List Statement) : Db := stmts.foldl exec created

end Db

/-! ### One table -/

section Table

variable {σ ρ : Type*} {pid : ρ → Nat} {Holds : σ → ρ → Prop} {rows : List ρ} {obj : Nat → σ}

/-- Every row is in the slot of its `pid`, and no slot was overwritten with another's row. -/
structure InPlace (pid : ρ → Nat) (Holds : σ → ρ → Prop) (rows : List ρ) (obj : Nat → σ) : Prop where
  held : ∀ row ∈ rows, Holds (obj (pid row)) row
  own : ∀ q row, fetched rows q = some row → pid row = q

/-- The rows carry the `pid`s `0, 1, 2, …` in insertion order. -/
def Numbered (pid : ρ → Nat) (rows : List ρ) : Prop := rows.map pid = List.range rows.length

instance : Decidable (Numbered pid rows) := inferInstanceAs (Decidable (_ = _))

theorem numbered_iff :
    Numbered pid rows ↔ ∀ q row, fetched rows q = some row → pid row = q := by
  simp only [fetched_eq]
  constructor
  · intro h q row hrow
    have hmap : (rows.map pid)[q]? = some (pid row) := by rw [List.getElem?_map, hrow]; rfl
    rw [h] at hmap
    obtain ⟨hlt, hq⟩ := List.getElem?_eq_some_iff.mp hmap
    rw [List.getElem_range] at hq
    exact hq.symm
  · intro h
    apply List.ext_getElem
    · simp
    · intro q hq _
      rw [List.getElem_map, List.getElem_range]
      rw [List.length_map] at hq
      exact h q _ (List.getElem?_eq_getElem hq)

theorem mem_of_fetched {q : Nat} {row : ρ} (h : fetched rows q = some row) : row ∈ rows := by
  rw [fetched_eq] at h
  exact List.mem_of_getElem? h

theorem Numbered.fetched (h : Numbered pid rows) {row : ρ} (hrow : row ∈ rows) :
    fetched rows (pid row) = some row := by
  obtain ⟨q, hq⟩ := List.getElem?_of_mem hrow
  have hf : Ebdr.fetched rows q = some row := by rw [fetched_eq, hq]
  rw [numbered_iff.mp h q row hf]
  exact hf

/-- For a table whose rows alone decide what its slots hold, being numbered is exact. -/
theorem inPlace_iff {store : σ → ρ → σ} {obj : Nat → σ}
    (hstore : ∀ s row, Holds (store s row) row) :
    InPlace pid Holds rows (fetchRows store 0 rows obj) ↔ Numbered pid rows := by
  constructor
  · intro h
    exact numbered_iff.mpr h.own
  · intro h
    refine ⟨fun row hrow => ?_, numbered_iff.mp h⟩
    rw [fetchRows_zero, h.fetched hrow]
    exact hstore _ row

end Table

/-! ### What a slot holds -/

def Partner.Holds (s : Partner) (row : PartnerRow) : Prop :=
  s.id = row.pid ∧ s.objState = row.state ∧ s.ip = row.ip ∧ s.bandwidth = row.bandwidth

def Relation.Holds (s : Relation) (row : RelationRow) : Prop :=
  s.role = row.role ∧ s.partnerId = row.pid ∧ s.relationId = row.rid ∧ s.objState = row.state ∧
    s.device = row.disk ∧ s.bitmapSize = row.bitmapSize ∧ s.grainSize = row.grainSize ∧
    s.chunkSize = row.chunkSize

def Disk.Holds (s : Disk) (row : DiskRow) : Prop :=
  s.name = row.name ∧ s.snapName = row.snapName ∧ s.bitmapSize = row.bitmapSize ∧
    s.objState = row.state

/-- The disk and the replication of a partner hold its row of `resync`. -/
def HoldsResync (s : Disk × Replication) (row : ResyncRow) : Prop :=
  s.1.name = row.targetDisk ∧ s.2.lastResyncedBit = row.lastResyncedBit ∧ s.2.repState = row.state

theorem Partner.holds_scan (s : Partner) (row : PartnerRow) : (s.scan row).Holds row :=
  ⟨rfl, rfl, rfl, rfl⟩

theorem Relation.holds_scan (s : Relation) (row : RelationRow) : (s.scan row).Holds row :=
  ⟨rfl, rfl, rfl, rfl, rfl, rfl, rfl, rfl⟩

theorem Disk.holds_scan (s : Disk) (row : DiskRow) : (s.scan row).Holds row :=
  ⟨rfl, rfl, rfl, rfl⟩

/-! ### The tables of the server and of the client -/

/-- The partners are back in their slots. -/
def PartnersInPlace (db : Db) (o : Objects) : Prop :=
  InPlace PartnerRow.pid Partner.Holds db.livePartners o.partners

/-- The objects of the server are back in their slots. -/
structure ServerInPlace (db : Db) (o : Objects) : Prop where
  partners : PartnersInPlace db o
  relations : InPlace RelationRow.pid Relation.Holds db.liveRelations o.relations
  disks : InPlace DiskRow.pid Disk.Holds db.liveDisks o.disks

/-- The objects of the client are back in their slots. -/
structure ClientInPlace (db : Db) (o : Objects) : Prop extends ServerInPlace db o where
  resyncs : InPlace ResyncRow.pid HoldsResync db.liveResyncs fun q => (o.disks q, o.replications q)

/-- The live rows of the tables the server restores are numbered. -/
structure ServerNumbered (db : Db) : Prop where
  partners : Numbered PartnerRow.pid db.livePartners
  relations : Numbered RelationRow.pid db.liveRelations
  disks : Numbered DiskRow.pid db.liveDisks

/-- The live rows of all tables are numbered, and a partner's rows in `disk` and in `resync` name
the same disk. -/
structure ClientNumbered (db : Db) : Prop extends ServerNumbered db where
  resyncs : Numbered ResyncRow.pid db.liveResyncs
  names : ∀ d ∈ db.liveDisks, ∀ r ∈ db.liveResyncs, d.pid = r.pid → d.name = r.targetDisk

variable {db : Db} {o : Objects}

theorem retrieveFromPartner_inPlace :
    PartnersInPlace db (o.retrieveFromPartner db) ↔ Numbered PartnerRow.pid db.livePartners :=
  inPlace_iff Partner.holds_scan

theorem dbInitServer_inPlace : ServerInPlace db (o.dbInitServer db) ↔ ServerNumbered db := by
  have hp : PartnersInPlace db (o.dbInitServer db) ↔ Numbered PartnerRow.pid db.livePartners :=
    inPlace_iff Partner.holds_scan
  have hr : InPlace RelationRow.pid Relation.Holds db.liveRelations (o.dbInitServer db).relations ↔
      Numbered RelationRow.pid db.liveRelations :=
    inPlace_iff Relation.holds_scan
  have hd : InPlace DiskRow.pid Disk.Holds db.liveDisks (o.dbInitServer db).disks ↔
      Numbered DiskRow.pid db.liveDisks :=
    inPlace_iff Disk.holds_scan
  constructor
  · intro h
    exact ⟨hp.mp h.partners, hr.mp h.relations, hd.mp h.disks⟩
  · intro h
    exact ⟨hp.mpr h.partners, hr.mpr h.relations, hd.mpr h.disks⟩

/-- The name `retrieve_from_disk` stored stays if the partner's row in `resync` has the same one. -/
theorem Disk.Holds.scanTarget {s : Disk} {d : DiskRow} {r : ResyncRow} (h : s.Holds d)
    (hname : d.name = r.targetDisk) : (s.scanTarget r).Holds d :=
  ⟨hname.symm, h.2⟩

theorem dbInitClient_inPlace : ClientInPlace db (o.dbInitClient db) ↔ ClientNumbered db := by
  constructor
  · intro h
    refine ⟨⟨?_, ?_, ?_⟩, ?_, ?_⟩
    · exact numbered_iff.mpr h.partners.own
    · exact numbered_iff.mpr h.relations.own
    · exact numbered_iff.mpr h.disks.own
    · exact numbered_iff.mpr h.resyncs.own
    · intro d hd r hr hpid
      have hdisk := (h.disks.held d hd).1
      have hresync := (h.resyncs.held r hr).1
      rw [← hpid] at hresync
      exact hdisk.symm.trans hresync
  · intro h
    have hserver : ServerInPlace db (o.dbInitServer db) :=
      dbInitServer_inPlace.mpr h.toServerNumbered
    refine ⟨⟨hserver.partners, hserver.relations, ?_, hserver.disks.own⟩, ?_,
      numbered_iff.mp h.resyncs⟩
    · intro d hd
      have hheld := hserver.disks.held d hd
      dsimp only [Objects.dbInitClient, Objects.retrieveFromResync]
      rw [fetchRows_zero]
      cases hf : fetched db.liveResyncs d.pid with
      | none => exact hheld
      | some r =>
        have hpid : r.pid = d.pid := numbered_iff.mp h.resyncs d.pid r hf
        exact hheld.scanTarget (h.names d hd r (mem_of_fetched hf) hpid.symm)
    · intro r hr
      dsimp only [Objects.dbInitClient, Objects.retrieveFromResync]
      rw [fetchRows_zero, fetchRows_zero, h.resyncs.fetched hr]
      exact ⟨rfl, rfl, rfl⟩

/-- **Every row back in its own slot.** For all contents of the tables that the daemon's statements
can produce and all contents of the objects before: `db_init` of the server, `db_init` of the
client, and the reload of the partners on every accepted connection put every live row into the slot
of its `pid`, and no slot is overwritten with another's row, exactly when the live rows are
numbered. -/
theorem restored_in_place (stmts : List Statement) (o : Objects) :
    (ServerInPlace (Db.after stmts) (o.dbInitServer (Db.after stmts)) ↔
        ServerNumbered (Db.after stmts)) ∧
      (ClientInPlace (Db.after stmts) (o.dbInitClient (Db.after stmts)) ↔
        ClientNumbered (Db.after stmts)) ∧
      (PartnersInPlace (Db.after stmts) (o.retrieveFromPartner (Db.after stmts)) ↔
        Numbered PartnerRow.pid (Db.after stmts).livePartners) :=
  ⟨dbInitServer_inPlace, dbInitClient_inPlace, retrieveFromPartner_inPlace⟩

/-- What the server issues when two partners are made and the first one's resync completes. -/
def firstCompleted : List Statement :=
  [.insertIntoDisk 0 "/dev/sdb" "-" 16384 .inUse,
    .insertIntoDisk 1 "/dev/sdc" "-" 16384 .inUse,
    .insertIntoPartner 0 .inUse "10.0.0.1" 100,
    .insertIntoRelation 0 0 0 .inUse "/dev/sdb" 16384 1024 8,
    .insertIntoPartner 1 .inUse "10.0.0.2" 100,
    .insertIntoRelation 0 1 1 .inUse "/dev/sdc" 16384 1024 8,
    .updateIntoPartner 0 .released]

/-- After that the row of partner 1 is stored into slot 0, by `db_init` and on every accept. -/
theorem completed_shifts_partners :
    (Objects.zero.dbInitServer (Db.after firstCompleted)).partners 0
        = ⟨1, .inUse, "10.0.0.2", 100⟩ ∧
      ¬ ServerInPlace (Db.after firstCompleted)
        (Objects.zero.dbInitServer (Db.after firstCompleted)) ∧
      ¬ PartnersInPlace (Db.after firstCompleted)
        (Objects.zero.retrieveFromPartner (Db.after firstCompleted)) := by
  have hn : ¬ Numbered PartnerRow.pid (Db.after firstCompleted).livePartners := by decide
  refine ⟨by decide, fun h => ?_, fun h => ?_⟩
  · exact hn (dbInitServer_inPlace.mp h).partners
  · exact hn (retrieveFromPartner_inPlace.mp h)

end Ebdr
