import Ebdr.Server.ReceiveLoop

/-!
# The indices of the handlers

Every handler of `cmdMap` uses `partner_id` or `relation_id` of the header as an index into the
server's tables. `CmdFun.accesses` lists the accesses of a handler in order, with those of the
functions it calls: reads, writes and addresses taken alike, one entry for those that stand
together. A list stops where the server exits. Which branches are taken depends on the tables'
contents and on the results of calls, and these may be anything.

`inside_iff` says for which headers all the indices lie in the tables.
-/

namespace Ebdr

open CInt

/-- The tables. -/
inductive Table where
  /-- `all_partner_servers`. -/
  | partners
  /-- `all_relation_servers`. -/
  | relations
  /-- `ebdr_disk_src_obj`. -/
  | disks
  /-- `bitmap_server_obj`. -/
  | bitmaps
  /-- `io_server_obj`. -/
  | ios
  /-- `replic_server_obj`. -/
  | replics
  /-- `replic_hdr_server_obj`. -/
  | replicHdrs
  /-- `ebdr_conn_server`. -/
  | conns
  | recoveryMode
  | sockRecovery
  | partnerCreated
  deriving DecidableEq, Repr

/-- `MAX_CONN`. -/
def maxConn : Nat := 2048

/-- The length of a table: only `ebdr_conn_server` has one more. -/
def Table.size : Table → Nat
  | conns => maxConn + 1
  | _ => maxPartners

/-- An entry of a table that is used. -/
structure Access where
  table : Table
  index : Int
  deriving DecidableEq, Repr

def Access.Inside (a : Access) : Prop := 0 ≤ a.index ∧ a.index < a.table.size

instance (a : Access) : Decidable a.Inside := inferInstanceAs (Decidable (_ ∧ _))

/-- Accesses at one index. -/
def accessesAt (index : Int) (tables : List Table) : List Access := tables.map fun t => ⟨t, index⟩

/-- What the handlers branch on: fields of the tables at any index, the counters, and the results of
the calls that may fail. -/
structure TableView where
  partnerState : Int → PartnerObjState
  /-- `all_partner_servers[i].id`. -/
  partnerId : Int → Int
  /-- `all_relation_servers[i].partner_id`. -/
  relationPartner : Int → Int
  relationState : Int → RelationObjState
  ioState : Int → IoObjState
  recovery : Int → Int
  connState : Int → ConnObjState
  psCount : Int
  dsCount : Int
  malloc : Bool
  getUser : Bool
  flip : Bool
  sent : Bool
  chunkRead : Bool
  chunkWritten : Bool
  md5 : Bool
  /-- The next `recv` succeeds. -/
  received : Bool

namespace TableView

/-- `server_bitmap_load_from_memory`. Either half is copied from `ebdr_disk_src_obj[pid]`. -/
def loadFromMemory (v : TableView) (pid : Int) (next : List Table) : List Table :=
  if v.getUser = true then
    .disks :: .recoveryMode ::
      if v.recovery pid = 0 then
        .conns ::
          if v.connState pid ≠ .resume then
            .disks :: if v.flip = true then next else []
          else .conns :: .disks :: next
      else .conns :: .disks :: next
  else []

/-- `get_bitmap`. -/
def getBitmap (v : TableView) (pid : Int) : List Table :=
  let restart : List Table :=
    if v.partnerState pid = .released then
      [.partners, .relations, .disks, .partners, .relations, .disks]
    else []
  let answer : List Table :=
    .partners :: .replics :: .disks :: .partners ::
      -- `io_server_obj_create`
      if v.sent = true then .disks :: if pid < maxPartners then [.ios] else [] else []
  .partners :: restart ++ .bitmaps ::
    -- `bitmap_server_create` exits when there is no memory
    if v.malloc = true then .disks :: .bitmaps :: .disks :: v.loadFromMemory pid answer else []

/-- `get_data`. -/
def getData (v : TableView) (pid : Int) : List Table :=
  let readFailed : List Table :=
    if v.chunkRead = true then [] else [.disks, .conns, .sockRecovery, .conns, .partnerCreated]
  let writeFailed : List Table :=
    if v.chunkWritten = true then [] else [.partnerCreated, .conns, .sockRecovery, .conns]
  .ios :: .replicHdrs :: .ios ::
    if v.ioState pid = .released then []
    else .ios :: .disks :: readFailed ++ .ios :: .partners :: writeFailed

/-- `remove_partner`. -/
def removePartner (v : TableView) (pid : Int) : List Table :=
  let relation : List Table :=
    if v.relationPartner pid = pid ∧ v.relationState pid = .inUse then [.relations] else []
  .relations :: relation ++ [.partners]

/-- `terminate`. -/
def terminate (v : TableView) (pid : Int) : List Table :=
  .partners ::
    if v.partnerState pid ≠ .released then
      [.disks, .bitmaps, .disks, .recoveryMode, .partners, .relations, .disks, .ios, .partners]
    else []

/-- `verify_data`, with the message of `get_last_md5_values`. -/
def verifyData (v : TableView) : List Table :=
  .disks :: (if v.md5 = true then [.disks] else []) ++ [.replics, .partners]

/-- `is_server_partner_id_valid`: the entries up to the first with the id. -/
def isPartnerIdValid (v : TableView) (pid : Int) : List Access × Bool :=
  match (List.range maxPartners).find? fun i : Nat => decide (v.partnerId i = pid) with
  | some i => ((List.range (i + 1)).map fun j : Nat => ⟨.partners, j⟩, true)
  | none => ((List.range maxPartners).map fun j : Nat => ⟨.partners, j⟩, false)

/-- `make_relation_with_client`. -/
def makeRelationWithClient (v : TableView) (pid : Int) : List Access :=
  accessesAt pid [.relations] ++
    if pid < maxPartners then
      let (entries, valid) := v.isPartnerIdValid pid
      entries ++
        if valid = true then accessesAt pid [.relations, .relations, .replicHdrs, .replicHdrs] else []
    else []

/-- `make_partner`. The new connection is copied from the entry `MAX_CONN + 1`. -/
def makePartner (v : TableView) (pid : Int) : List Access :=
  accessesAt pid [.replics] ++
    -- `replic_hdr_server_create`
    if pid < maxPartners then
      accessesAt pid [.replicHdrs, .replics, .conns, .replics, .replicHdrs, .replics] ++
        ⟨.disks, v.dsCount⟩ :: accessesAt pid [.conns] ++
        ⟨.conns, maxConn + 1⟩ :: accessesAt pid [.partners] ++
        -- `partner_server_obj_create`
        if v.psCount < maxPartners then
          let v := { v with partnerId := Function.update v.partnerId pid pid }
          let (entries, valid) := v.isPartnerIdValid pid
          accessesAt pid [.partners, .replics, .partners] ++ entries ++
            if valid = true then v.makeRelationWithClient pid else []
        else []
    else []

end TableView

/-- The accesses of a handler. -/
def CmdFun.accesses (f : CmdFun) (v : TableView) (pid rid : Int) : List Access :=
  match f with
  | .getBitmap => accessesAt pid (v.getBitmap pid)
  | .getData => accessesAt pid (v.getData pid)
  | .makePartner => v.makePartner pid
  | .removePartner => accessesAt pid (v.removePartner pid)
  | .removeRelation => accessesAt rid [.relations, .relations]
  | .synReceived =>
    accessesAt pid
      [.replicHdrs, .partners, .replicHdrs, .replics, .partners, .relations, .replicHdrs, .relations]
  | .ack => []
  | .terminate => accessesAt pid (v.terminate pid)
  | .dataReq => accessesAt pid [.partners, .replics, .partners]
  | .verifyData => accessesAt pid v.verifyData

/-- An `int` field of a header. -/
def HeaderBuf.intAt (h : HeaderBuf) (off : Fin 277) : Int :=
  let byte (i : Fin 4) : Nat := (h ⟨off.val + i.val, by unfold headerSize; omega⟩).toNat
  toInt (byte 0 + 256 * byte 1 + 65536 * byte 2 + 16777216 * byte 3)

def HeaderBuf.partnerId (h : HeaderBuf) : Int := h.intAt 192

def HeaderBuf.relationId (h : HeaderBuf) : Int := h.intAt 196

/-- The accesses for a header: those of its handler, and, when the next `recv` fails and the opcode is
`DATA`, those of `ebdr_conn_server_recv`. -/
def HeaderBuf.accesses (h : HeaderBuf) (v : TableView) : List Access :=
  match handlerFor h with
  | none => []
  | some f =>
    f.accesses v h.partnerId h.relationId ++
      if f = .getData ∧ v.received = false then
        accessesAt h.partnerId [.partnerCreated, .conns, .sockRecovery, .partnerCreated]
      else []

/-! ### The indices that are right -/

/-- An index of every table. -/
def IsIndex (i : Int) : Prop := 0 ≤ i ∧ i < maxPartners

instance (i : Int) : Decidable (IsIndex i) := inferInstanceAs (Decidable (_ ∧ _))

/-- The handler's index is one of every table; `make_partner` has none that is right. -/
def CmdFun.IndexOk (f : CmdFun) (pid rid : Int) : Prop :=
  match f with
  | .ack => True
  | .makePartner => False
  | .removeRelation => IsIndex rid
  | _ => IsIndex pid

/-- The condition on a header. -/
def HeaderBuf.IndexOk (h : HeaderBuf) : Prop :=
  ∀ f, handlerFor h = some f → f.IndexOk h.partnerId h.relationId

theorem maxPartners_le_size (t : Table) : maxPartners ≤ t.size := by
  cases t <;> decide

theorem IsIndex.inside {i : Int} (h : IsIndex i) (t : Table) : (Access.mk t i).Inside := by
  obtain ⟨h0, hlt⟩ := h
  have hsize := maxPartners_le_size t
  refine ⟨h0, ?_⟩
  dsimp only
  omega

theorem accessesAt_inside {i : Int} {t : Table} (ht : t.size = maxPartners) (ts : List Table) :
    (∀ a ∈ accessesAt i (t :: ts), a.Inside) ↔ IsIndex i := by
  constructor
  · intro h
    have hfirst := h ⟨t, i⟩ (List.mem_cons_self ..)
    unfold Access.Inside at hfirst
    rwa [ht] at hfirst
  · intro hi a ha
    obtain ⟨t', -, rfl⟩ := List.mem_map.mp ha
    exact hi.inside t'

namespace TableView

theorem makePartner_outside (v : TableView) (pid : Int) :
    ¬ ∀ a ∈ v.makePartner pid, a.Inside := by
  intro h
  by_cases hlt : pid < maxPartners
  · have hconn : (⟨.conns, maxConn + 1⟩ : Access) ∈ v.makePartner pid := by
      unfold makePartner
      rw [if_pos hlt]
      simp
    exact absurd (h _ hconn) (by decide)
  · have hfirst : (⟨.replics, pid⟩ : Access) ∈ v.makePartner pid := by
      unfold makePartner
      simp [accessesAt]
    exact hlt (h _ hfirst).2

end TableView

/-- **One handler.** -/
theorem CmdFun.accesses_inside (f : CmdFun) (v : TableView) (pid rid : Int) :
    (∀ a ∈ f.accesses v pid rid, a.Inside) ↔ f.IndexOk pid rid := by
  cases f with
  | makePartner => exact iff_false_intro (v.makePartner_outside pid)
  | ack => exact iff_of_true (fun _ ha => absurd ha List.not_mem_nil) trivial
  | _ => exact accessesAt_inside rfl _

/-- **No access of a header's handling leaves its table**, whatever the server's state, if and only if
the header's index is right. -/
theorem inside_iff (h : HeaderBuf) (v : TableView) :
    (∀ a ∈ h.accesses v, a.Inside) ↔ h.IndexOk := by
  unfold HeaderBuf.accesses HeaderBuf.IndexOk
  cases hfind : handlerFor h with
  | none => simp
  | some f =>
    have hok : (∀ g, some f = some g → g.IndexOk h.partnerId h.relationId) ↔
        f.IndexOk h.partnerId h.relationId := by simp
    rw [hok, ← f.accesses_inside v]
    constructor
    · intro hall a ha
      exact hall a (List.mem_append_left _ ha)
    · intro hall a ha
      obtain hmem | hmem := List.mem_append.mp ha
      · exact hall a hmem
      · split at hmem
        · rename_i hdata
          obtain ⟨rfl, -⟩ := hdata
          have hpid : IsIndex h.partnerId := (CmdFun.accesses_inside .getData v _ _).mp hall
          obtain ⟨t, -, rfl⟩ := List.mem_map.mp hmem
          exact hpid.inside t
        · exact absurd hmem List.not_mem_nil

/-- A server without partners, where no call fails. -/
def bootView : TableView where
  partnerState := fun _ => .free
  partnerId := fun _ => 0
  relationPartner := fun _ => 0
  relationState := fun _ => .free
  ioState := fun _ => .free
  recovery := fun _ => 0
  connState := fun _ => .inUse
  psCount := 0
  dsCount := 0
  malloc := true
  getUser := true
  flip := true
  sent := true
  chunkRead := true
  chunkWritten := true
  md5 := true
  received := true

/-- A `DATA` header with `partner_id` -1 makes `get_data` use `io_server_obj[-1]`. -/
theorem negative_id_outside :
    ¬ ∀ (h : HeaderBuf) (v : TableView), ∀ a ∈ h.accesses v, a.Inside := by
  intro hall
  let data : HeaderBuf := HeaderBuf.store (HeaderBuf.store (fun _ => 0) 4 4 4) 192 4 (2 ^ 32 - 1)
  have hmem : (⟨.ios, -1⟩ : Access) ∈ data.accesses bootView := by decide +kernel
  exact absurd (hall data bootView _ hmem) (by decide)

end Ebdr
