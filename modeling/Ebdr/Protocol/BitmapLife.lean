import Ebdr.Client.Resync
import Ebdr.Lib.Lts

/-!
# The life of the bitmap buffers

A `bitmap_area` is never allocated, allocated or freed (`AreaState`). On the client, `metadata`
allocates it, a resync thread tests its bits and frees it when it completes. On the server,
`get_bitmap` allocates, copies and sends it, and `terminate` frees it through the operations table
that `get_bitmap` set. Neither side asks whether the area is there: the client starts a thread
whenever it is told to, and `terminate` looks at `obj_state` alone.

`BitmapServer` is the server as far as the areas are concerned, with its handlers as single steps. It
starts with what `db_init` made of the database: the `SELECT` leaves out the partners that were
released, and for each disk it found `db_init` allocated a partner's area. An accepted connection reads
the live rows of the table `partner` again, each into the slot of its position.
-/

namespace Ebdr

open Lts

/-- What became of a `bitmap_area`. -/
inductive AreaState where
  | neverAllocated
  | allocated
  | freed
  deriving DecidableEq, Repr

/-! ### The client -/

namespace Client

def areaState (c : Client) : AreaState :=
  match c.bitmapArea with
  | .unallocated => .neverAllocated
  | .allocated _ => .allocated
  | .freed => .freed

/-- The next step of the thread tests a bit, or calls `ebdr_bitmap_destroy`. -/
def UsesArea (c : Client) (tid : Nat) : Prop :=
  match c.phaseOf tid with
  | some (.test pos) => pos < bitmapSizeMax * 8 ∧ c.partnerState ≠ .pause
  | some .release => True
  | _ => False

/-- Whoever uses the area finds it allocated: the threads, and the receive of the bitmap. As
`bitmap_client_create` sets the operations, they are there too. -/
structure AreaSafe (c : Client) : Prop where
  threads : ∀ tid, c.UsesArea tid → c.areaState = .allocated
  receive : c.awaiting = true → c.areaState = .allocated

/-- A thread is started on an allocated area, and frees it when nobody else is going to use it. -/
def KeepsArea (c : Client) : Event → Prop
  | .run tid _ =>
    c.phaseOf tid = some .release → c.awaiting = false ∧
      ∀ t < c.nextTid, t ≠ tid → c.phaseOf t = none ∨ c.phaseOf t = some .connLost
  | e => c.launches e ≠ none → c.areaState = .allocated

instance instDecidableKeepsArea (c : Client) : (e : Event) → Decidable (KeepsArea c e)
  | .run tid _ =>
    inferInstanceAs (Decidable (c.phaseOf tid = some .release → c.awaiting = false ∧
      ∀ t < c.nextTid, t ≠ tid → c.phaseOf t = none ∨ c.phaseOf t = some .connLost))
  | .metadata | .bitmap _ | .resync | .pause | .resume | .recoveryDisk | .recoveryConn
  | .endCancelled _ => inferInstanceAs (Decidable (c.launches _ ≠ none → c.areaState = .allocated))

/-- A running thread has its number, and the area while it may use it. -/
structure AreaHeld (c : Client) : Prop where
  bound : ∀ t ph, c.phaseOf t = some ph → t < c.nextTid
  threads : ∀ t ph, c.phaseOf t = some ph → ph ≠ .connLost → c.areaState = .allocated
  receive : c.awaiting = true → c.areaState = .allocated

theorem AreaHeld.safe {c : Client} (h : AreaHeld c) : AreaSafe c where
  receive := h.receive
  threads := by
    intro tid huse
    unfold UsesArea at huse
    split at huse
    · rename_i pos hph
      exact h.threads tid _ hph nofun
    · rename_i hph
      exact h.threads tid _ hph nofun
    · exact huse.elim

theorem areaHeld_boot : AreaHeld boot where
  bound := by
    intro t ph h
    cases h
  threads := by
    intro t ph h
    cases h
  receive := nofun

theorem areaState_congr {c c' : Client} (h : c'.bitmapArea = c.bitmapArea) :
    c'.areaState = c.areaState := by
  rw [areaState, h, areaState]

theorem AreaHeld.same {c c' : Client} (hi : AreaHeld c) (hs : SameSlot c c')
    (harea : c'.areaState = c.areaState ∨ c'.areaState = .allocated)
    (hwait : c'.awaiting = true → c.awaiting = true ∨ c'.areaState = .allocated) :
    AreaHeld c' := by
  have hph : ∀ t, c'.phaseOf t = c.phaseOf t := fun t => phaseOf_of_thread (congrFun hs.thread t)
  have hkeep : c.areaState = .allocated → c'.areaState = .allocated := by
    intro h
    exact harea.elim (fun heq => heq.trans h) id
  refine ⟨?_, ?_, ?_⟩
  · intro t ph h
    rw [hs.next]
    exact hi.bound t ph ((hph t).symm.trans h)
  · intro t ph h hne
    exact hkeep (hi.threads t ph ((hph t).symm.trans h) hne)
  · intro h
    exact (hwait h).elim (fun hw => hkeep (hi.receive hw)) id

theorem AreaHeld.launch {c : Client} (hi : AreaHeld c) (harea : c.areaState = .allocated)
    (pos : Nat) : AreaHeld (c.resyncInit pos) := by
  refine ⟨?_, fun _ _ _ _ => harea, fun _ => harea⟩
  intro t ph hph
  have hnext : (c.resyncInit pos).nextTid = c.nextTid + 1 := rfl
  rw [hnext]
  by_cases ht : t = c.nextTid
  · omega
  · have hother : (c.resyncInit pos).thread t = c.thread t := Function.update_of_ne ht _ _
    rw [phaseOf_of_thread hother] at hph
    exact Nat.lt_succ_of_lt (hi.bound t ph hph)

theorem run_connLost {g : Geometry} {c c' : Client} {tid : Nat} {ok : Bool}
    (hp : c.phaseOf tid = some .connLost) (h : c.runThread g tid ok = some c') :
    c'.phaseOf tid = none := by
  obtain ⟨⟨ph, x⟩, hth, rfl⟩ := Option.map_eq_some_iff.mp hp
  cases threadStep_of_run hth h
  simp [phaseOf, endThread]

theorem AreaHeld.touches {c c' : Client} {tid : Nat} {ph : ResyncPhase} (hi : AreaHeld c)
    (hph : c.phaseOf tid = some ph) (ht : Touches tid c c')
    (hlost : ph = .connLost → c'.phaseOf tid = none)
    (hfree : c.phaseOf tid = some .release → c.awaiting = false ∧
      ∀ t < c.nextTid, t ≠ tid → c.phaseOf t = none ∨ c.phaseOf t = some .connLost) :
    AreaHeld c' := by
  have hbound : ∀ t ph', c'.phaseOf t = some ph' → t < c'.nextTid := by
    intro t ph' h
    rw [ht.next]
    by_cases htid : t = tid
    · rw [htid]
      exact hi.bound tid ph hph
    · exact hi.bound t ph' ((ht.phases t htid).symm.trans h)
  rcases ht.area with harea | ⟨hrel, -, hend⟩
  · have hstate := areaState_congr harea
    refine ⟨hbound, ?_, ?_⟩
    · intro t ph' h hne
      rw [hstate]
      by_cases htid : t = tid
      · rw [htid] at h
        apply hi.threads tid ph hph
        intro hc
        rw [hlost hc] at h
        cases h
      · exact hi.threads t ph' ((ht.phases t htid).symm.trans h) hne
    · intro hw
      rw [hstate]
      exact hi.receive (ht.awaiting.symm.trans hw)
  -- the area is freed: nobody is left who would use it
  · obtain ⟨hwait, hothers⟩ := hfree hrel
    refine ⟨hbound, ?_, ?_⟩
    · intro t ph' h hne
      by_cases htid : t = tid
      · rw [htid, phaseOf, hend] at h
        cases h
      · have hbefore := (ht.phases t htid).symm.trans h
        rcases hothers t (hi.bound t ph' hbefore) htid with hnone | hconn
        · rw [hnone] at hbefore
          cases hbefore
        · exact absurd (Option.some.inj (hbefore.symm.trans hconn)) hne
    · intro hw
      rw [ht.awaiting, hwait] at hw
      cases hw

theorem KeepsArea.of_launches {c : Client} {e : Event} {pos : Nat} (hk : KeepsArea c e)
    (hl : c.launches e = some pos) : c.areaState = .allocated := by
  have hne : c.launches e ≠ none := by simp [hl]
  cases e with
  | run tid ok => cases hl
  | _ => exact hk hne

/-- **Step lemma.** -/
theorem areaHeld_step {g : Geometry} {c c' : Client} {e : Event} (hi : AreaHeld c)
    (hk : KeepsArea c e) (h : c.step g e = some c') : AreaHeld c' := by
  cases stepCase_of_step h with
  | @run tid _ _ hrun =>
    obtain ⟨th, hth, -⟩ := Option.bind_eq_some_iff.mp h
    have hph : c.phaseOf tid = some th.phase := by rw [phaseOf, hth, Option.map_some]
    apply hi.touches hph (touches_run hrun) _ hk
    intro hc
    rw [hc] at hph
    exact run_connLost hph hrun
  | @endCancelled tid ph hth =>
    have hph : c.phaseOf tid = some ph := by rw [phaseOf, hth, Option.map_some]
    have hend : (c.endThread tid).phaseOf tid = none := by simp [phaseOf, endThread]
    refine ⟨?_, ?_, hi.receive⟩
    · intro t ph' hp
      by_cases ht : t = tid
      · rw [ht]
        exact hi.bound tid _ hph
      · rw [phaseOf_of_thread (endThread_other rfl ht)] at hp
        exact hi.bound t ph' hp
    · intro t ph' hp hne
      by_cases ht : t = tid
      · rw [ht, hend] at hp
        cases hp
      · rw [phaseOf_of_thread (endThread_other rfl ht)] at hp
        exact hi.threads t ph' hp hne
  | metadata => exact hi.same (sameSlot_requestMetadata c) (.inr rfl) fun _ => .inr rfl
  | bitmap => exact hi.same ⟨rfl, rfl, rfl⟩ (.inr rfl) (by simp)
  | pause => exact hi.same ⟨rfl, rfl, rfl⟩ (.inl rfl) .inl
  | launch hl =>
    refine AreaHeld.launch ?_ ?_ _
    · exact hi.same ⟨rfl, rfl, rfl⟩ (.inl rfl) .inl
    · exact hk.of_launches hl
  | idle => exact hi

end Client

/-! ### The server -/

/-- The server's objects that decide about the areas. -/
structure BitmapServer where
  /-- `all_partner_servers[pid].obj_state`. -/
  partnerState : Nat → PartnerObjState
  /-- The rows of the table `partner`, as they were inserted: `pid` and `state`. -/
  rows : List (Nat × PartnerObjState)
  /-- `ds_count`: the disks below it have their operations and their mapped area. -/
  dsCount : Nat
  /-- `replic_server_obj[pid].rep_conn` is set. -/
  repConn : Nat → Bool
  /-- `bitmap_server_obj[pid].ops` is set. -/
  bitmapOps : Nat → Bool
  bitmapArea : Nat → AreaState

namespace BitmapServer

/-- The opcodes whose handlers touch the areas, or the state that `terminate` looks at; and `DATA`. -/
inductive Header where
  | makePartner
  | bitmapMetadata
  | data
  | rplcTermination
  deriving DecidableEq, Repr

inductive Event where
  /-- The `create` command of a device the kernel does not have. -/
  | create
  /-- A connection is accepted; it may be that of a partner that `replic_thread_init` marks as
  recovering. -/
  | accept (recovering : Option Nat)
  | recv (hdr : Header) (pid : Nat)
  deriving DecidableEq, Repr

/-- `update_into_partner`. -/
def updateIntoPartner (rows : List (Nat × PartnerObjState)) (pid : Nat) (state : PartnerObjState) :
    List (Nat × PartnerObjState) :=
  rows.map fun r => if r.1 = pid then (r.1, state) else r

/-- `make_partner`; a `pid` from `MAX_PARTNERS` on is outside the tables. -/
def makePartner (s : BitmapServer) (pid : Nat) : Option BitmapServer :=
  if pid < maxPartners then
    some { s with
      repConn := Function.update s.repConn pid true
      partnerState := Function.update s.partnerState pid .inUse
      rows := s.rows ++ [(pid, .inUse)] }
  else none

/-- The beginning of `get_bitmap`, with `bitmap_server_create`. -/
def bitmapServerCreate (s : BitmapServer) (pid : Nat) : BitmapServer :=
  let s :=
    if s.partnerState pid = .released then
      { s with
        partnerState := Function.update s.partnerState pid .inUse
        rows := updateIntoPartner s.rows pid .inUse }
    else s
  { s with
    bitmapArea := Function.update s.bitmapArea pid .allocated
    bitmapOps := Function.update s.bitmapOps pid true }

/-- `get_bitmap`. The copy reads the mapped area of the disk, the send goes through `rep_conn`. -/
def getBitmap (s : BitmapServer) (pid : Nat) : Option BitmapServer :=
  if pid < s.dsCount ∧ s.repConn pid = true then some (s.bitmapServerCreate pid) else none

/-- `terminate`, which calls through `ebdr_disk_src_obj[pid].ops` and `bitmap_server_obj[pid].ops`. -/
def terminate (s : BitmapServer) (pid : Nat) : Option BitmapServer :=
  if s.partnerState pid ≠ .released then
    if pid < s.dsCount ∧ s.bitmapOps pid = true ∧ s.bitmapArea pid = .allocated then
      some { s with
        bitmapArea := Function.update s.bitmapArea pid .freed
        partnerState := Function.update s.partnerState pid .released
        rows := updateIntoPartner s.rows pid .released }
    -- an operations table that is not set, or a second `free`
    else none
  else some s

/-- What `retrieve_from_partner` selects. -/
def liveStates (s : BitmapServer) : List PartnerObjState :=
  (s.rows.map Prod.snd).filter fun state => state ≠ .released

/-- What `replic_thread_init` does with an accepted connection: each live row goes into the slot of its
position. -/
def accept (s : BitmapServer) (recovering : Option Nat) : Option BitmapServer :=
  if s.liveStates.length ≤ maxPartners then
    some { s with
      partnerState := fun pid =>
        let state := (s.liveStates[pid]?).getD (s.partnerState pid)
        if recovering = some pid ∧ state = .inUse then .recovery else state }
  -- an index past the end of `all_partner_servers`
  else none

def step (s : BitmapServer) : Event → Option BitmapServer
  | .create => if s.dsCount < maxPartners then some { s with dsCount := s.dsCount + 1 } else none
  | .accept recovering => s.accept recovering
  | .recv .makePartner pid => s.makePartner pid
  | .recv .bitmapMetadata pid => s.getBitmap pid
  -- `get_data` touches nothing of this
  | .recv .data _ => some s
  | .recv .rplcTermination pid => s.terminate pid

/-- What `db_init` leaves for a partner. -/
structure Restored where
  state : PartnerObjState
  live : state ≠ .released
  /-- `ebdr_user_bitmap_init` and `replication_init` were called for it. -/
  recovered : Bool

/-- A partner that the database does not have. -/
def Restored.fresh : Restored := ⟨.free, nofun, false⟩

/-- What `db_init` leaves: the partners, the table `partner`, and `ds_count`. -/
structure DbInit where
  partners : Nat → Restored
  rows : List (Nat × PartnerObjState)
  dsCount : Nat

/-- An empty database. -/
def DbInit.fresh : DbInit := ⟨fun _ => .fresh, [], 0⟩

/-- The daemon after `db_init`. -/
def boot (init : DbInit) : BitmapServer where
  partnerState := fun pid => (init.partners pid).state
  rows := init.rows
  dsCount := init.dsCount
  repConn := fun pid => (init.partners pid).recovered
  bitmapOps := fun pid => (init.partners pid).recovered
  bitmapArea := fun pid =>
    if (init.partners pid).recovered = true then .allocated else .neverAllocated

/-- What the handler copies, sends or frees is allocated, and what it calls through is set. -/
def AreaSafe (s : BitmapServer) : Event → Prop
  | .recv .bitmapMetadata pid => (s.bitmapServerCreate pid).bitmapArea pid = .allocated
  | .recv .rplcTermination pid =>
    s.partnerState pid ≠ .released →
      pid < s.dsCount ∧ s.bitmapOps pid = true ∧ s.bitmapArea pid = .allocated
  | _ => True

instance (s : BitmapServer) (e : Event) : Decidable (AreaSafe s e) := by
  unfold AreaSafe
  split <;> infer_instance

/-! ### The condition on the headers -/

/-- What the server saw: the devices created, the headers, and at each accepted connection the number
of live rows. -/
inductive Seen where
  | create
  | reload (live : Nat)
  | header (hdr : Header) (pid : Nat)
  deriving DecidableEq, Repr

def sees (s : BitmapServer) : Event → Option Seen
  | .create => some .create
  | .accept _ => some (.reload s.liveStates.length)
  | .recv hdr pid => some (.header hdr pid)

/-- What can change `obj_state[pid]`: a header about `pid` other than `DATA`, or an accepted connection
with a row at that position. -/
def Seen.Touches (pid : Nat) : Seen → Prop
  | .create => False
  | .reload live => pid < live
  | .header hdr q => q = pid ∧ hdr ≠ .data

instance (pid : Nat) : (x : Seen) → Decidable (x.Touches pid)
  | .create => inferInstanceAs (Decidable False)
  | .reload _ => inferInstanceAs (Decidable (_ < _))
  | .header _ _ => inferInstanceAs (Decidable (_ ∧ _))

/-- A `BITMAP_METADATA` or an `RPLC_TERMINATION` about `pid`. -/
def Seen.Loads (pid : Nat) (x : Seen) : Prop :=
  x = .header .bitmapMetadata pid ∨ x = .header .rplcTermination pid

instance (pid : Nat) (x : Seen) : Decidable (x.Loads pid) := inferInstanceAs (Decidable (_ ∨ _))

theorem touches_header {pid q : Nat} {hdr : Header} :
    (Seen.header hdr q).Touches pid ↔ q = pid ∧ hdr ≠ .data := Iff.rfl

theorem touches_reload {pid live : Nat} : (Seen.reload live).Touches pid ↔ pid < live := Iff.rfl

theorem Seen.Loads.touches {pid : Nat} {x : Seen} (h : x.Loads pid) : x.Touches pid := by
  rcases h with rfl | rfl
  · exact touches_header.mpr ⟨rfl, by decide⟩
  · exact touches_header.mpr ⟨rfl, by decide⟩

/-- The last of what can change `obj_state[pid]` was an `RPLC_TERMINATION`. -/
def Terminated (hs : List Seen) (pid : Nat) : Prop :=
  (hs.filter (fun x => x.Touches pid)).getLast? = some (.header .rplcTermination pid)

/-- Of the `BITMAP_METADATA`s and `RPLC_TERMINATION`s of `pid` the last was a `BITMAP_METADATA`. Without
any, `db_init` allocated the area. -/
def Loaded (recovered : Bool) (hs : List Seen) (pid : Nat) : Prop :=
  match (hs.filter (fun x => x.Loads pid)).getLast? with
  | some x => x = .header .bitmapMetadata pid
  | none => recovered = true

/-- When `RPLC_TERMINATION` of `pid` may come, after `hs` was seen. -/
def Terminable (init : DbInit) (hs : List Seen) (pid : Nat) : Prop :=
  Terminated hs pid ∨
    (Loaded (init.partners pid).recovered hs pid ∧ pid < init.dsCount + hs.count .create)

/-- What the tables say about what was seen so far. -/
structure Recorded (init : DbInit) (hs : List Seen) (s : BitmapServer) : Prop where
  released : ∀ pid, s.partnerState pid = .released ↔ Terminated hs pid
  loaded : ∀ pid, s.bitmapOps pid = true ∧ s.bitmapArea pid = .allocated ↔
    Loaded (init.partners pid).recovered hs pid
  disks : s.dsCount = init.dsCount + hs.count .create

theorem terminated_snoc {hs : List Seen} {pid : Nat} {x : Seen} (h : x.Touches pid) :
    Terminated (hs ++ [x]) pid ↔ x = .header .rplcTermination pid := by
  unfold Terminated
  rw [List.filter_append, List.filter_cons_of_pos (by simpa using h), List.filter_nil,
    List.getLast?_concat, Option.some.injEq]

theorem terminated_other {hs : List Seen} {pid : Nat} {x : Seen} (h : ¬ x.Touches pid) :
    Terminated (hs ++ [x]) pid ↔ Terminated hs pid := by
  unfold Terminated
  rw [List.filter_append, List.filter_cons_of_neg (by simpa using h), List.filter_nil,
    List.append_nil]

theorem loaded_snoc {b : Bool} {hs : List Seen} {pid : Nat} {x : Seen} (h : x.Loads pid) :
    Loaded b (hs ++ [x]) pid ↔ x = .header .bitmapMetadata pid := by
  unfold Loaded
  rw [List.filter_append, List.filter_cons_of_pos (by simpa using h), List.filter_nil,
    List.getLast?_concat]

theorem loaded_other {b : Bool} {hs : List Seen} {pid : Nat} {x : Seen} (h : ¬ x.Loads pid) :
    Loaded b (hs ++ [x]) pid ↔ Loaded b hs pid := by
  unfold Loaded
  rw [List.filter_append, List.filter_cons_of_neg (by simpa using h), List.filter_nil,
    List.append_nil]

theorem Terminated.not_loaded {b : Bool} {hs : List Seen} {pid : Nat} (h : Terminated hs pid) :
    ¬ Loaded b hs pid := by
  have hsub : hs.filter (fun x => x.Loads pid) =
      (hs.filter (fun x => x.Touches pid)).filter (fun x => x.Loads pid) := by
    rw [List.filter_filter]
    congr 1
    funext x
    by_cases hx : x.Loads pid
    · simp [hx, hx.touches]
    · simp [hx]
  obtain ⟨l, hl⟩ := List.getLast?_eq_some_iff.mp h
  have hlast : (hs.filter (fun x => x.Loads pid)).getLast? = some (.header .rplcTermination pid) := by
    rw [hsub, hl, List.filter_append, List.filter_cons_of_pos (by simp [Seen.Loads]),
      List.filter_nil, List.getLast?_concat]
  unfold Loaded
  rw [hlast]
  simp

theorem Recorded.recv {init : DbInit} {hs : List Seen} {s s' : BitmapServer} {hdr : Header} {q : Nat}
    (hi : Recorded init hs s) (hdisks : s'.dsCount = s.dsCount)
    (hother : ∀ pid, pid ≠ q → s'.partnerState pid = s.partnerState pid ∧
      s'.bitmapOps pid = s.bitmapOps pid ∧ s'.bitmapArea pid = s.bitmapArea pid)
    (hreleased : s'.partnerState q = .released ↔ Terminated (hs ++ [.header hdr q]) q)
    (hloaded : s'.bitmapOps q = true ∧ s'.bitmapArea q = .allocated ↔
      Loaded (init.partners q).recovered (hs ++ [.header hdr q]) q) :
    Recorded init (hs ++ [.header hdr q]) s' := by
  refine ⟨?_, ?_, ?_⟩
  · intro pid
    by_cases hq : pid = q
    · rw [hq]
      exact hreleased
    · rw [(hother pid hq).1, terminated_other fun ht => hq (touches_header.mp ht).1.symm]
      exact hi.released pid
  · intro pid
    by_cases hq : pid = q
    · rw [hq]
      exact hloaded
    · rw [(hother pid hq).2.1, (hother pid hq).2.2, loaded_other fun hl => hq (touches_header.mp hl.touches).1.symm]
      exact hi.loaded pid
  · rw [hdisks, hi.disks]
    simp

theorem released_accept {s : BitmapServer} {recovering : Option Nat} {pid : Nat} :
    (let state := (s.liveStates[pid]?).getD (s.partnerState pid)
      if recovering = some pid ∧ state = .inUse then PartnerObjState.recovery else state) =
        .released ↔ s.liveStates.length ≤ pid ∧ s.partnerState pid = .released := by
  have hmark : ∀ state : PartnerObjState,
      (if recovering = some pid ∧ state = .inUse then PartnerObjState.recovery else state) =
        .released ↔ state = .released := by
    intro state
    split
    · rename_i hrec
      rw [hrec.2]
      decide
    · rfl
  rw [hmark]
  by_cases hlt : pid < s.liveStates.length
  · rw [List.getElem?_eq_getElem hlt, Option.getD_some]
    have hlive : s.liveStates[pid] ≠ .released := by
      exact of_decide_eq_true (List.mem_filter.mp (List.getElem_mem hlt)).2
    exact iff_of_false hlive fun h => absurd hlt (by omega)
  · rw [List.getElem?_eq_none (by omega), Option.getD_none]
    exact ⟨fun h => ⟨by omega, h⟩, And.right⟩

theorem recorded_accept {init : DbInit} {hs : List Seen} {s s' : BitmapServer}
    {recovering : Option Nat} (hi : Recorded init hs s) (h : s.accept recovering = some s') :
    Recorded init (hs ++ [.reload s.liveStates.length]) s' := by
  obtain ⟨-, heq⟩ := Option.ite_none_right_eq_some.mp h
  rw [← Option.some.inj heq]
  refine ⟨?_, ?_, ?_⟩
  · intro pid
    refine released_accept.trans ?_
    by_cases hlt : pid < s.liveStates.length
    · rw [terminated_snoc (touches_reload.mpr hlt)]
      exact iff_of_false (fun h => absurd hlt (by omega)) nofun
    · rw [terminated_other (mt touches_reload.mp hlt), ← hi.released pid]
      exact and_iff_right (by omega)
  · intro pid
    rw [loaded_other (by simp [Seen.Loads])]
    exact hi.loaded pid
  · rw [List.count_append]
    exact hi.disks

/-- **Step lemma.** -/
theorem recorded_step {init : DbInit} {hs : List Seen} {s s' : BitmapServer} {e : Event}
    (hi : Recorded init hs s) (h : s.step e = some s') :
    Recorded init (hs ++ (s.sees e).toList) s' := by
  cases e with
  | create =>
    obtain ⟨-, heq⟩ := Option.ite_none_right_eq_some.mp h
    rw [← Option.some.inj heq]
    refine ⟨?_, ?_, ?_⟩
    · intro pid
      exact (hi.released pid).trans (terminated_other id).symm
    · intro pid
      exact (hi.loaded pid).trans (loaded_other (by simp [Seen.Loads])).symm
    · show s.dsCount + 1 = _
      rw [hi.disks]
      simp [sees, Nat.add_assoc]
  | accept recovering => exact recorded_accept hi h
  | recv hdr q =>
    cases hdr with
    | makePartner =>
      simp only [step, makePartner] at h
      split at h
      · cases h
        refine hi.recv rfl ?_ ?_ ?_
        · intro pid hpid
          exact ⟨Function.update_of_ne hpid _ _, rfl, rfl⟩
        · rw [terminated_snoc (touches_header.mpr ⟨rfl, by decide⟩)]
          simp
        · rw [loaded_other (by simp [Seen.Loads])]
          exact hi.loaded q
      · cases h
    | bitmapMetadata =>
      simp only [step, getBitmap] at h
      split at h
      · cases h
        refine hi.recv ?_ ?_ ?_ ?_
        · unfold bitmapServerCreate
          split <;> rfl
        · intro pid hpid
          unfold bitmapServerCreate
          split <;> simp [Function.update_of_ne hpid]
        · rw [terminated_snoc (touches_header.mpr ⟨rfl, by decide⟩)]
          unfold bitmapServerCreate
          split
          · simp
          · rename_i hne
            simp [hne]
        · rw [loaded_snoc (.inl rfl)]
          simp [bitmapServerCreate]
      · cases h
    | data =>
      cases h
      refine hi.recv rfl (fun _ _ => ⟨rfl, rfl, rfl⟩) ?_ ?_
      · rw [terminated_other fun ht => (touches_header.mp ht).2 rfl]
        exact hi.released q
      · rw [loaded_other (by simp [Seen.Loads])]
        exact hi.loaded q
    | rplcTermination =>
      simp only [step, terminate] at h
      split at h
      · split at h
        · cases h
          refine hi.recv rfl ?_ ?_ ?_
          · intro pid hpid
            exact ⟨Function.update_of_ne hpid _ _, rfl, Function.update_of_ne hpid _ _⟩
          · rw [terminated_snoc (touches_header.mpr ⟨rfl, by decide⟩)]
            simp
          · rw [loaded_snoc (.inr rfl)]
            simp
        · cases h
      · rename_i hrel
        cases h
        have hreleased : s.partnerState q = .released := not_not.mp hrel
        refine hi.recv rfl (fun _ _ => ⟨rfl, rfl, rfl⟩) ?_ ?_
        · rw [terminated_snoc (touches_header.mpr ⟨rfl, by decide⟩)]
          simp [hreleased]
        · rw [loaded_snoc (.inr rfl), hi.loaded q]
          have hno : ¬ Loaded (init.partners q).recovered hs q :=
            ((hi.released q).mp hreleased).not_loaded
          simp [hno]

theorem recorded_boot (init : DbInit) : Recorded init [] (boot init) where
  released := by
    intro pid
    simp [boot, Terminated, (init.partners pid).live]
  loaded := by
    intro pid
    simp [boot, Loaded]
  disks := rfl

/-- **Run lemma.** -/
theorem recorded_run {init : DbInit} {es : List Event} {s : BitmapServer}
    (hr : run step (boot init) es = some s) :
    Recorded init (trace step sees (boot init) es) s := by
  refine run_hist (J := fun es s => Recorded init (trace step sees (boot init) es) s)
    (recorded_boot init) (fun es t e u hi ht _ hs => ?_) (meets_true _ _) hr
  rw [trace_snoc ht]
  exact recorded_step hi hs

/-- The handlers are safe exactly when every `RPLC_TERMINATION` comes to a terminated partner, or to
one with a bitmap and a disk. -/
theorem areaSafe_iff (init : DbInit) (es : List Event) :
    Meets step AreaSafe (boot init) es ↔
      ∀ fs pid, fs ++ [.recv .rplcTermination pid] <+: es →
        (run step (boot init) fs).isSome = true →
          Terminable init (trace step sees (boot init) fs) pid := by
  have hterm : ∀ fs s pid, run step (boot init) fs = some s →
      (AreaSafe s (.recv .rplcTermination pid) ↔
        Terminable init (trace step sees (boot init) fs) pid) := by
    intro fs s pid hr
    have hi := recorded_run hr
    unfold Terminable
    rw [← hi.released pid, ← hi.loaded pid, ← hi.disks]
    unfold AreaSafe
    tauto
  rw [meets_iff_forall]
  constructor
  · intro h fs pid hfs hsome
    obtain ⟨s, hr⟩ := Option.isSome_iff_exists.mp hsome
    exact (hterm fs s pid hr).mp (h fs _ s hfs hr)
  · intro h fs e s hfs hr
    cases e with
    | create | accept => trivial
    | recv hdr pid =>
      cases hdr with
      | makePartner | data => trivial
      | bitmapMetadata => exact Function.update_self _ _ _
      | rplcTermination =>
        apply (hterm fs s pid hr).mpr
        exact h fs pid hfs (by rw [hr]; rfl)

end BitmapServer

/-! ### Both sides -/

/-- On the client, in every run in which threads are started on an allocated area, and free it when
nobody else is going to use it, whoever uses the area finds it allocated. On the server the handlers
are safe exactly when every `RPLC_TERMINATION` comes to a terminated partner, or to one with a bitmap
and a disk. -/
theorem bitmap_life_cycle {g : Geometry} {es : List Client.Event}
    (h : Meets (Client.step g) Client.KeepsArea Client.boot es)
    (init : BitmapServer.DbInit) (fs : List BitmapServer.Event) :
    Always (Client.step g) Client.AreaSafe Client.boot es ∧
      (Meets BitmapServer.step BitmapServer.AreaSafe (BitmapServer.boot init) fs ↔
        ∀ gs pid, gs ++ [.recv .rplcTermination pid] <+: fs →
          (run BitmapServer.step (BitmapServer.boot init) gs).isSome = true →
            BitmapServer.Terminable init
              (trace BitmapServer.step BitmapServer.sees (BitmapServer.boot init) gs) pid) := by
  refine ⟨?_, BitmapServer.areaSafe_iff init fs⟩
  rintro gs c ⟨rest, rfl⟩ hr
  have hheld : Client.AreaHeld c :=
    run_inv (fun _ _ _ hi hk hs => Client.areaHeld_step hi hk hs) Client.areaHeld_boot
      (meets_append.mp h).1 hr
  exact hheld.safe

/-- A whole round on the server, the beginning of a resync on the client. -/
theorem bitmap_life_cycle_round :
    Always (Client.step ⟨8, 8⟩) Client.AreaSafe Client.boot
        [.metadata, .bitmap fun _ => 1, .resync, .run 0 true, .run 0 true] ∧
      (Meets BitmapServer.step BitmapServer.AreaSafe (BitmapServer.boot .fresh)
          [.create, .accept none, .recv .makePartner 0, .recv .bitmapMetadata 0,
            .recv .rplcTermination 0] ↔
        ∀ gs pid, gs ++ [.recv .rplcTermination pid] <+:
            [.create, .accept none, .recv .makePartner 0, .recv .bitmapMetadata 0,
              .recv .rplcTermination 0] →
          (run BitmapServer.step (BitmapServer.boot .fresh) gs).isSome = true →
            BitmapServer.Terminable .fresh
              (trace BitmapServer.step BitmapServer.sees (BitmapServer.boot .fresh) gs) pid) :=
  bitmap_life_cycle (by decide) _ _

/-- `resync` before `metadata`: the thread tests a bit of an area that was never allocated.
`RPLC_TERMINATION` before `BITMAP_METADATA`: the operations are not set. A partner that is terminated,
made again and terminated: its area is freed twice. So it is when the row of another partner has put
the partner back into use at an accepted connection. -/
theorem bitmap_life_cycle_fails :
    ¬ Always (Client.step ⟨8, 8⟩) Client.AreaSafe Client.boot [.resync, .run 0 true] ∧
      ¬ Meets BitmapServer.step BitmapServer.AreaSafe (BitmapServer.boot .fresh)
        [.create, .recv .makePartner 0, .recv .rplcTermination 0] ∧
      ¬ Meets BitmapServer.step BitmapServer.AreaSafe (BitmapServer.boot .fresh)
        [.create, .recv .makePartner 0, .recv .bitmapMetadata 0, .recv .rplcTermination 0,
          .recv .makePartner 0, .recv .rplcTermination 0] ∧
      ¬ Meets BitmapServer.step BitmapServer.AreaSafe (BitmapServer.boot .fresh)
        [.create, .recv .makePartner 0, .recv .makePartner 1, .recv .bitmapMetadata 0,
          .recv .rplcTermination 0, .accept none, .recv .rplcTermination 0] := by
  refine ⟨?_, by decide, by decide, by decide⟩
  intro hsafe
  have hrun : ((run (Client.step ⟨8, 8⟩) Client.boot [.resync, .run 0 true]).map fun c =>
      (c.phaseOf 0, c.partnerState, c.areaState)) =
        some (some (.test 0), .inUse, .neverAllocated) := by
    decide
  obtain ⟨c, hr, hc⟩ := Option.map_eq_some_iff.mp hrun
  simp only [Prod.mk.injEq] at hc
  have huse : c.UsesArea 0 := by
    rw [Client.UsesArea, hc.1, hc.2.1]
    exact ⟨by decide, by decide⟩
  have harea := (hsafe _ c (List.prefix_refl _) hr).threads 0 huse
  rw [hc.2.2] at harea
  cases harea

end Ebdr
