import Ebdr.Client.Completion

/-!
# The bitmap file and a crash of the client

The client of `Ebdr.Client.Resync` with its file `/tmp/bitmap<pid>`. After a metadata request has
received a bitmap it stores the area to the file if the first word of the area is not zero; `db_init`
after a crash loads the file, whatever is in it. The file is kept over the rounds, and over crashes.

What `db_init` finds in the tables is a parameter of the crash: any row of `resync`, or none.
-/

namespace Ebdr

open ByteMem Lts

/-- What `db_init` reads of the partner: its state in the table `partner`, and its row of the table
`resync`. -/
structure TableRows where
  partnerState : PartnerObjState
  repState : RepState
  lastResyncedBit : Nat

/-- The client of one partner and its bitmap file. -/
structure ClientHost where
  client : Client
  /-- `/tmp/bitmap<pid>`, if it exists. -/
  file : Option Mem
  /-- The metadata command has received its bitmap and is about to look at it. -/
  storing : Bool
  /-- The bitmaps received, newest first, each with whether the command got past the store. This is
  no data of the program. -/
  received : List (Mem × Bool)

namespace ClientHost

inductive Event where
  | client (e : Client.Event)
  | store
  /-- The daemon dies and is started again; without a row the partner is not taken back. -/
  | crash (rows : Option TableRows)

/-- The events of the control thread. -/
def ofControl : Client.Event → Bool
  | .metadata | .bitmap _ | .resync | .pause | .resume => true
  | .recoveryDisk | .recoveryConn | .run _ _ | .endCancelled _ => false

/-- The test of `request_server_for_metadata`: the first word of the area. -/
def FirstWord (m : Mem) : Prop := loadLE m 0 8 ≠ 0

instance (m : Mem) : Decidable (FirstWord m) := inferInstanceAs (Decidable (_ ≠ _))

/-- After a bitmap has arrived, the store is to come. -/
def withClient (s : ClientHost) (c : Client) : Client.Event → ClientHost
  | .bitmap m =>
    { s with
      client := c
      storing := true
      received := (m, false) :: s.received }
  | .metadata | .resync | .pause | .resume | .recoveryDisk | .recoveryConn | .run _ _
  | .endCancelled _ => { s with client := c }

/-- A step of the client. -/
def clientStep (g : Geometry) (s : ClientHost) (e : Client.Event) : Option ClientHost :=
  if s.storing = true ∧ ofControl e = true then none
  else (s.client.step g e).map fun c => s.withClient c e

/-- `store_bitmap_to_disk`, if the first word of the area is not zero. -/
def store (s : ClientHost) : Option ClientHost :=
  if s.storing = true then
    match s.client.bitmapArea with
    | .allocated m =>
      some { s with
        file := if FirstWord m then some m else s.file
        storing := false
        received := s.received.modifyHead fun r => (r.1, true) }
    | .unallocated | .freed => none
  else none

/-- `load_bitmap_from_disk`: `fread` of `bitmap_size` bytes over the area. -/
def loadBitmapFromDisk (area f : Mem) : Mem := copyBytes area 0 f 0 bitmapSizeMax

/-- The partner's objects after `mkpartner_from_db_on_client` and `mkresync_from_db_on_client`. -/
def retrieved (c : Client) (rows : TableRows) : Client :=
  { Client.boot with
    partnerState := rows.partnerState
    repState := rows.repState
    lastResyncedBit := rows.lastResyncedBit
    recoveryMode := true
    history := ⟨c.history.received, [], false⟩ }

/-- `db_init` for the partner. `load_bitmap_from_disk` stops the daemon if there is no file. -/
def dbInit (s : ClientHost) : Option TableRows → Option Client
  | none => some { Client.boot with history := ⟨s.client.history.received, [], false⟩ }
  | some rows =>
    let c := retrieved s.client rows
    if c.repState ≠ .completed then
      s.file.map fun f =>
        -- `ebdr_user_bitmap_init(REMOTE, pid)` has cleared the area
        { c with bitmapArea := .allocated (loadBitmapFromDisk (fun _ => 0) f) }.resyncInit
          c.lastResyncedBit
    else some c

def crash (s : ClientHost) (rows : Option TableRows) : Option ClientHost :=
  (s.dbInit rows).map fun c => { s with client := c, storing := false }

def step (g : Geometry) (s : ClientHost) : Event → Option ClientHost
  | .client e => s.clientStep g e
  | .store => s.store
  | .crash rows => s.crash rows

/-- A new client; the file may be there from an earlier partner of that number. -/
def boot (file : Option Mem) : ClientHost := ⟨Client.boot, file, false, []⟩

/-! ### What a crash leaves -/

/-- The two bitmaps are equal, bit for bit. -/
def SameBitmap (m m' : Mem) : Prop := ∀ b < 8 * bitmapSizeMax, bit m b = bit m' b

/-- After a crash now, with these rows in the tables, the daemon comes up and the partner's area holds
the bitmap received last. -/
def Survives (g : Geometry) (s : ClientHost) (rows : TableRows) : Prop :=
  ∃ s' m m', s.step g (.crash (some rows)) = some s' ∧ s'.client.bitmapArea = .allocated m' ∧
    s.received.head?.map Prod.fst = some m ∧ SameBitmap m' m

/-- The bitmap in the file, from what was received: the newest one that came to be stored and has a
set bit in its first word, or else what was in the file at the beginning. -/
def lastStored (file : Option Mem) (received : List (Mem × Bool)) : Option Mem :=
  ((received.find? fun r => decide (r.2 = true ∧ FirstWord r.1)).map Prod.fst).or file

/-- The bitmap received last was looked at and has a set bit in its first word, or the bitmap stored
before it has the same bits. -/
def StoredLast (file : Option Mem) : List (Mem × Bool) → Prop
  | [] => False
  | (m, looked) :: earlier =>
    (looked = true ∧ FirstWord m) ∨ ∃ f, lastStored file earlier = some f ∧ SameBitmap f m

/-- What holds in every reachable state. -/
structure Inv (file : Option Mem) (s : ClientHost) : Prop where
  file : s.file = lastStored file s.received
  /-- While the store is to come, the area holds what was received. -/
  area : s.storing = true → ∃ m earlier, s.received = (m, false) :: earlier ∧
    ∀ m', s.client.bitmapArea = .allocated m' → m' = m

variable {file : Option Mem} {g : Geometry} {s s' : ClientHost}

theorem lastStored_new (m : Mem) (earlier : List (Mem × Bool)) :
    lastStored file ((m, false) :: earlier) = lastStored file earlier := by
  unfold lastStored
  rw [List.find?_cons_of_neg (by simp)]

theorem lastStored_looked (m : Mem) (earlier : List (Mem × Bool)) :
    lastStored file ((m, true) :: earlier) =
      if FirstWord m then some m else lastStored file earlier := by
  unfold lastStored
  split
  · rename_i h
    rw [List.find?_cons_of_pos (by simp [h])]
    rfl
  · rename_i h
    rw [List.find?_cons_of_neg (by simp [h])]

theorem area_of_thread {c c' : Client} {e : Client.Event} (he : ofControl e = false)
    (h : c.step g e = some c') : c'.bitmapArea = c.bitmapArea ∨ c'.bitmapArea = .freed := by
  cases Client.stepCase_of_step h with
  | run hrun => exact (Client.touches_run hrun).area.imp id fun hfree => hfree.2.1
  | metadata | bitmap | pause => cases he
  | launch | idle | endCancelled => exact Or.inl rfl

theorem inv_boot : Inv file (boot file) := ⟨rfl, nofun⟩

theorem area_of_bitmap {c c' : Client} {m m' : Mem} (h : c.step g (.bitmap m) = some c')
    (hm' : c'.bitmapArea = .allocated m') : m' = m := by
  simp only [Client.step, Client.receiveBitmap] at h
  split at h
  · split at h
    · rw [← Option.some.inj h] at hm'
      injection hm' with heq
      exact heq.symm
    · cases h
    · cases h
  · cases h

theorem inv_client {e : Client.Event} (hi : Inv file s) (h : s.clientStep g e = some s') :
    Inv file s' := by
  unfold clientStep at h
  split at h
  · cases h
  · rename_i hfree
    obtain ⟨c, hc, rfl⟩ := Option.map_eq_some_iff.mp h
    cases e with
    | bitmap m =>
      refine ⟨?_, fun _ => ⟨m, s.received, rfl, fun m' hm' => area_of_bitmap hc hm'⟩⟩
      exact hi.file.trans (lastStored_new m s.received).symm
    | metadata | resync | pause | resume =>
      exact ⟨hi.file, fun hst => absurd ⟨hst, rfl⟩ hfree⟩
    | recoveryDisk | recoveryConn | run | endCancelled =>
      refine ⟨hi.file, fun hst => ?_⟩
      obtain ⟨m, earlier, hrec, harea⟩ := hi.area hst
      refine ⟨m, earlier, hrec, fun m' hm' => ?_⟩
      rcases area_of_thread rfl hc with heq | hfreed
      · exact harea m' (heq.symm.trans hm')
      · cases hfreed.symm.trans hm'

theorem inv_store (hi : Inv file s) (h : s.store = some s') : Inv file s' := by
  unfold store at h
  split at h
  · rename_i hst
    obtain ⟨m, earlier, hrec, harea⟩ := hi.area hst
    split at h
    · rename_i m' hm'
      obtain rfl := harea m' hm'
      rw [← Option.some.inj h]
      refine ⟨?_, nofun⟩
      dsimp only
      rw [hrec, List.modifyHead_cons, lastStored_looked, hi.file, hrec, lastStored_new]
    · cases h
    · cases h
  · cases h

theorem inv_crash {rows : Option TableRows} (hi : Inv file s) (h : s.crash rows = some s') :
    Inv file s' := by
  obtain ⟨c, -, rfl⟩ := Option.map_eq_some_iff.mp h
  exact ⟨hi.file, nofun⟩

/-- **Step lemma.** -/
theorem inv_step {e : Event} (hi : Inv file s) (h : s.step g e = some s') : Inv file s' := by
  cases e with
  | client e => exact inv_client hi h
  | store => exact inv_store hi h
  | crash rows => exact inv_crash hi h

theorem inv_run {es : List Event} (h : run (step g) (boot file) es = some s) : Inv file s :=
  run_inv (fun _ _ _ hi _ hs => inv_step hi hs) inv_boot (meets_true _ _) h

theorem sameBitmap_loadBitmapFromDisk (area f : Mem) :
    SameBitmap (loadBitmapFromDisk area f) f := by
  intro b hb
  have hbyte : b / 8 < bitmapSizeMax := by omega
  rw [bit, bit, loadBitmapFromDisk, copyBytes_of_lt hbyte, Nat.zero_add]

theorem crash_area {rows : TableRows} (hrep : rows.repState ≠ .completed) {m : Mem} :
    (∃ s', s.step g (.crash (some rows)) = some s' ∧ s'.client.bitmapArea = .allocated m) ↔
      ∃ f, s.file = some f ∧ m = loadBitmapFromDisk (fun _ => 0) f := by
  have hinit : s.dbInit (some rows) = s.file.map fun f =>
      { retrieved s.client rows with
        bitmapArea := .allocated (loadBitmapFromDisk (fun _ => 0) f) }.resyncInit
          rows.lastResyncedBit := if_pos hrep
  constructor
  · rintro ⟨s', hs', harea⟩
    obtain ⟨c, hc, rfl⟩ := Option.map_eq_some_iff.mp hs'
    obtain ⟨f, hf, rfl⟩ := Option.map_eq_some_iff.mp (hinit.symm.trans hc)
    injection harea with hm
    exact ⟨f, hf, hm.symm⟩
  · rintro ⟨f, hf, rfl⟩
    rw [hf] at hinit
    exact ⟨_, congrArg (Option.map _) hinit, rfl⟩

theorem survives_iff {rows : TableRows} (hrep : rows.repState ≠ .completed) :
    s.Survives g rows ↔
      ∃ f m, s.file = some f ∧ s.received.head?.map Prod.fst = some m ∧ SameBitmap f m := by
  constructor
  · rintro ⟨s', m, m', hs', harea, hm, hsame⟩
    obtain ⟨f, hf, rfl⟩ := (crash_area hrep).mp ⟨s', hs', harea⟩
    exact ⟨f, m, hf, hm, fun b hb => (sameBitmap_loadBitmapFromDisk _ f b hb).symm.trans
      (hsame b hb)⟩
  · rintro ⟨f, m, hf, hm, hsame⟩
    obtain ⟨s', hs', harea⟩ := (crash_area (s := s) (g := g) hrep).mpr ⟨f, hf, rfl⟩
    exact ⟨s', m, _, hs', harea, hm, fun b hb => (sameBitmap_loadBitmapFromDisk _ f b hb).trans
      (hsame b hb)⟩

/-- A metadata request up to and with its store. -/
def request (m : Mem) : List Event := [.client .metadata, .client (.bitmap m), .store]

/-- The row that `restart_resync` inserts at its start. -/
def startedRow : TableRows := ⟨.inUse, .inProgress, 0⟩

theorem startedRow_live : startedRow.repState ≠ .completed := by decide

end ClientHost

end Ebdr
