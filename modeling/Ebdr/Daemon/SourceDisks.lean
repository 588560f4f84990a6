import Ebdr.Database.Tables
import Ebdr.Kernel.Representation
import Ebdr.Lib.CString
import Mathlib

/-!
# The create command: source disks and devices

The `c` command of the server's daemon scans the disk name into the shared `ioctl_obj`, asks the
kernel whether a device has that name, and if none has, has one created and adds a source disk. The
name's bytes are kept as the buffers hold them: `src_disk` keeps the bytes of earlier names behind
the terminator of a shorter one, and both `device[i].disk_name` and `ebdr_disk_src_obj[k].name` are
copies of all 64 bytes.

`devices_agree_iff` says when the daemon's table and the kernel's stay the same, and `search_iff` when the
search by 20 bytes in 10 entries tells the names in use.
-/

namespace Ebdr

open Lts

/-- A disk name on a command line that fits `src_disk`. -/
structure DiskName where
  bytes : List UInt8
  nonempty : bytes ≠ []
  short : bytes.length < 64
  word : (0 : UInt8) ∉ bytes
  deriving DecidableEq

/-- A `c` command, with what the system answers while it is served. -/
structure CreateCmd where
  name : DiskName
  grainSize : Nat
  bitmapSize : Nat
  /-- `copy_from_user` in `EBDRCTL_DEV_CREATE`. -/
  copied : Bool
  env : CreateEnv
  /-- The name in the row that the database makes of the `INSERT`, when it takes the statement. -/
  stored : Option String
  /-- The memory-control node is opened and mapped. -/
  mapped : Bool
  deriving DecidableEq

/-- The lengths of the local arrays that a create writes through: `memory_fd` and
`memctl_dev_name` in `disk_source_mmap`, and `str` in `insert_into_disk`. -/
structure LocalArrays where
  memoryFd : Nat
  str : Nat

/-- The lengths in the source. -/
def LocalArrays.source : LocalArrays := ⟨5, 100⟩

/-- The fields of `ebdr_disk_src_obj[k]` that a create sets. -/
structure SourceDisk where
  objState : DiskObjState
  name : List UInt8
  bitmapSize : Nat
  deriving DecidableEq, Repr

/-- The server's daemon, started without rows to recover, and the kernel module. -/
structure SourceDaemon where
  kernel : Kernel
  ioctlObj : Ioctl
  dsCount : Nat
  /-- `ebdr_disk_src_obj`. -/
  disk : Nat → SourceDisk
  /-- `ebdrdbs`. -/
  db : Db
  /-- The daemon has not called `stop_work`. -/
  running : Bool

/-- A name as the database keeps it. -/
def nameString (name : List UInt8) : String :=
  String.ofList (name.map fun b => Char.ofNat b.toNat)

/-- The bytes of `INSERT INTO disk VALUES(pid,'name','-',bitmap_size,1)` with its terminator. -/
def insertIntoDiskBytes (pid : Nat) (name : List UInt8) (bitmapSize : Nat) : Nat :=
  "INSERT INTO disk VALUES(".length + (toString pid).length + ",'".length + name.length +
    "','-',".length + (toString bitmapSize).length + ",1)".length + 1

namespace SourceDaemon

def init : SourceDaemon where
  kernel := Kernel.init
  ioctlObj := ⟨List.replicate 64 0, 0, 0, .kernel, 0⟩
  dsCount := 0
  disk := fun _ => ⟨.free, List.replicate 64 0, 0⟩
  db := .created
  running := true

/-- `ioctl_obj` after `sscanf`. -/
def scanned (s : SourceDaemon) (c : CreateCmd) : Ioctl :=
  { s.ioctlObj with
    srcDisk := CString.store s.ioctlObj.srcDisk c.name.bytes
    uGrainSize := c.grainSize
    uBitmapSize := c.bitmapSize }

/-- `is_disk_created`, which puts `ioctl_obj` back as it was. -/
def isDiskCreated (s : SourceDaemon) : Bool := s.kernel.blkdevSearch s.ioctlObj.srcDisk

/-- `disk_source_create` with `disk_source_mmap`. A write past a local array has no meaning. -/
def diskSourceCreate (a : LocalArrays) (s : SourceDaemon) (c : CreateCmd) : Option SourceDaemon :=
  let serverPid := s.dsCount
  if serverPid < maxPartners then
    let name := s.ioctlObj.srcDisk.take 64
    let s := { s with
      disk := Function.update s.disk serverPid ⟨.inUse, name, s.ioctlObj.uBitmapSize⟩ }
    if a.str < insertIntoDiskBytes serverPid (CString.text name) s.ioctlObj.uBitmapSize then none
    else
      match c.stored with
      -- `finish_with_error`
      | none => some { s with running := false }
      | some row =>
        let s := { s with
          db := s.db.insertIntoDisk serverPid row "-" s.ioctlObj.uBitmapSize .inUse }
        if a.memoryFd ≤ serverPid then none
        else if c.mapped = false then some { s with running := false }
        else some { s with dsCount := serverPid + 1 }
  else some s

/-- The `c` command. -/
def create (a : LocalArrays) (s : SourceDaemon) (c : CreateCmd) : Option SourceDaemon :=
  let s := { s with ioctlObj := s.scanned c }
  if s.isDiskCreated = true then some s
  -- the one negative result stops the daemon
  else if c.copied = false then some { s with running := false }
  else
    (s.kernel.devCreate s.ioctlObj c.env).bind fun p =>
      { s with kernel := p.1 }.diskSourceCreate a c

def step (a : LocalArrays) (s : SourceDaemon) (c : CreateCmd) : Option SourceDaemon :=
  if s.running = true then s.create a c else none

/-- The search for the name of a command reports a device. -/
def Reports (s : SourceDaemon) (c : CreateCmd) : Prop :=
  s.kernel.blkdevSearch (s.scanned c).srcDisk = true

instance (s : SourceDaemon) (c : CreateCmd) : Decidable (s.Reports c) :=
  inferInstanceAs (Decidable (_ = true))

/-! ### What a create does -/

/-- A source disk added for `c`: the entry is filled at once, the row follows when the database takes
the statement, and `ds_count` steps when the node was mapped too. -/
structure Added (s : SourceDaemon) (c : CreateCmd) (s' : SourceDaemon) : Prop where
  disk : s'.disk = Function.update s.disk s.dsCount
    ⟨.inUse, s.ioctlObj.srcDisk.take 64, s.ioctlObj.uBitmapSize⟩
  row : ∀ row, c.stored = some row →
    s'.db = s.db.insertIntoDisk s.dsCount row "-" s.ioctlObj.uBitmapSize .inUse
  count : s'.dsCount =
    if c.stored.isSome = true ∧ c.mapped = true then s.dsCount + 1 else s.dsCount

variable {a : LocalArrays} {s s' : SourceDaemon} {c : CreateCmd}

theorem diskSourceCreate_spec (h : s.diskSourceCreate a c = some s') :
    s'.kernel = s.kernel ∧ s'.ioctlObj = s.ioctlObj ∧
      (s.dsCount < maxPartners → Added s c s') := by
  unfold diskSourceCreate at h
  dsimp only at h
  split at h
  · rw [Option.ite_none_left_eq_some] at h
    obtain ⟨-, h⟩ := h
    cases hrow : c.stored with
    | none =>
      rw [hrow] at h
      cases h
      refine ⟨rfl, rfl, fun _ => ⟨rfl, ?_, by simp [hrow]⟩⟩
      intro row hr
      cases hrow.symm.trans hr
    | some row =>
      rw [hrow] at h
      dsimp only at h
      rw [Option.ite_none_left_eq_some] at h
      obtain ⟨-, h⟩ := h
      split at h
      · rename_i hmap
        cases h
        refine ⟨rfl, rfl, fun _ => ⟨rfl, ?_, by simp [hmap]⟩⟩
        intro r hr
        cases hrow.symm.trans hr
        rfl
      · rename_i hmap
        cases h
        refine ⟨rfl, rfl, fun _ => ⟨rfl, ?_, by simp [hrow, hmap]⟩⟩
        intro r hr
        cases hrow.symm.trans hr
        rfl
  · rename_i hfull
    cases h
    exact ⟨rfl, rfl, fun hlt => absurd hlt hfull⟩

/-- **The create command.** The search refuses it, or the first ioctl stops the daemon, or the
kernel tries to create the device and a source disk is added whatever it returned. -/
theorem create_cases (h : s.create a c = some s') :
    s'.ioctlObj = s.scanned c ∧
      ((s.Reports c ∧ s' = { s with ioctlObj := s.scanned c }) ∨
        (¬ s.Reports c ∧ c.copied = false ∧
          s' = { s with ioctlObj := s.scanned c, running := false }) ∨
        (¬ s.Reports c ∧ c.copied = true ∧
          ∃ rc, s.kernel.devCreate (s.scanned c) c.env = some (s'.kernel, rc) ∧
            (s.dsCount < maxPartners → Added { s with ioctlObj := s.scanned c } c s'))) := by
  unfold create at h
  dsimp only at h
  split at h
  · rename_i hrep
    cases h
    exact ⟨rfl, Or.inl ⟨hrep, rfl⟩⟩
  · rename_i hrep
    split at h
    · rename_i hcopied
      cases h
      exact ⟨rfl, Or.inr (Or.inl ⟨hrep, hcopied, rfl⟩)⟩
    · rename_i hcopied
      obtain ⟨⟨k', rc⟩, hk, h⟩ := Option.bind_eq_some_iff.mp h
      obtain ⟨hkernel, hioctl, hadd⟩ := diskSourceCreate_spec h
      dsimp only at hkernel
      refine ⟨hioctl, Or.inr (Or.inr ⟨hrep, by simpa using hcopied, rc, ?_, ?_⟩)⟩
      · rw [hkernel]
        exact hk
      · intro hlt
        obtain ⟨hdisk, hrow, hcount⟩ := hadd hlt
        exact ⟨hdisk, hrow, hcount⟩

theorem step_cases (h : step a s c = some s') :
    s.running = true ∧ s.create a c = some s' := by
  unfold step at h
  rwa [Option.ite_none_right_eq_some] at h

/-! ### The daemon's table and the kernel's -/

/-- The daemon's source disks are the kernel's devices: entry `k` is device `k + 1`, and there is one
row for each. -/
structure Agree (s : SourceDaemon) : Prop where
  count : s.dsCount + 1 = s.kernel.minor
  name : ∀ k < s.dsCount, (s.disk k).name = (s.kernel.device (k + 1)).diskName
  inUse : ∀ k, (s.disk k).objState = .inUse ↔ k < s.dsCount
  rows : s.db.disk.map (fun r => (r.pid, r.name)) =
    (List.range s.dsCount).map fun k => (k, nameString (CString.text (s.disk k).name))

/-- The command creates no device, or it creates one, its row is stored as given, and the node is
mapped. -/
def Paired (s : SourceDaemon) (c : CreateCmd) : Prop :=
  s.Reports c ∨ c.copied = false ∨
    ((s.kernel.devCreate (s.scanned c) c.env).map Prod.snd = some 0 ∧
      c.stored = some (nameString c.name.bytes) ∧ c.mapped = true)

/-- `src_disk` keeps its length. -/
def Buffered (s : SourceDaemon) : Prop := s.ioctlObj.srcDisk.length = 64

theorem Buffered.scanned (hb : s.Buffered) (c : CreateCmd) :
    (s.scanned c).srcDisk.length = 64 := by
  have hlen : c.name.bytes.length < s.ioctlObj.srcDisk.length := by
    rw [hb]
    exact c.name.short
  exact (CString.length_store hlen).trans hb

theorem Buffered.take_scanned (hb : s.Buffered) (c : CreateCmd) :
    (s.scanned c).srcDisk.take 64 = (s.scanned c).srcDisk := by
  apply List.take_of_length_le
  rw [hb.scanned]

theorem text_scanned (s : SourceDaemon) (c : CreateCmd) :
    CString.text (s.scanned c).srcDisk = c.name.bytes :=
  CString.text_store c.name.word

theorem Agree.init : Agree init where
  count := rfl
  name := by
    intro k hk
    exact absurd hk (Nat.not_lt_zero k)
  inUse := by
    intro k
    simp [SourceDaemon.init]
  rows := rfl

theorem Agree.dsCount_lt (h : Agree s) (hk : s.kernel.minor < maxMinor) :
    s.dsCount < maxPartners := by
  have hcount := h.count
  unfold maxMinor at hk
  unfold maxPartners
  omega

theorem Agree.create (h : Agree s) {r : String}
    (hdisk : s'.disk = Function.update s.disk s.dsCount
      ⟨.inUse, (s.scanned c).srcDisk, c.bitmapSize⟩)
    (hdb : s'.db = s.db.insertIntoDisk s.dsCount r "-" c.bitmapSize .inUse)
    (hcount : s'.dsCount = s.dsCount + 1) (hminor : s'.kernel.minor = s.kernel.minor + 1)
    (hname : (s'.kernel.device s.kernel.minor).diskName = (s.scanned c).srcDisk)
    (hothers : ∀ i, i ≠ s.kernel.minor →
      (s'.kernel.device i).diskName = (s.kernel.device i).diskName) :
    Agree s' ↔ r = nameString c.name.bytes := by
  have hold : ∀ k < s.dsCount, s'.disk k = s.disk k := by
    intro k hk
    rw [hdisk, Function.update_of_ne (by omega)]
  have hnew : s'.disk s.dsCount = ⟨.inUse, (s.scanned c).srcDisk, c.bitmapSize⟩ := by
    rw [hdisk, Function.update_self]
  have hrows : s'.db.disk.map (fun r => (r.pid, r.name)) =
      (List.range s'.dsCount).map (fun k => (k, nameString (CString.text (s'.disk k).name))) ↔
        r = nameString c.name.bytes := by
    have hmap : (List.range s.dsCount).map
        (fun k => (k, nameString (CString.text (s'.disk k).name))) =
          s.db.disk.map fun r => (r.pid, r.name) := by
      rw [h.rows]
      apply List.map_congr_left
      intro k hk
      rw [hold k (List.mem_range.mp hk)]
    rw [hdb, hcount, List.range_succ, List.map_append, hmap, List.map_singleton, hnew,
      text_scanned, Db.insertIntoDisk, List.map_append, List.map_singleton,
      List.append_cancel_left_eq]
    simp
  constructor
  · intro h'
    exact hrows.mp h'.rows
  · intro hr
    refine ⟨?_, ?_, ?_, hrows.mpr hr⟩
    · rw [hcount, hminor, h.count]
    · intro k hk
      rw [hcount] at hk
      by_cases heq : k = s.dsCount
      · rw [heq, hnew, h.count, hname]
      · have hcnt := h.count
        rw [hold k (by omega), hothers (k + 1) (by omega)]
        exact h.name k (by omega)
    · intro k
      rw [hcount]
      by_cases heq : k = s.dsCount
      · rw [heq, hnew]
        simp
      · rw [hdisk, Function.update_of_ne heq, h.inUse k]
        omega

theorem Agree.not_added (h : Agree s)
    (hdisk : s'.disk = Function.update s.disk s.dsCount
      ⟨.inUse, (s.scanned c).srcDisk, c.bitmapSize⟩)
    (hminor : s'.kernel.minor = s.kernel.minor) : ¬ Agree s' := by
  intro h'
  have hcount : s'.dsCount = s.dsCount := by
    have := h.count
    have := h'.count
    omega
  have hlt := (h'.inUse s.dsCount).mp (by rw [hdisk, Function.update_self])
  omega

/-- One command: it keeps the agreement if it is paired, and breaks it otherwise. -/
theorem agree_step (h : Agree s ∧ Buffered s) (hs : step a s c = some s') :
    (Paired s c → Agree s' ∧ Buffered s') ∧ (Agree s' → Paired s c) := by
  obtain ⟨hagree, hbuf⟩ := h
  obtain ⟨-, hcreate⟩ := step_cases hs
  obtain ⟨hioctl, hcase⟩ := create_cases hcreate
  have hbuf' : Buffered s' := by
    rw [Buffered, hioctl]
    exact hbuf.scanned c
  obtain ⟨hrep, rfl⟩ | ⟨-, hcopied, rfl⟩ | ⟨hrep, hcopied, rc, hk, hadd⟩ := hcase
  · exact ⟨fun _ => ⟨⟨hagree.count, hagree.name, hagree.inUse, hagree.rows⟩, hbuf'⟩,
      fun _ => Or.inl hrep⟩
  · exact ⟨fun _ => ⟨⟨hagree.count, hagree.name, hagree.inUse, hagree.rows⟩, hbuf'⟩,
      fun _ => Or.inr (Or.inl hcopied)⟩
  · obtain ⟨hdisk, hrow, hcount⟩ := hadd (hagree.dsCount_lt (Kernel.devCreate_lt hk))
    dsimp only at hdisk hrow hcount
    rw [hbuf.take_scanned] at hdisk
    have hpaired : Paired s c ↔
        rc = 0 ∧ c.stored = some (nameString c.name.bytes) ∧ c.mapped = true := by
      unfold Paired
      rw [hk, Option.map_some, Option.some.injEq]
      simp [hrep, hcopied]
    rw [hpaired]
    obtain ⟨rfl, hminor, hname, hothers⟩ | ⟨rfl, hminor, -⟩ := Kernel.devCreate_names hk
    · rw [hbuf.take_scanned] at hname
      by_cases hcounted : c.stored.isSome = true ∧ c.mapped = true
      · rw [if_pos hcounted] at hcount
        obtain ⟨r, hr⟩ := Option.isSome_iff_exists.mp hcounted.1
        have hiff := hagree.create hdisk (hrow r hr) hcount hminor hname hothers
        rw [hr]
        constructor
        · rintro ⟨-, hstored, -⟩
          exact ⟨hiff.mpr (Option.some.inj hstored), hbuf'⟩
        · intro h'
          exact ⟨rfl, congrArg some (hiff.mp h'), hcounted.2⟩
      -- the kernel has one more device, and `ds_count` is as before
      · rw [if_neg hcounted] at hcount
        constructor
        · rintro ⟨-, hstored, hmapped⟩
          exact absurd ⟨by rw [hstored]; rfl, hmapped⟩ hcounted
        · intro h'
          have := hagree.count
          have := h'.count
          omega
    · constructor
      · rintro ⟨hrc, -⟩
        exact absurd hrc (by decide)
      · intro h'
        exact absurd h' (hagree.not_added hdisk hminor)

/-- **Daemon and kernel agree on the devices** all along a run, if and only if each of its commands is
refused by the search, or finds the kernel's copy failing, or has its device created, its row stored
and its node mapped. -/
theorem devices_agree_iff {a : LocalArrays} {cs : List CreateCmd} {s : SourceDaemon}
    (hr : run (step a) init cs = some s) :
    Always (step a) Agree init cs ↔ Meets (step a) Paired init cs := by
  apply always_iff_meets (I := fun s => Agree s ∧ Buffered s) (fun _ h => h.1)
    (fun _ _ _ => agree_step) _ hr
  exact ⟨Agree.init, List.length_replicate⟩

/-- `/dev/sdb`. -/
def sdb : DiskName := ⟨[47, 100, 101, 118, 47, 115, 100, 98], by decide, by decide, by decide⟩

/-- A create in which nothing fails. -/
def working (name : DiskName) : CreateCmd where
  name := name
  grainSize := 4096
  bitmapSize := 16384
  copied := true
  env := ⟨true, true, true, true⟩
  stored := some (nameString name.bytes)
  mapped := true

/-- A create whose backing device is not attached: its memory-control node is gone again. -/
def unattached (name : DiskName) : CreateCmd :=
  { working name with env := ⟨true, true, true, false⟩, mapped := false }

/-- The same name twice. -/
theorem devices_agree_sample :
    ∃ s, run (step .source) init [working sdb, working sdb] = some s ∧
      (Always (step .source) Agree init [working sdb, working sdb] ↔
        Meets (step .source) Paired init [working sdb, working sdb]) := by
  have hsome : (run (step .source) init [working sdb, working sdb]).isSome = true := by
    decide +kernel
  obtain ⟨s, hs⟩ := Option.isSome_iff_exists.mp hsome
  exact ⟨s, hs, devices_agree_iff hs⟩

/-- The daemon does not look at a positive result of `EBDRCTL_DEV_CREATE`. -/
theorem unattached_added :
    ¬ ∀ cs s, run (step .source) init cs = some s → Always (step .source) Agree init cs := by
  intro hall
  have hrun : (run (step .source) init [unattached sdb]).map
      (fun s => ((s.disk 0).objState, s.dsCount)) = some (.inUse, 0) := by decide +kernel
  obtain ⟨s, hs, heq⟩ := Option.map_eq_some_iff.mp hrun
  rw [Prod.mk.injEq] at heq
  have hagree := hall _ s hs _ s (List.prefix_refl _) hs
  have hlt := (hagree.inUse 0).mp heq.1
  rw [heq.2] at hlt
  exact absurd hlt (Nat.lt_irrefl 0)

/-! ### The search by name -/

/-- Some device was created with this name. -/
def InUse (s : SourceDaemon) (name : List UInt8) : Prop :=
  ∃ i, s.kernel.Created i ∧ CString.text (s.kernel.device i).diskName = name

/-- The search reports a device exactly when the name is in use. -/
def SearchRight (s : SourceDaemon) (c : CreateCmd) : Prop :=
  s.Reports c ↔ s.InUse c.name.bytes

/-- No two devices have the same name. -/
def Distinct (s : SourceDaemon) : Prop :=
  ∀ i j, s.kernel.Created i → s.kernel.Created j →
    CString.text (s.kernel.device i).diskName = CString.text (s.kernel.device j).diskName → i = j

/-- Two names of at least 20 characters with the same first 20. -/
def SamePrefix (x y : List UInt8) : Prop :=
  20 ≤ x.length ∧ 20 ≤ y.length ∧ x.take 20 = y.take 20

/-- Device `i` has the name of the command, and the same bytes behind it up to the 20th. -/
def Bears (s : SourceDaemon) (c : CreateCmd) (i : Nat) : Prop :=
  CString.text (s.kernel.device i).diskName = c.name.bytes ∧
    CString.rest (s.kernel.device i).diskName 20 = CString.rest (s.scanned c).srcDisk 20

/-- Device `i` has another name that agrees with the command's in its first 20 characters. -/
def Collides (s : SourceDaemon) (c : CreateCmd) (i : Nat) : Prop :=
  CString.text (s.kernel.device i).diskName ≠ c.name.bytes ∧
    SamePrefix (CString.text (s.kernel.device i).diskName) c.name.bytes

/-- What the search needs: for a name in use, a device below 10 that bears it with the same bytes
behind it or collides with it; for any other name, no device below 10 that collides with it. -/
def SearchOk (s : SourceDaemon) (c : CreateCmd) : Prop :=
  (s.InUse c.name.bytes → ∃ i < 10, s.kernel.Created i ∧ (s.Bears c i ∨ s.Collides c i)) ∧
    (¬ s.InUse c.name.bytes → ∀ i < 10, s.kernel.Created i → ¬ s.Collides c i)

/-- Every buffer holds a string, and the entries that no create has named are zero. -/
structure Named (s : SourceDaemon) : Prop where
  buffered : s.Buffered
  minor_pos : 1 ≤ s.kernel.minor
  string : ∀ i, s.kernel.Created i → (0 : UInt8) ∈ (s.kernel.device i).diskName
  zero : ∀ i, ¬ s.kernel.Created i → (s.kernel.device i).diskName = List.replicate 64 0

theorem Named.init : Named init where
  buffered := List.length_replicate
  minor_pos := le_refl 1
  string := by
    rintro i ⟨h1, h2⟩
    exact absurd h2 (Nat.not_lt.mpr h1)
  zero := fun _ _ => rfl

theorem Named.zero_mem (h : Named s) (i : Nat) : (0 : UInt8) ∈ (s.kernel.device i).diskName := by
  by_cases hi : s.kernel.Created i
  · exact h.string i hi
  · rw [h.zero i hi]
    decide

theorem Named.match_iff (h : Named s) (c : CreateCmd) (i : Nat) :
    (s.kernel.device i).diskName.take 20 = (s.scanned c).srcDisk.take 20 ↔
      s.Bears c i ∨ s.Collides c i := by
  have hzero : (0 : UInt8) ∈ (s.scanned c).srcDisk := CString.zero_mem_store _ _
  rw [CString.take_eq_take_iff (h.zero_mem i) hzero, text_scanned]
  rfl

theorem Named.not_match (h : Named s) {c : CreateCmd} {i : Nat} (hi : ¬ s.kernel.Created i) :
    ¬ (s.Bears c i ∨ s.Collides c i) := by
  have htext : CString.text (s.kernel.device i).diskName = [] := by
    rw [h.zero i hi]
    decide
  rintro (⟨hname, -⟩ | ⟨-, hlen, -⟩)
  · rw [htext] at hname
    exact c.name.nonempty hname.symm
  · rw [htext] at hlen
    exact absurd hlen (by decide)

theorem Named.reports_iff (h : Named s) (c : CreateCmd) :
    s.Reports c ↔ ∃ i < 10, s.kernel.Created i ∧ (s.Bears c i ∨ s.Collides c i) := by
  unfold Reports Kernel.blkdevSearch
  rw [List.any_eq_true]
  constructor
  · rintro ⟨i, hi, hmatch⟩
    have hm := (h.match_iff c i).mp (of_decide_eq_true hmatch)
    refine ⟨i, List.mem_range.mp hi, ?_, hm⟩
    by_contra hnot
    exact h.not_match hnot hm
  · rintro ⟨i, hi, -, hm⟩
    exact ⟨i, List.mem_range.mpr hi, decide_eq_true ((h.match_iff c i).mpr hm)⟩

theorem Named.searchRight_iff (h : Named s) (c : CreateCmd) : s.SearchRight c ↔ s.SearchOk c := by
  unfold SearchRight SearchOk
  rw [h.reports_iff]
  constructor
  · intro hiff
    refine ⟨hiff.mpr, fun hnot i hi hc hcol => ?_⟩
    exact hnot (hiff.mp ⟨i, hi, hc, Or.inr hcol⟩)
  · rintro ⟨hin, hout⟩
    refine ⟨?_, hin⟩
    rintro ⟨i, hi, hc, hbears | hcol⟩
    · exact ⟨i, hc, hbears.1⟩
    · by_contra hnot
      exact hout hnot i hi hc hcol

/-- A step makes no device, or it makes the next one, with the name of a command that the search did
not find. -/
theorem step_devices (hb : s.Buffered) (hs : step a s c = some s') :
    s'.Buffered ∧
      (s.kernel.SameNames s'.kernel ∨
        (¬ s.Reports c ∧ s'.kernel.minor = s.kernel.minor + 1 ∧
          (s'.kernel.device s.kernel.minor).diskName = (s.scanned c).srcDisk ∧
          ∀ i, i ≠ s.kernel.minor →
            (s'.kernel.device i).diskName = (s.kernel.device i).diskName)) := by
  obtain ⟨-, hcreate⟩ := step_cases hs
  obtain ⟨hioctl, hcase⟩ := create_cases hcreate
  refine ⟨?_, ?_⟩
  · rw [Buffered, hioctl]
    exact hb.scanned c
  · obtain ⟨-, rfl⟩ | ⟨-, -, rfl⟩ | ⟨hrep, -, rc, hk, -⟩ := hcase
    · exact Or.inl ⟨rfl, fun _ => rfl⟩
    · exact Or.inl ⟨rfl, fun _ => rfl⟩
    · obtain ⟨-, hminor, hname, hothers⟩ | ⟨-, hsame⟩ := Kernel.devCreate_names hk
      · rw [hb.take_scanned] at hname
        exact Or.inr ⟨hrep, hminor, hname, hothers⟩
      · exact Or.inl hsame

theorem Named.step (h : Named s) (hs : step a s c = some s') : Named s' := by
  obtain ⟨hbuf, hcase⟩ := step_devices h.buffered hs
  have hpos := h.minor_pos
  obtain ⟨hminor, hnames⟩ | ⟨-, hminor, hname, hothers⟩ := hcase
  · refine ⟨hbuf, by omega, ?_, ?_⟩
    · intro i hi
      rw [hnames i]
      exact h.zero_mem i
    · intro i hi
      rw [hnames i]
      apply h.zero i
      rwa [Kernel.Created, ← hminor]
  · refine ⟨hbuf, by omega, ?_, ?_⟩
    · intro i hi
      by_cases heq : i = s.kernel.minor
      · rw [heq, hname]
        exact CString.zero_mem_store _ _
      · rw [hothers i heq]
        exact h.zero_mem i
    · intro i hi
      unfold Kernel.Created at hi
      rw [hothers i (by omega)]
      apply h.zero i
      unfold Kernel.Created
      omega

theorem Distinct.step (hb : s.Buffered) (h : Distinct s) (hright : s.SearchRight c)
    (hs : step a s c = some s') : Distinct s' := by
  obtain ⟨-, hcase⟩ := step_devices hb hs
  intro i j hi hj heq
  obtain ⟨hminor, hnames⟩ | ⟨hrep, hminor, hname, hothers⟩ := hcase
  · rw [hnames i, hnames j] at heq
    unfold Kernel.Created at hi hj
    rw [hminor] at hi hj
    exact h i j hi hj heq
  · have hnew : ∀ k, s.kernel.Created k →
        CString.text (s.kernel.device k).diskName ≠ c.name.bytes := by
      intro k hk hname
      exact hrep (hright.mpr ⟨k, hk, hname⟩)
    have hold : ∀ k, s'.kernel.Created k → k ≠ s.kernel.minor → s.kernel.Created k := by
      rintro k ⟨h1, h2⟩ hne
      exact ⟨h1, by omega⟩
    by_cases hi' : i = s.kernel.minor
    · by_cases hj' : j = s.kernel.minor
      · rw [hi', hj']
      · rw [hi', hname, text_scanned, hothers j hj'] at heq
        exact absurd heq.symm (hnew j (hold j hj hj'))
    · by_cases hj' : j = s.kernel.minor
      · rw [hj', hname, text_scanned, hothers i hi'] at heq
        exact absurd heq (hnew i (hold i hi hi'))
      · rw [hothers i hi', hothers j hj'] at heq
        exact h i j (hold i hi hi') (hold j hj hj') heq

theorem Distinct.init : Distinct init := by
  rintro i j ⟨h1, h2⟩
  exact absurd h2 (Nat.not_lt.mpr h1)

/-- **A disk is tracked by at most one device**: the search is right at every command of a run, and no
two devices ever have the same name, if and only if every command gives the search what it
needs. -/
theorem search_iff (a : LocalArrays) (cs : List CreateCmd) :
    (Meets (step a) SearchRight init cs ∧ Always (step a) Distinct init cs) ↔
      Meets (step a) SearchOk init cs := by
  have hiff : Meets (step a) SearchRight init cs ↔ Meets (step a) SearchOk init cs :=
    meets_congr Named.init (fun _ _ _ h hs => h.step hs) fun _ c h => h.searchRight_iff c
  rw [← hiff]
  refine ⟨And.left, fun hright => ⟨hright, ?_⟩⟩
  rintro cs' t ⟨ds, rfl⟩ hrun
  apply And.right (a := Named t)
  apply run_inv (I := fun s => Named s ∧ Distinct s) _ ⟨Named.init, Distinct.init⟩
    (meets_append.mp hright).1 hrun
  intro s c s' hs hok hstep
  exact ⟨hs.1.step hstep, hs.2.step hs.1.buffered hok hstep⟩

/-- `/dev/mapper/data`. -/
def mapperData : DiskName :=
  ⟨[47, 100, 101, 118, 47, 109, 97, 112, 112, 101, 114, 47, 100, 97, 116, 97], by decide, by decide,
    by decide⟩

/-- A name is not found again when a longer one was scanned between. -/
theorem same_name_twice :
    ¬ ∀ cs, Meets (step .source) SearchRight init cs ∧ Always (step .source) Distinct init cs := by
  intro hall
  have hrun : (run (step .source) init [working sdb, working mapperData, working sdb]).map
      (fun s => (s.kernel.minor, CString.text (s.kernel.device 1).diskName,
        CString.text (s.kernel.device 3).diskName)) = some (4, sdb.bytes, sdb.bytes) := by
    decide +kernel
  obtain ⟨s, hs, heq⟩ := Option.map_eq_some_iff.mp hrun
  simp only [Prod.mk.injEq] at heq
  obtain ⟨hminor, h1, h3⟩ := heq
  have hdistinct := (hall _).2 _ s (List.prefix_refl _) hs
  have heq : 1 = 3 := by
    apply hdistinct 1 3
    · exact ⟨by decide, by rw [hminor]; decide⟩
    · exact ⟨by decide, by rw [hminor]; decide⟩
    · rw [h1, h3]
  cases heq

end SourceDaemon

end Ebdr
