import Ebdr.Daemon.SourceDisks

/-!
# The tables of a create

The kernel module keeps what belongs to a device in seven arrays, all indexed by `minor`, and the
server's daemon keeps it in two arrays of 2048 entries and in two local ones of five, all indexed by
`ds_count`. The one check is that of `ds_count` against 2048.

`create_bounds_iff` says for which commands of a run all the indices lie in the arrays, and a
create without room is refused with nothing changed.
-/

namespace Ebdr

open Lts

/-- The arrays that a create uses. -/
inductive CreateTable where
  | device
  | blkdev
  | bdDev
  | vmallocArea
  | vmallocAreaSz
  | ebdrMemctlDev
  | ctrldevName
  | ebdrDiskSrcObj
  | recoveryMode
  /-- `memory_fd` in `disk_source_mmap`. -/
  | memoryFd
  /-- `memctl_dev_name` in `disk_source_mmap`. -/
  | memctlDevName
  deriving DecidableEq, Repr

/-- The length each array is defined with. Some of the `extern` declarations say `MAX_MINOR + 1`. -/
def CreateTable.size : CreateTable → Nat
  | device | blkdev | bdDev | vmallocArea | vmallocAreaSz | ebdrMemctlDev | ctrldevName => maxMinor
  | ebdrDiskSrcObj | recoveryMode => maxPartners
  | memoryFd | memctlDevName => LocalArrays.source.memoryFd

/-- An entry of an array that is used. -/
structure CreateAccess where
  table : CreateTable
  index : Nat
  deriving DecidableEq, Repr

def CreateAccess.Inside (a : CreateAccess) : Prop := a.index < a.table.size

instance instDecidableCreateInside (a : CreateAccess) : Decidable a.Inside := inferInstanceAs (Decidable (_ < _))

/-- The accesses of `EBDRCTL_DEV_CREATE`, in order. Where `env.attach` is `false`, `made` says whether
it was the backing device that could not be opened, after the block device was made. -/
def Kernel.createAccesses (k : Kernel) (o : Ioctl) (env : CreateEnv) (made : Bool) :
    List CreateAccess :=
  let atMinor (tables : List CreateTable) : List CreateAccess := tables.map (⟨·, k.minor⟩)
  let k0 := { k with vmallocAreaSz := Function.update k.vmallocAreaSz k.minor o.uBitmapSize }
  -- `ebdr_alloc_memory_mmap`
  atMinor [.vmallocAreaSz, .vmallocAreaSz, .vmallocArea] ++
    if (k0.ebdrAllocMemoryMmap k.minor env.vmalloc).2 = false then []
    else
      -- `ebdr_register_kernel_memctl_device`
      atMinor [.vmallocAreaSz, .vmallocArea, .ctrldevName, .ebdrMemctlDev] ++
        if env.classCreate = false then []
        else
          -- `ebdr_device_create` with `ebdr_init_bmap`, and `ebdr_blkdev_create`
          atMinor [.device] ++
            (if env.kzalloc = true then atMinor [.vmallocArea, .vmallocAreaSz] else []) ++
              atMinor [.device] ++
                -- `ebdr_device_attach_blkdev`
                if env.attach = true then atMinor [.device, .blkdev, .bdDev, .device]
                else
                  (if made = true then atMinor [.device, .blkdev, .device, .blkdev] else []) ++
                    -- `ebdr_minor_cleanup`
                    ((List.range' 1 (k.minor - 1)).flatMap fun i => [⟨.device, i⟩, ⟨.blkdev, i⟩]) ++
                      atMinor [.vmallocArea, .ebdrMemctlDev, .ctrldevName]

namespace SourceDaemon

/-- The accesses of `disk_source_create` with `disk_source_mmap`. -/
def diskSourceCreateAccesses (s : SourceDaemon) (c : CreateCmd) : List CreateAccess :=
  let atCount (tables : List CreateTable) : List CreateAccess := tables.map (⟨·, s.dsCount⟩)
  atCount [.ebdrDiskSrcObj] ++
    if s.dsCount < maxPartners then
      atCount [.ebdrDiskSrcObj, .recoveryMode, .ebdrDiskSrcObj] ++
        match c.stored with
        | none => []
        | some _ =>
          atCount [.memctlDevName, .memoryFd, .ebdrDiskSrcObj] ++
            -- `ebdr_dev_ctr_mmap`, which is not reached when the node cannot be opened
            [⟨.device, s.dsCount + 1⟩, ⟨.vmallocArea, s.dsCount + 1⟩]
    else []

/-- The accesses of a `c` command. A positive result of the kernel is not looked at. -/
def createAccesses (s : SourceDaemon) (c : CreateCmd) (made : Bool) : List CreateAccess :=
  let s := { s with ioctlObj := s.scanned c }
  if s.isDiskCreated = true then []
  else if c.copied = false then []
  else s.kernel.createAccesses s.ioctlObj c.env made ++ s.diskSourceCreateAccesses c

/-- Every array has an entry for the next device. -/
structure Room (s : SourceDaemon) : Prop where
  kernel : s.kernel.minor < maxMinor
  disk : s.dsCount < maxPartners
  mmap : s.dsCount < LocalArrays.source.memoryFd

/-- The command is refused: nothing but the buffer it was scanned into is changed. -/
def Refused (a : LocalArrays) (s : SourceDaemon) (c : CreateCmd) : Prop :=
  s.step a c = some { s with ioctlObj := s.scanned c }

/-- No access leaves its array, and a create that would exceed one is refused. -/
structure Guarded (a : LocalArrays) (s : SourceDaemon) (c : CreateCmd) : Prop where
  inside : ∀ made, ∀ x ∈ s.createAccesses c made, x.Inside
  refused : ¬ s.Room → Refused a s c

/-! ### One command -/

variable {a : LocalArrays} {s s' : SourceDaemon} {c : CreateCmd}

/-- While the daemon runs, `ds_count` has stayed within the local arrays, its entry and those behind
it were never used, and each device but the first minor was counted. -/
structure Ready (a : LocalArrays) (s : SourceDaemon) : Prop where
  count_le : s.dsCount ≤ a.memoryFd
  free : ∀ k, s.dsCount ≤ k → (s.disk k).objState = .free
  minor_le : s.kernel.minor ≤ s.dsCount + 1

theorem Ready.init (a : LocalArrays) : Ready a init where
  count_le := Nat.zero_le _
  free := fun _ _ => rfl
  minor_le := le_refl 1

theorem diskSourceCreate_running (h : s.diskSourceCreate a c = some s') (hr : s'.running = true)
    (hlt : s.dsCount < maxPartners) :
    s.dsCount < a.memoryFd ∧ s'.dsCount = s.dsCount + 1 := by
  unfold diskSourceCreate at h
  dsimp only at h
  rw [if_pos hlt, Option.ite_none_left_eq_some] at h
  obtain ⟨-, h⟩ := h
  cases hrow : c.stored with
  | none =>
    rw [hrow] at h
    rw [← Option.some.inj h] at hr
    exact absurd hr Bool.false_ne_true
  | some row =>
    rw [hrow] at h
    dsimp only at h
    rw [Option.ite_none_left_eq_some] at h
    obtain ⟨hfd, h⟩ := h
    refine ⟨Nat.lt_of_not_le hfd, ?_⟩
    split at h
    · rw [← Option.some.inj h] at hr
      exact absurd hr Bool.false_ne_true
    · rw [← Option.some.inj h]

theorem create_passes (hrep : ¬ s.Reports c) (hcopied : c.copied = true)
    (h : s.create a c = some s') :
    ∃ k rc, s.kernel.devCreate (s.scanned c) c.env = some (k, rc) ∧
      { s with ioctlObj := s.scanned c, kernel := k }.diskSourceCreate a c = some s' := by
  have hsearch : ¬ { s with ioctlObj := s.scanned c }.isDiskCreated = true := hrep
  unfold create at h
  dsimp only at h
  rw [if_neg hsearch, if_neg (by simp [hcopied])] at h
  obtain ⟨⟨k, rc⟩, hk, h⟩ := Option.bind_eq_some_iff.mp h
  exact ⟨k, rc, hk, h⟩

theorem Ready.step (ha : a.memoryFd < maxPartners) (h : Ready a s) (hs : s.step a c = some s')
    (hr : s'.running = true) : Ready a s' := by
  obtain ⟨hrun, hcreate⟩ := step_cases hs
  obtain ⟨-, ⟨-, rfl⟩ | ⟨-, -, rfl⟩ | ⟨hrep, hcopied, -⟩⟩ := create_cases hcreate
  · exact ⟨h.count_le, h.free, h.minor_le⟩
  · exact absurd hr Bool.false_ne_true
  · obtain ⟨k, rc, hk, hadd⟩ := create_passes hrep hcopied hcreate
    have hlt : s.dsCount < maxPartners := Nat.lt_of_le_of_lt h.count_le ha
    obtain ⟨hfd, hcount⟩ := diskSourceCreate_running hadd hr hlt
    obtain ⟨hkernel, -, hadded⟩ := diskSourceCreate_spec hadd
    dsimp only at hfd hcount hkernel
    have hminor : k.minor ≤ s.kernel.minor + 1 := by
      obtain ⟨-, hm, -⟩ | ⟨-, hm, -⟩ := Kernel.devCreate_names hk
      · exact Nat.le_of_eq hm
      · rw [hm]
        exact Nat.le_succ _
    refine ⟨?_, ?_, ?_⟩
    · rw [hcount]
      exact hfd
    · intro i hi
      rw [hcount] at hi
      have hdisk := (hadded hlt).disk
      dsimp only at hdisk
      rw [hdisk, Function.update_of_ne (by omega)]
      exact h.free i (by omega)
    · have hle := h.minor_le
      rw [hkernel, hcount]
      omega

/-- The kernel's arrays are never the first to be full. -/
theorem Ready.room_iff (h : Ready a s) : s.Room ↔ s.dsCount < LocalArrays.source.memoryFd := by
  constructor
  · exact Room.mmap
  · intro hlt
    have hfd : LocalArrays.source.memoryFd = 5 := rfl
    have hle := h.minor_le
    refine ⟨?_, ?_, hlt⟩
    · unfold maxMinor
      omega
    · unfold maxPartners
      omega

/-! ### The accesses -/

theorem inside_map {i n : Nat} (hi : i < n) {l : List CreateTable}
    (h : ∀ t ∈ l, n ≤ t.size) : ∀ x ∈ l.map (CreateAccess.mk · i), x.Inside := by
  intro x hx
  obtain ⟨t, ht, rfl⟩ := List.mem_map.mp hx
  exact Nat.lt_of_lt_of_le hi (h t ht)

theorem inside_ite {p : Prop} [Decidable p] {l l' : List CreateAccess}
    (h : ∀ x ∈ l, x.Inside) (h' : ∀ x ∈ l', x.Inside) : ∀ x ∈ if p then l else l', x.Inside := by
  split
  · exact h
  · exact h'

theorem inside_nil : ∀ x ∈ ([] : List CreateAccess), x.Inside := fun _ hx =>
  absurd hx List.not_mem_nil

theorem cleanup_inside {minor : Nat} (h : minor < maxMinor) :
    ∀ x ∈ (List.range' 1 (minor - 1)).flatMap
      (fun i => [(⟨.device, i⟩ : CreateAccess), ⟨.blkdev, i⟩]), x.Inside := by
  intro x hx
  obtain ⟨i, hi, hx⟩ := List.mem_flatMap.mp hx
  obtain ⟨-, hlt⟩ := List.mem_range'_1.mp hi
  have hi' : i < maxMinor := by omega
  exact inside_map (l := [.device, .blkdev]) hi' (by decide) x hx

theorem kernel_inside {k : Kernel} (h : k.minor < maxMinor) (o : Ioctl) (env : CreateEnv)
    (made : Bool) : ∀ x ∈ k.createAccesses o env made, x.Inside := by
  unfold Kernel.createAccesses
  dsimp only
  rw [List.forall_mem_append]
  refine ⟨inside_map h (by decide), inside_ite inside_nil ?_⟩
  rw [List.forall_mem_append]
  refine ⟨inside_map h (by decide), inside_ite inside_nil ?_⟩
  rw [List.forall_mem_append, List.forall_mem_append, List.forall_mem_append]
  refine ⟨⟨⟨inside_map h (by decide), inside_ite (inside_map h (by decide)) inside_nil⟩,
    inside_map h (by decide)⟩, inside_ite (inside_map h (by decide)) ?_⟩
  rw [List.forall_mem_append, List.forall_mem_append]
  exact ⟨⟨inside_ite (inside_map h (by decide)) inside_nil, cleanup_inside h⟩,
    inside_map h (by decide)⟩

theorem disk_inside (h : s.Room) (c : CreateCmd) :
    ∀ x ∈ s.diskSourceCreateAccesses c, x.Inside := by
  have hfd : LocalArrays.source.memoryFd = 5 := rfl
  have hmmap := h.mmap
  have hnext : s.dsCount + 1 < maxMinor := by
    unfold maxMinor
    omega
  unfold diskSourceCreateAccesses
  dsimp only
  rw [List.forall_mem_append]
  refine ⟨inside_map h.disk (by decide), inside_ite ?_ inside_nil⟩
  rw [List.forall_mem_append]
  refine ⟨inside_map h.disk (by decide), ?_⟩
  cases c.stored with
  | none => exact inside_nil
  | some row =>
    dsimp only
    rw [List.forall_mem_append]
    exact ⟨inside_map h.mmap (by decide),
      inside_map (l := [.device, .vmallocArea]) hnext (by decide)⟩

theorem reported (hrun : s.running = true) (hrep : s.Reports c) :
    Refused a s c ∧ ∀ made, s.createAccesses c made = [] := by
  have hsearch : { s with ioctlObj := s.scanned c }.isDiskCreated = true := hrep
  refine ⟨?_, fun made => ?_⟩
  · unfold Refused step create
    dsimp only
    rw [if_pos hrun, if_pos hsearch]
  · unfold createAccesses
    dsimp only
    rw [if_pos hsearch]

/-- A command that the search lets through is not refused any more: the daemon stops, or its table
has one entry more. -/
theorem not_refused (ha : a.memoryFd < maxPartners) (h : Ready a s) (hrep : ¬ s.Reports c) :
    ¬ Refused a s c := by
  intro href
  obtain ⟨hrun, hcreate⟩ := step_cases href
  obtain ⟨-, ⟨hrep', -⟩ | ⟨-, -, heq⟩ | ⟨-, -, rc, -, hadded⟩⟩ := create_cases hcreate
  · exact hrep hrep'
  · have hstop := congrArg running heq
    dsimp only at hstop
    rw [hrun] at hstop
    exact Bool.noConfusion hstop
  · have hdisk := (hadded (Nat.lt_of_le_of_lt h.count_le ha)).disk
    have hfree := h.free s.dsCount (le_refl _)
    dsimp only at hdisk
    rw [hdisk, Function.update_self] at hfree
    exact DiskObjState.noConfusion hfree

/-- **One command** of a running daemon. -/
theorem guarded_iff (ha : a.memoryFd < maxPartners) (h : Ready a s) (hrun : s.running = true) :
    Guarded a s c ↔ s.Room ∨ s.Reports c := by
  constructor
  · intro hg
    by_contra hnot
    rw [not_or] at hnot
    exact not_refused ha h hnot.2 (hg.refused hnot.1)
  · rintro (hroom | hrep)
    · refine ⟨?_, fun hnot => absurd hroom hnot⟩
      intro made
      unfold createAccesses
      dsimp only
      refine inside_ite inside_nil (inside_ite inside_nil ?_)
      rw [List.forall_mem_append]
      exact ⟨kernel_inside hroom.kernel _ _ _, disk_inside ⟨hroom.kernel, hroom.disk, hroom.mmap⟩ c⟩
    · obtain ⟨href, hnone⟩ := reported hrun hrep
      refine ⟨?_, fun _ => href⟩
      intro made
      rw [hnone made]
      exact inside_nil

/-! ### Runs -/

/-- The command is served, and the property holds of it. -/
def Served (P : SourceDaemon → CreateCmd → Prop) (s : SourceDaemon) (c : CreateCmd) : Prop :=
  s.running = true → P s c

/-- **No create runs off its tables**: in a run every access of every command stays inside its array,
and every create without room is refused with nothing changed, if and only if every command finds
room in all the arrays or has a name that the search reports. -/
theorem create_bounds_iff (str : Nat) (cs : List CreateCmd) :
    Meets (step { LocalArrays.source with str := str })
        (Served (Guarded { LocalArrays.source with str := str })) init cs ↔
      Meets (step { LocalArrays.source with str := str })
        (Served fun s c => s.Room ∨ s.Reports c) init cs := by
  have ha : LocalArrays.source.memoryFd < maxPartners := by decide
  apply meets_congr (I := fun s => s.running = true → Ready { LocalArrays.source with str := str } s)
  · exact fun _ => Ready.init _
  · intro s c s' h hs hr
    exact (h (step_cases hs).1).step ha hs hr
  · intro s c h
    exact forall_congr' fun hrun => guarded_iff ha (h hrun) hrun

/-- The local arrays of `disk_source_mmap` are full first, after five source disks. -/
theorem room_of_run {str : Nat} {cs : List CreateCmd} {s : SourceDaemon}
    (h : run (step { LocalArrays.source with str := str }) init cs = some s)
    (hrun : s.running = true) : s.Room ↔ s.dsCount < 5 := by
  have ha : LocalArrays.source.memoryFd < maxPartners := by decide
  have hready : s.running = true → Ready { LocalArrays.source with str := str } s := by
    apply run_inv (I := fun s => s.running = true →
      Ready { LocalArrays.source with str := str } s) _ (fun _ => Ready.init _) (meets_true _ cs) h
    intro s c s' h _ hs hr
    exact (h (step_cases hs).1).step ha hs hr
  exact (hready hrun).room_iff

/-- `/dev/sda` and the following ones. -/
def scsiDisk (i : Fin 6) : DiskName where
  bytes := [47, 100, 101, 118, 47, 115, 100, 97 + UInt8.ofNat i]
  nonempty := List.cons_ne_nil _ _
  short := by
    show 8 < 64
    decide
  word := by
    revert i
    decide

/-- The sixth disk is opened through entry 5 of `memory_fd`. -/
theorem sixth_disk :
    ¬ ∀ cs, Meets (step .source) (Served (Guarded .source)) init cs := by
  intro hall
  have hrun : (run (step .source) init [working (scsiDisk 0), working (scsiDisk 1),
      working (scsiDisk 2), working (scsiDisk 3), working (scsiDisk 4)]).map
        (fun s => (s.running,
          decide (⟨.memoryFd, 5⟩ ∈ s.createAccesses (working (scsiDisk 5)) true))) =
      some (true, true) := by decide +kernel
  obtain ⟨s, hs, heq⟩ := Option.map_eq_some_iff.mp hrun
  rw [Prod.mk.injEq, decide_eq_true_iff] at heq
  have hmeets := hall [working (scsiDisk 0), working (scsiDisk 1), working (scsiDisk 2),
    working (scsiDisk 3), working (scsiDisk 4), working (scsiDisk 5)]
  have hguarded := meets_last hmeets hs heq.1
  exact absurd (hguarded.inside true _ heq.2) (by decide)

end SourceDaemon

end Ebdr
