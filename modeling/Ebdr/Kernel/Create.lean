import Ebdr.Kernel.Representation

/-!
# `EBDRCTL_DEV_CREATE` with the block layer

`Kernel.devCreate` looks at the bitmaps alone. Here the rest of the module's state stands beside
them: the queue, the disk and the backing device of each minor, and its memory-control device.
Creating a device has four steps, and each cleans up in its own way when it fails: nothing is given
back when the class cannot be made, and `ebdr_minor_cleanup` runs the destruction that is meant for
the exit of the module, over every device made before. `failed_create` says which failures leave the
other devices alone.
-/

namespace Ebdr

open ByteMem CInt

/-- The answers of the calls that `EBDRCTL_DEV_CREATE` makes, in order. -/
structure ModuleEnv where
  vmalloc : Bool
  classCreate : Bool
  kzalloc : Bool
  allocQueue : Bool
  allocDisk : Bool
  getByPath : Bool
  deriving DecidableEq, Repr

/-- What the bitmaps see of the answers. -/
def ModuleEnv.createEnv (env : ModuleEnv) : CreateEnv where
  vmalloc := env.vmalloc
  classCreate := env.classCreate
  kzalloc := env.kzalloc
  attach := env.allocQueue && env.allocDisk && env.getByPath

/-- The module's state. Queues, disks, inodes, open block devices and classes have addresses, and
`live` tells those that were not given back. -/
structure Module where
  kernel : Kernel
  /-- `device[i].rq_queue`. -/
  rqQueue : Nat → Option Nat
  /-- `device[i].vdisk`. -/
  vdisk : Nat → Option Nat
  /-- `device[i].this_bdev`. -/
  thisBdev : Nat → Option Nat
  /-- `device[i].ldev` points to `bd_dev[i]`. -/
  ldev : Nat → Bool
  blkdev : Nat → Option Nat
  memctlDev : Nat → Option Nat
  live : Nat → Bool
  /-- The next address. -/
  next : Nat

namespace Module

/-- The module after `ebdr_init`. -/
def init : Module where
  kernel := Kernel.init
  rqQueue := fun _ => none
  vdisk := fun _ => none
  thisBdev := fun _ => none
  ldev := fun _ => false
  blkdev := fun _ => none
  memctlDev := fun _ => none
  live := fun _ => false
  next := 0

/-- Give back what is at `a`; twice has no meaning. -/
def release (m : Module) (a : Nat) : Option Module :=
  if m.live a = true then some { m with live := Function.update m.live a false } else none

/-- Give back what a pointer points to, if it is not `NULL`. -/
def releaseIfSet (m : Module) (p : Option Nat) : Option Module :=
  match p with
  | some a => m.release a
  | none => some m

/-- `ebdr_blkdev_destroy`. -/
def ebdrBlkdevDestroy (m : Module) (i : Nat) : Option Module := do
  let m := { m with ldev := Function.update m.ldev i false }
  let m ← m.releaseIfSet (m.vdisk i)
  let m := { m with vdisk := Function.update m.vdisk i none }
  let m ← m.releaseIfSet (m.blkdev i)
  let m ← m.releaseIfSet (m.thisBdev i)
  let q ← m.rqQueue i
  m.release q

/-- `ebdr_device_state(EBDR_BLKDEV_DESTROY)`: the devices from 1 on, `n` of them. -/
def blkdevDestroyState (m : Module) : Nat → Option Module
  | 0 => some m
  | n + 1 => (m.blkdevDestroyState n).bind fun m => m.ebdrBlkdevDestroy (n + 1)

/-- `ebdr_register_kernel_memctl_device`. -/
def ebdrRegisterKernelMemctlDevice (m : Module) (minor : Nat) (ok : Bool) : Module × Bool :=
  if ok = true then
    ({ m with
      memctlDev := Function.update m.memctlDev minor (some m.next)
      live := Function.update m.live m.next true
      next := m.next + 1 }, true)
  else ({ m with memctlDev := Function.update m.memctlDev minor none }, false)

/-- `ebdr_blkdev_create`. -/
def ebdrBlkdevCreate (m : Module) (minor : Nat) (env : ModuleEnv) : Module × Bool :=
  if env.allocQueue = false then (m, false)
  else
    let q := m.next
    let m := { m with rqQueue := Function.update m.rqQueue minor (some q), next := q + 1 }
    -- a queue without a disk is cleaned up, and stays in `rq_queue`
    if env.allocDisk = false then ({ m with live := Function.update m.live q false }, false)
    else
      ({ m with
        vdisk := Function.update m.vdisk minor (some (q + 1))
        thisBdev := Function.update m.thisBdev minor (some (q + 2))
        live := Function.update (Function.update (Function.update m.live q true) (q + 1) true)
          (q + 2) true
        next := q + 3 }, true)

/-- `ebdr_device_attach_blkdev`. -/
def ebdrDeviceAttachBlkdev (m : Module) (minor : Nat) (ok : Bool) : Module × Bool :=
  if ok = true then
    ({ m with
      blkdev := Function.update m.blkdev minor (some m.next)
      ldev := Function.update m.ldev minor true
      live := Function.update m.live m.next true
      next := m.next + 1 }, true)
  else ({ m with blkdev := Function.update m.blkdev minor none }, false)

/-- `ebdr_device_state(EBDR_BLKDEV_ATTACH)`. -/
def blkdevAttachState (m : Module) (env : ModuleEnv) : Option (Module × Bool) :=
  let (m, attached) := m.ebdrDeviceAttachBlkdev m.kernel.minor env.getByPath
  if attached = false then (m.ebdrBlkdevDestroy m.kernel.minor).map fun m => (m, false)
  else some (m, true)

/-- `ebdr_device_state(EBDR_BLKDEV_CREATE)`. -/
def blkdevCreateState (m : Module) (env : ModuleEnv) : Option (Module × Bool) :=
  let (m, created) := m.ebdrBlkdevCreate m.kernel.minor env
  if created = false then some (m, false) else m.blkdevAttachState env

/-- `ebdr_device_state(EBDR_DEV_CREATE)`. -/
def devCreateState (m : Module) (o : Ioctl) (env : ModuleEnv) : Option (Module × Bool) := do
  let k ← m.kernel.ebdrInitBmap m.kernel.minor o.uGrainSize env.kzalloc
  { m with kernel := k }.blkdevCreateState env

/-- `ebdr_minor_cleanup`. -/
def ebdrMinorCleanup (m : Module) (minor : Nat) : Option Module := do
  let m ← m.blkdevDestroyState (minor - 1)
  let k := m.kernel
  let m := { m with
    kernel := { k with vmallocArea := Function.update k.vmallocArea minor none } }
  let c ← m.memctlDev minor
  m.release c

/-- `EBDRCTL_DEV_CREATE`, with its return value. -/
def devCreate (m : Module) (o : Ioctl) (env : ModuleEnv) : Option (Module × Nat) :=
  let k := m.kernel
  let minor := k.minor
  if maxMinor ≤ minor then none
  else
    let k := { k with vmallocAreaSz := Function.update k.vmallocAreaSz minor o.uBitmapSize }
    let (k, mapped) := k.ebdrAllocMemoryMmap minor env.vmalloc
    let m := { m with kernel := k }
    if mapped = false then some (m, memctlDevRegError)
    else
      let (m, registered) := m.ebdrRegisterKernelMemctlDevice minor env.classCreate
      if registered = false then some (m, memctlDevRegError)
      else do
        let (m, created) ← m.devCreateState o env
        if created = false then
          let m ← m.ebdrMinorCleanup minor
          some (m, memctlDevRegError)
        else
          let a ← (m.kernel.device minor).bitmap
          let k := m.kernel
          some ({ m with
            kernel := { k with
              bitmaps := Function.update k.bitmaps a { k.bitmaps a with bmapUser := .kernel }
              device := Function.update k.device minor
                { k.device minor with diskName := o.srcDisk.take 64 }
              minor := minor + 1 } }, 0)

/-! ### The property and its condition -/

/-- The memory-control device of minor `i` is registered. -/
def registered (m : Module) (i : Nat) : Bool := (m.memctlDev i).any m.live

/-- What a device consists of. -/
structure DeviceView where
  vdisk : Option (Nat × Bool)
  rqQueue : Option (Nat × Bool)
  ldev : Bool
  blkdev : Option (Nat × Bool)
  device : EbdrDevice
  bitmap : Option EbdrBitmap
  area : Option (Nat × Mem)

def view (m : Module) (i : Nat) : DeviceView where
  vdisk := (m.vdisk i).map fun a => (a, m.live a)
  rqQueue := (m.rqQueue i).map fun a => (a, m.live a)
  ldev := m.ldev i
  blkdev := (m.blkdev i).map fun a => (a, m.live a)
  device := m.kernel.device i
  bitmap := m.kernel.bitmapOf i
  area := (m.kernel.vmallocArea i).map fun r => (r, m.kernel.mem r)

/-- The other devices are as before, nothing is held for the minor that failed, and it is the next one
still. -/
structure Untouched (m m' : Module) : Prop where
  others : ∀ i, m.kernel.Created i → m'.view i = m.view i
  area : m'.kernel.vmallocArea m.kernel.minor = none
  memctl : m'.registered m.kernel.minor = false
  minor : m'.kernel.minor = m.kernel.minor

/-- The devices made so far work, and no later minor has a memory-control device. -/
structure Working (m : Module) : Prop where
  minor_pos : 1 ≤ m.kernel.minor
  minor_le : m.kernel.minor ≤ maxMinor
  vdisk : ∀ i, m.kernel.Created i → ∃ a, m.vdisk i = some a ∧ a < m.next ∧ m.live a = true
  rqQueue : ∀ i, m.kernel.Created i → ∃ a, m.rqQueue i = some a ∧ a < m.next ∧ m.live a = true
  ldev : ∀ i, m.kernel.Created i → m.ldev i = true
  blkdev : ∀ i, m.kernel.Created i → ∃ a, m.blkdev i = some a ∧ a < m.next ∧ m.live a = true
  memctl_lt : ∀ i a, m.memctlDev i = some a → a < m.next
  unregistered : ∀ i, m.kernel.minor ≤ i → m.registered i = false

/-- `vmalloc_user` gives nothing. -/
def MapFails (o : Ioctl) (env : ModuleEnv) : Prop :=
  env.vmalloc = false ∨ ulong (2 * o.uBitmapSize) = 0

/-! ### What the block layer leaves -/

section

variable {m m' : Module}

theorem release_eq {a : Nat} (h : m.release a = some m') :
    m' = { m with live := Function.update m.live a false } := by
  unfold release at h
  rw [Option.ite_none_right_eq_some] at h
  exact (Option.some.inj h.2).symm

theorem releaseIfSet_eq {p : Option Nat} (h : m.releaseIfSet p = some m') :
    ∃ live, m' = { m with live := live } := by
  cases p with
  | none => exact ⟨m.live, (Option.some.inj h).symm⟩
  | some a => exact ⟨_, release_eq h⟩

theorem ebdrBlkdevDestroy_eq {i : Nat} (h : m.ebdrBlkdevDestroy i = some m') :
    ∃ live, m' = { m with
      ldev := Function.update m.ldev i false
      vdisk := Function.update m.vdisk i none
      live := live } := by
  simp only [ebdrBlkdevDestroy, Option.bind_eq_bind, Option.bind_eq_some_iff] at h
  obtain ⟨m1, h1, m2, h2, m3, h3, q, -, h4⟩ := h
  obtain ⟨live1, rfl⟩ := releaseIfSet_eq h1
  obtain ⟨live2, rfl⟩ := releaseIfSet_eq h2
  obtain ⟨live3, rfl⟩ := releaseIfSet_eq h3
  exact ⟨_, release_eq h4⟩

theorem blkdevDestroyState_eq {n : Nat} (h : m.blkdevDestroyState n = some m') :
    m'.kernel = m.kernel ∧ m'.memctlDev = m.memctlDev ∧
      ∀ i, 1 ≤ i → i ≤ n → m'.ldev i = false := by
  induction n generalizing m' with
  | zero =>
    rw [← Option.some.inj h]
    exact ⟨rfl, rfl, fun i h1 h2 => absurd h1 (by omega)⟩
  | succ n ih =>
    obtain ⟨m1, h1, h2⟩ := Option.bind_eq_some_iff.mp h
    obtain ⟨hkernel, hmemctl, hldev⟩ := ih h1
    obtain ⟨live, rfl⟩ := ebdrBlkdevDestroy_eq h2
    refine ⟨hkernel, hmemctl, ?_⟩
    intro i hi hle
    show Function.update m1.ldev (n + 1) false i = false
    by_cases hlast : i = n + 1
    · rw [hlast, Function.update_self]
    · rw [Function.update_of_ne hlast]
      exact hldev i hi (by omega)

theorem ebdrBlkdevCreate_eq (m : Module) (minor : Nat) (env : ModuleEnv) :
    (m.ebdrBlkdevCreate minor env).1.kernel = m.kernel ∧
      (m.ebdrBlkdevCreate minor env).1.memctlDev = m.memctlDev ∧
        (m.ebdrBlkdevCreate minor env).2 = (env.allocQueue && env.allocDisk) := by
  unfold ebdrBlkdevCreate
  cases hq : env.allocQueue with
  | false => simp
  | true =>
    cases hd : env.allocDisk with
    | false => simp
    | true => simp

theorem ebdrDeviceAttachBlkdev_eq (m : Module) (minor : Nat) (ok : Bool) :
    (m.ebdrDeviceAttachBlkdev minor ok).1.kernel = m.kernel ∧
      (m.ebdrDeviceAttachBlkdev minor ok).1.memctlDev = m.memctlDev ∧
        (m.ebdrDeviceAttachBlkdev minor ok).2 = ok := by
  unfold ebdrDeviceAttachBlkdev
  cases ok with
  | false => simp
  | true => simp

/-- Making the block device leaves the bitmaps and the memory-control devices; it succeeds when every
call of the block layer does. -/
theorem blkdevCreateState_eq {env : ModuleEnv} {created : Bool}
    (h : m.blkdevCreateState env = some (m', created)) :
    m'.kernel = m.kernel ∧ m'.memctlDev = m.memctlDev ∧ created = env.createEnv.attach := by
  have hattach : env.createEnv.attach = (env.allocQueue && env.allocDisk && env.getByPath) := rfl
  obtain ⟨hk1, hc1, hb1⟩ := ebdrBlkdevCreate_eq m m.kernel.minor env
  unfold blkdevCreateState at h
  generalize m.ebdrBlkdevCreate m.kernel.minor env = r1 at h hk1 hc1 hb1
  obtain ⟨m1, created1⟩ := r1
  dsimp only at h hk1 hc1 hb1
  rw [hattach, ← hb1]
  cases created1 with
  | false =>
    rw [if_pos rfl, Option.some.injEq, Prod.mk.injEq] at h
    rw [← h.1, ← h.2]
    exact ⟨hk1, hc1, rfl⟩
  | true =>
    rw [if_neg (by decide)] at h
    obtain ⟨hk2, hc2, hb2⟩ := ebdrDeviceAttachBlkdev_eq m1 m1.kernel.minor env.getByPath
    unfold blkdevAttachState at h
    generalize m1.ebdrDeviceAttachBlkdev m1.kernel.minor env.getByPath = r2 at h hk2 hc2 hb2
    obtain ⟨m2, attached⟩ := r2
    dsimp only at h hk2 hc2 hb2
    rw [← hb2, ← hk1, ← hc1, ← hk2, ← hc2]
    cases attached with
    | false =>
      rw [if_pos rfl, Option.map_eq_some_iff] at h
      obtain ⟨m3, h3, heq⟩ := h
      rw [Prod.mk.injEq] at heq
      obtain ⟨live, rfl⟩ := ebdrBlkdevDestroy_eq h3
      rw [← heq.1, ← heq.2]
      exact ⟨rfl, rfl, rfl⟩
    | true =>
      rw [if_neg (by decide), Option.some.injEq, Prod.mk.injEq] at h
      rw [← h.1, ← h.2]
      exact ⟨rfl, rfl, rfl⟩

/-! ### The steps of a create -/

theorem ebdrInitBmap_frame {k k' : Kernel} {minor grainSize : Nat} {kzalloc : Bool}
    (h : k.ebdrInitBmap minor grainSize kzalloc = some k') :
    k'.minor = k.minor ∧ k'.vmallocArea = k.vmallocArea := by
  have hclear : ∀ {k k' : Kernel} {b : EbdrBitmap}, k.ebdrClearBmap b = some k' →
      k'.minor = k.minor ∧ k'.vmallocArea = k.vmallocArea := by
    intro k k' b h
    unfold Kernel.ebdrClearBmap at h
    dsimp only at h
    split at h
    · rw [← Option.some.inj h]
      exact ⟨rfl, rfl⟩
    · obtain ⟨p, -, h⟩ := Option.bind_eq_some_iff.mp h
      rw [Option.ite_none_right_eq_some] at h
      rw [← Option.some.inj h.2]
      exact ⟨rfl, rfl⟩
  unfold Kernel.ebdrInitBmap at h
  dsimp only at h
  split at h
  · have hframe := hclear h
    exact hframe
  · rw [← Option.some.inj h]
    exact ⟨rfl, rfl⟩

/-- The kernel with the size of the area to come. -/
def sized (k : Kernel) (o : Ioctl) : Kernel :=
  { k with vmallocAreaSz := Function.update k.vmallocAreaSz k.minor o.uBitmapSize }

theorem mmap_fails {o : Ioctl} {env : ModuleEnv} (k : Kernel) (hmap : MapFails o env) :
    (sized k o).ebdrAllocMemoryMmap k.minor env.vmalloc =
      ({ sized k o with vmallocArea := Function.update k.vmallocArea k.minor none }, false) := by
  have hnot : ¬ (env.vmalloc = true ∧
      ulong (2 * (sized k o).vmallocAreaSz k.minor) ≠ 0) := by
    rw [show (sized k o).vmallocAreaSz k.minor = o.uBitmapSize from Function.update_self _ _ _]
    rintro ⟨h1, h2⟩
    rcases hmap with hmap | hmap
    · rw [hmap] at h1
      cases h1
    · exact h2 hmap
  unfold Kernel.ebdrAllocMemoryMmap
  dsimp only
  rw [if_neg hnot]
  rfl

theorem mmap_works {o : Ioctl} {env : ModuleEnv} (k : Kernel) (hmap : ¬ MapFails o env) :
    ∃ k1, (sized k o).ebdrAllocMemoryMmap k.minor env.vmalloc = (k1, true) ∧
      k1.minor = k.minor ∧ k1.vmallocArea k.minor = some k.fresh := by
  have hok : env.vmalloc = true ∧ ulong (2 * (sized k o).vmallocAreaSz k.minor) ≠ 0 := by
    rw [show (sized k o).vmallocAreaSz k.minor = o.uBitmapSize from Function.update_self _ _ _]
    rw [MapFails, not_or] at hmap
    exact ⟨(Bool.not_eq_false _).mp hmap.1, hmap.2⟩
  unfold Kernel.ebdrAllocMemoryMmap
  dsimp only
  rw [if_pos hok]
  exact ⟨_, rfl, rfl, Function.update_self _ _ _⟩

theorem ebdrRegisterKernelMemctlDevice_eq (m : Module) (minor : Nat) (ok : Bool) :
    ∃ m1, m.ebdrRegisterKernelMemctlDevice minor ok = (m1, ok) ∧ m1.kernel = m.kernel ∧
      (ok = true → m1 = { m with
        memctlDev := Function.update m.memctlDev minor (some m.next)
        live := Function.update m.live m.next true
        next := m.next + 1 }) := by
  unfold ebdrRegisterKernelMemctlDevice
  cases ok with
  | false => exact ⟨_, rfl, rfl, nofun⟩
  | true => exact ⟨_, rfl, rfl, fun _ => rfl⟩

/-- Device `i` was made from objects of its own, and everything else is as before. -/
structure Made (m m' : Module) (i : Nat) : Prop where
  minor : m'.kernel.minor = i + 1
  next : m.next ≤ m'.next
  live : ∀ a < m.next, m'.live a = m.live a
  rqQueue : ∃ a < m'.next, m'.rqQueue = Function.update m.rqQueue i (some a) ∧ m'.live a = true
  vdisk : ∃ a < m'.next, m'.vdisk = Function.update m.vdisk i (some a) ∧ m'.live a = true
  blkdev : ∃ a < m'.next, m'.blkdev = Function.update m.blkdev i (some a) ∧ m'.live a = true
  ldev : m'.ldev = Function.update m.ldev i true
  memctl : ∃ a < m'.next, m'.memctlDev = Function.update m.memctlDev i (some a)

theorem blkdevCreateState_works {env : ModuleEnv} (hattach : env.createEnv.attach = true) {b : Bool}
    (h : m.blkdevCreateState env = some (m', b)) :
    m' = { m with
      rqQueue := Function.update m.rqQueue m.kernel.minor (some m.next)
      vdisk := Function.update m.vdisk m.kernel.minor (some (m.next + 1))
      thisBdev := Function.update m.thisBdev m.kernel.minor (some (m.next + 2))
      blkdev := Function.update m.blkdev m.kernel.minor (some (m.next + 3))
      ldev := Function.update m.ldev m.kernel.minor true
      live := Function.update (Function.update (Function.update (Function.update m.live m.next true)
        (m.next + 1) true) (m.next + 2) true) (m.next + 3) true
      next := m.next + 4 } := by
  have hcalls : (env.allocQueue = true ∧ env.allocDisk = true) ∧ env.getByPath = true := by
    have hand : (env.allocQueue && env.allocDisk && env.getByPath) = true := hattach
    simpa using hand
  obtain ⟨⟨hq, hd⟩, hp⟩ := hcalls
  simp only [blkdevCreateState, ebdrBlkdevCreate, blkdevAttachState, ebdrDeviceAttachBlkdev, hq, hd,
    hp, Bool.true_eq_false, if_false, if_true, Option.some.injEq, Prod.mk.injEq] at h
  exact h.1.symm

/-- How `EBDRCTL_DEV_CREATE` ends. -/
inductive CreateCase (m : Module) (o : Ioctl) (env : ModuleEnv) : Module → Nat → Prop where
  | unmapped (hmap : MapFails o env) : CreateCase m o env
      { m with kernel := { sized m.kernel o with
        vmallocArea := Function.update m.kernel.vmallocArea m.kernel.minor none } }
      memctlDevRegError
  | unregistered {m' : Module} (hmap : ¬ MapFails o env) (hclass : env.classCreate = false)
      (harea : m'.kernel.vmallocArea m.kernel.minor = some m.kernel.fresh) :
    CreateCase m o env m' memctlDevRegError
  | cleaned {m' : Module} (hmap : ¬ MapFails o env) (hclass : env.classCreate = true)
      (hattach : env.createEnv.attach = false)
      (hminor : m'.kernel.minor = m.kernel.minor)
      (harea : m'.kernel.vmallocArea m.kernel.minor = none)
      (hmemctl : m'.registered m.kernel.minor = false)
      (hldev : ∀ i, 1 ≤ i → i < m.kernel.minor → m'.ldev i = false) :
    CreateCase m o env m' memctlDevRegError
  | created {m' : Module} (hmap : ¬ MapFails o env) (hclass : env.classCreate = true)
      (hattach : env.createEnv.attach = true) (hmade : Made m m' m.kernel.minor) :
    CreateCase m o env m' 0

theorem ebdrMinorCleanup_eq {minor : Nat} (h : m.ebdrMinorCleanup minor = some m') :
    m'.kernel = { m.kernel with
        vmallocArea := Function.update m.kernel.vmallocArea minor none } ∧
      m'.registered minor = false ∧ ∀ i, 1 ≤ i → i < minor → m'.ldev i = false := by
  simp only [ebdrMinorCleanup, Option.bind_eq_bind, Option.bind_eq_some_iff] at h
  obtain ⟨m1, h1, c, hc, h2⟩ := h
  obtain ⟨hkernel, hmemctl, hldev⟩ := blkdevDestroyState_eq h1
  rw [release_eq h2]
  refine ⟨?_, ?_, ?_⟩
  · rw [← hkernel]
  · show (m1.memctlDev minor).any (Function.update m1.live c false) = false
    rw [hc, Option.any_some, Function.update_self]
  · intro i h1 hlt
    exact hldev i h1 (by omega)

/-- **One lemma for the ioctl**: how it ends, and that it does to the bitmaps what `Kernel.devCreate`
does. -/
theorem devCreate_spec {o : Ioctl} {env : ModuleEnv} {rc : Nat}
    (h : m.devCreate o env = some (m', rc)) :
    CreateCase m o env m' rc ∧
      m.kernel.devCreate o env.createEnv = some (m'.kernel, rc) := by
  unfold devCreate at h
  unfold Kernel.devCreate
  dsimp only at h ⊢
  rw [Option.ite_none_left_eq_some] at h
  rw [if_neg h.1]
  replace h := h.2
  have hvmalloc : env.createEnv.vmalloc = env.vmalloc := rfl
  have hclassCreate : env.createEnv.classCreate = env.classCreate := rfl
  have hkzalloc : env.createEnv.kzalloc = env.kzalloc := rfl
  rw [hvmalloc, hclassCreate, hkzalloc]
  by_cases hmap : MapFails o env
  · have hfail := mmap_fails m.kernel hmap
    unfold sized at hfail
    rw [hfail] at h ⊢
    dsimp only at h ⊢
    rw [if_pos rfl, Option.some.injEq, Prod.mk.injEq] at h
    rw [if_pos rfl, ← h.1, ← h.2]
    exact ⟨.unmapped hmap, rfl⟩
  · obtain ⟨k1, hworks, hminor, harea⟩ := mmap_works m.kernel hmap
    unfold sized at hworks
    rw [hworks] at h ⊢
    dsimp only at h ⊢
    rw [if_neg (by decide)] at h ⊢
    obtain ⟨m1, hregister, hm1, hclassed⟩ :=
      ebdrRegisterKernelMemctlDevice_eq { m with kernel := k1 } m.kernel.minor env.classCreate
    rw [hregister] at h
    dsimp only at h hm1
    rw [← hm1] at hminor harea ⊢
    cases hclass : env.classCreate with
    | false =>
      rw [hclass, if_pos rfl, Option.some.injEq, Prod.mk.injEq] at h
      rw [if_pos rfl, ← h.1, ← h.2]
      exact ⟨.unregistered hmap hclass harea, rfl⟩
    | true =>
      rw [hclass, if_neg (by decide)] at h
      rw [if_neg (by decide)]
      simp only [devCreateState, Option.bind_eq_bind, Option.bind_eq_some_iff] at h
      obtain ⟨⟨m2, created⟩, ⟨k2, hinit, hstate⟩, h⟩ := h
      obtain ⟨hk, -, hcreated⟩ := blkdevCreateState_eq hstate
      dsimp only at hk
      rw [hminor] at hinit
      rw [hinit, Option.bind_some, ← hk]
      cases hc : env.createEnv.attach with
      | false =>
        rw [hcreated, hc] at h
        dsimp only at h
        rw [if_pos rfl] at h
        obtain ⟨m3, h3, h⟩ := Option.bind_eq_some_iff.mp h
        rw [Option.some.injEq, Prod.mk.injEq] at h
        obtain ⟨hm, hr, hl⟩ := ebdrMinorCleanup_eq h3
        rw [if_pos rfl, ← h.1, ← h.2]
        refine ⟨.cleaned hmap hclass hc ?_ ?_ hr hl, ?_⟩
        · rw [hm, hk]
          exact (ebdrInitBmap_frame hinit).1.trans hminor
        · rw [hm]
          exact Function.update_self _ _ _
        · rw [hm]
      | true =>
        rw [hcreated, hc] at h
        dsimp only at h
        rw [if_neg (by simp)] at h
        obtain ⟨a, ha, h⟩ := Option.bind_eq_some_iff.mp h
        rw [Option.some.injEq, Prod.mk.injEq] at h
        rw [if_neg (by simp), ha, Option.bind_some, ← h.1, ← h.2]
        refine ⟨.created hmap hclass hc ?_, ?_⟩
        · have hk2 := (ebdrInitBmap_frame hinit).1.trans hminor
          have hm2 := blkdevCreateState_works hc hstate
          rw [hclassed hclass] at hm2
          dsimp only at hm2
          rw [hk2] at hm2
          rw [hm2]
          refine ⟨rfl, ?_, ?_, ?_, ?_, ?_, rfl, ?_⟩
          · show m.next ≤ m.next + 1 + 4
            omega
          · intro x hx
            simp (disch := omega) [Function.update_of_ne]
          · exact ⟨m.next + 1, by dsimp only; omega, rfl, by simp⟩
          · exact ⟨m.next + 2, by dsimp only; omega, rfl, by simp⟩
          · exact ⟨m.next + 4, by dsimp only; omega, rfl, by simp⟩
          · exact ⟨m.next, by dsimp only; omega, rfl⟩
        · dsimp only
          rw [ha]

/-! ### The other devices -/

/-- **Which failed creates leave the other devices alone**, and hold nothing: those without memory for
the areas, and those of the first minor once its memory-control device was registered. -/
theorem failed_create {o : Ioctl} {env : ModuleEnv} {rc : Nat} (hw : Working m)
    (h : m.devCreate o env = some (m', rc)) (hrc : rc ≠ 0) :
    Untouched m m' ↔ MapFails o env ∨ (env.classCreate = true ∧ m.kernel.minor = 1) := by
  have hpos := hw.minor_pos
  cases (devCreate_spec h).1 with
  | unmapped hmap =>
    refine iff_of_true ⟨?_, Function.update_self _ _ _, hw.unregistered _ (le_refl _), rfl⟩
      (Or.inl hmap)
    rintro i ⟨h1, hlt⟩
    have hne : i ≠ m.kernel.minor := by omega
    simp only [view, sized, Kernel.bitmapOf, Function.update_of_ne hne]
  | unregistered hmap hclass harea =>
    refine iff_of_false ?_ ?_
    · intro hu
      rw [hu.area] at harea
      cases harea
    · rintro (hfails | ⟨hworks, -⟩)
      · exact hmap hfails
      · rw [hclass] at hworks
        cases hworks
  | cleaned hmap hclass hattach hminor harea hmemctl hldev =>
    rw [or_iff_right hmap, and_iff_right hclass]
    constructor
    · intro hu
      by_contra hne
      have hone : m.kernel.Created 1 := ⟨le_refl _, by omega⟩
      have hsame := congrArg DeviceView.ldev (hu.others 1 hone)
      have hgone : m'.ldev 1 = m.ldev 1 := hsame
      rw [hldev 1 (le_refl _) (by omega), hw.ldev 1 hone] at hgone
      cases hgone
    · intro hone
      refine ⟨?_, harea, hmemctl, hminor⟩
      rintro i ⟨h1, hlt⟩
      omega
  | created => exact absurd rfl hrc

theorem Made.table {f f' : Nat → Option Nat} (hm : Made m m' m.kernel.minor)
    (hf : ∀ i, m.kernel.Created i → ∃ a, f i = some a ∧ a < m.next ∧ m.live a = true)
    (hnew : ∃ a < m'.next, f' = Function.update f m.kernel.minor (some a) ∧ m'.live a = true) :
    ∀ i, m'.kernel.Created i → ∃ a, f' i = some a ∧ a < m'.next ∧ m'.live a = true := by
  obtain ⟨a, ha, rfl, hlive⟩ := hnew
  have hnext := hm.next
  rintro i ⟨h1, hlt⟩
  rw [hm.minor] at hlt
  by_cases hi : i = m.kernel.minor
  · rw [hi, Function.update_self]
    exact ⟨a, rfl, ha, hlive⟩
  · obtain ⟨a', ha', hlt', hlive'⟩ := hf i ⟨h1, by omega⟩
    rw [Function.update_of_ne hi]
    exact ⟨a', ha', by omega, by rw [hm.live a' hlt', hlive']⟩

/-- **A create that succeeds** leaves the other devices working, and makes one more. -/
theorem Working.create {o : Ioctl} {env : ModuleEnv} (hw : Working m)
    (h : m.devCreate o env = some (m', 0)) : Working m' := by
  have hlt : m.kernel.minor < maxMinor := by
    unfold devCreate at h
    dsimp only at h
    rw [Option.ite_none_left_eq_some] at h
    exact Nat.lt_of_not_le h.1
  obtain ⟨hcase, -⟩ := devCreate_spec h
  generalize hrc : (0 : Nat) = rc at hcase
  cases hcase with
  | unmapped => exact absurd hrc (by decide)
  | unregistered => exact absurd hrc (by decide)
  | cleaned => exact absurd hrc (by decide)
  | created hmap hclass hattach hm =>
    obtain ⟨c, hc, hmemctl⟩ := hm.memctl
    have hnext := hm.next
    refine ⟨?_, ?_, hm.table hw.vdisk hm.vdisk, hm.table hw.rqQueue hm.rqQueue, ?_,
      hm.table hw.blkdev hm.blkdev, ?_, ?_⟩
    · rw [hm.minor]
      omega
    · rw [hm.minor]
      exact hlt
    · rintro i ⟨h1, hi⟩
      rw [hm.minor] at hi
      rw [hm.ldev]
      by_cases heq : i = m.kernel.minor
      · rw [heq, Function.update_self]
      · rw [Function.update_of_ne heq]
        exact hw.ldev i ⟨h1, by omega⟩
    · intro i a ha
      rw [hmemctl] at ha
      by_cases heq : i = m.kernel.minor
      · rw [heq, Function.update_self, Option.some.injEq] at ha
        omega
      · rw [Function.update_of_ne heq] at ha
        have := hw.memctl_lt i a ha
        omega
    · intro i hi
      rw [hm.minor] at hi
      have hdead := hw.unregistered i (by omega)
      unfold registered at hdead ⊢
      rw [hmemctl, Function.update_of_ne (by omega)]
      cases ha : m.memctlDev i with
      | none => rfl
      | some a =>
        rw [ha] at hdead
        rw [Option.any_some, hm.live a (hw.memctl_lt i a ha)]
        exact hdead

end

theorem working_init : Working init := by
  refine ⟨le_refl _, by decide, ?_, ?_, ?_, ?_, nofun, fun _ _ => rfl⟩ <;>
    · rintro i ⟨h1, h2⟩
      exact absurd h2 (Nat.not_lt.mpr h1)

/-- A create that finds no backing device. -/
def unattached : ModuleEnv := ⟨true, true, true, true, true, false⟩

/-- The first create fails to attach: nothing is held. -/
theorem failed_create_first :
    ∃ m', init.devCreate ⟨[1], 4096, 8, .kernel, 0⟩ unattached = some (m', memctlDevRegError) ∧
      Untouched init m' := by
  have hsome : (init.devCreate ⟨[1], 4096, 8, .kernel, 0⟩ unattached).map Prod.snd =
      some memctlDevRegError := by decide
  obtain ⟨⟨m', rc⟩, hm, hrc⟩ := Option.map_eq_some_iff.mp hsome
  dsimp only at hrc
  rw [hrc] at hm
  exact ⟨m', hm, (failed_create working_init hm (by decide)).mpr (Or.inr ⟨rfl, rfl⟩)⟩

/-- A create in which no call fails. -/
def working : ModuleEnv := ⟨true, true, true, true, true, true⟩

/-- The second create fails to attach: the first device is destroyed. -/
theorem failed_create_destroys :
    ¬ ∀ (m m' : Module) (o : Ioctl) (env : ModuleEnv) (rc : Nat), Working m →
      m.devCreate o env = some (m', rc) → rc ≠ 0 → Untouched m m' := by
  intro hall
  let first : Ioctl := ⟨[1], 4096, 8, .kernel, 0⟩
  let second : Ioctl := ⟨[2], 4096, 8, .kernel, 0⟩
  have hrun : ((init.devCreate first working).bind fun p =>
      (p.1.devCreate second unattached).map fun q => (p.2, p.1.kernel.minor, q.2)) =
        some (0, 2, memctlDevRegError) := by decide
  obtain ⟨⟨m, rc⟩, hm, hrun⟩ := Option.bind_eq_some_iff.mp hrun
  obtain ⟨⟨m', rc'⟩, hm', heq⟩ := Option.map_eq_some_iff.mp hrun
  simp only [Prod.mk.injEq] at heq
  obtain ⟨rfl, hminor, rfl⟩ := heq
  have hlt : 1 < m.kernel.minor := lt_of_lt_of_eq (by decide) hminor.symm
  have hw := working_init.create hm
  have hu := hall m m' second unattached _ hw hm' (by decide)
  cases (devCreate_spec hm').1 with
  | unmapped hmap =>
    revert hmap
    unfold MapFails
    decide
  | unregistered hmap hclass => cases hclass
  | cleaned hmap hclass hattach hcount harea hmemctl hldev =>
    have hone : m.kernel.Created 1 := ⟨le_refl _, hlt⟩
    have hsame : m'.ldev 1 = m.ldev 1 := congrArg DeviceView.ldev (hu.others 1 hone)
    rw [hldev 1 (le_refl _) hlt, hw.ldev 1 hone] at hsame
    cases hsame

end Module

end Ebdr
