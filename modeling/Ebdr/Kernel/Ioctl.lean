import Ebdr.Lib.Lts
import Ebdr.Kernel.Device

/-!
# The control device: `ebdr_ctl_ioctl`

Every command copies the caller's `IOCTL` record first, so a command is a function of the kernel
state and of that record. What the allocators and the block layer answer inside
`EBDRCTL_DEV_CREATE` is an argument (`CreateEnv`).

`DeviceOk` is the representation of one device: which struct and which area are its own, that
`bitmap_area` points to the half `bmap_user` names, and that the bits fit the half. `Inv` says it of
every created device, with no struct or area shared. `EBDRCTL_SET_GRAIN_SIZE` takes the lock of
`device[index]` but writes through the global `bitmap`, the struct of the device created last; the
invariant holds in the runs in which every such command is about that device and asks for no more
bits than its half has (`step_inv`, `rep_of_run`).
-/

namespace Ebdr

open ByteMem CInt Lts

/-- `struct user_ioctl`. -/
structure Ioctl where
  srcDisk : List UInt8
  uGrainSize : Nat
  uBitmapSize : Nat
  bmapUser : BmapUser
  index : Nat
  deriving DecidableEq, Repr

/-- The answers of the calls `EBDRCTL_DEV_CREATE` makes: `vmalloc_user`, `class_create`, `kzalloc`,
and the creation of the block device with the attachment of its backing device. -/
structure CreateEnv where
  vmalloc : Bool
  classCreate : Bool
  kzalloc : Bool
  attach : Bool
  deriving DecidableEq, Repr

/-- `MEMCTL_DEV_REG_ERROR`. -/
def memctlDevRegError : Nat := 2

namespace Kernel

/-- The module after `ebdr_init`. -/
def init : Kernel where
  minor := 1
  device := fun _ => ⟨List.replicate 64 0, none⟩
  bitmap := none
  vmallocArea := fun _ => none
  vmallocAreaSz := fun _ => 0
  bitmaps := fun _ => ⟨none, 0, 0, .kernel⟩
  areaBytes := fun _ => 0
  mem := fun _ _ => 0
  fresh := 0

/-- `ebdr_alloc_memory_mmap`: two halves, zeroed by `vmalloc_user`, which gives nothing for a size
of 0. -/
def ebdrAllocMemoryMmap (k : Kernel) (minor : Nat) (ok : Bool) : Kernel × Bool :=
  let bytes := ulong (2 * k.vmallocAreaSz minor)
  if ok = true ∧ bytes ≠ 0 then
    ({ k with
        vmallocArea := Function.update k.vmallocArea minor (some k.fresh)
        areaBytes := Function.update k.areaBytes k.fresh bytes
        mem := Function.update k.mem k.fresh (fun _ => 0)
        fresh := k.fresh + 1 }, true)
  else ({ k with vmallocArea := Function.update k.vmallocArea minor none }, false)

/-- `ebdr_clear_bmap`: the word count goes through an `int`. -/
def ebdrClearBmap (k : Kernel) (b : EbdrBitmap) : Option Kernel :=
  let words := intToUlong (toInt (b.bitmapSize / 8)) / 8
  if words = 0 then some k
  else
    b.bitmapArea.bind fun p =>
      if p.off + 8 * words ≤ k.areaBytes p.area then
        some (k.setMem p.area (zeroWords 8 (k.mem p.area) p.off words))
      else none

/-- `ebdr_init_bmap` as `ebdr_device_create` calls it (its error is not looked at). -/
def ebdrInitBmap (k : Kernel) (minor grainSize : Nat) (kzalloc : Bool) : Option Kernel :=
  if kzalloc = true then
    let b : EbdrBitmap :=
      { bitmapArea := (k.vmallocArea minor).map fun r => ⟨r, 0⟩
        bitmapSize := ulong (k.vmallocAreaSz minor * 8)
        grainSize := grainSize
        bmapUser := .kernel }
    ebdrClearBmap
      { k with
        bitmap := some k.fresh
        bitmaps := Function.update k.bitmaps k.fresh b
        device := Function.update k.device minor { k.device minor with bitmap := some k.fresh }
        fresh := k.fresh + 1 } b
  else some { k with bitmap := none }

/-- `EBDRCTL_DEV_CREATE`, with its return value. -/
def devCreate (k : Kernel) (o : Ioctl) (env : CreateEnv) : Option (Kernel × Nat) :=
  let minor := k.minor
  if maxMinor ≤ minor then none
  else
    let k0 := { k with vmallocAreaSz := Function.update k.vmallocAreaSz minor o.uBitmapSize }
    let (k1, mapped) := ebdrAllocMemoryMmap k0 minor env.vmalloc
    if mapped = false then some (k1, memctlDevRegError)
    else if env.classCreate = false then some (k1, memctlDevRegError)
    else
      (ebdrInitBmap k1 minor o.uGrainSize env.kzalloc).bind fun k2 =>
        if env.attach = false then
          -- `ebdr_minor_cleanup`
          some ({ k2 with vmallocArea := Function.update k2.vmallocArea minor none },
            memctlDevRegError)
        else
          (k2.device minor).bitmap.bind fun a =>
            some ({ k2 with
              bitmaps := Function.update k2.bitmaps a { k2.bitmaps a with bmapUser := .kernel }
              device := Function.update k2.device minor
                { k2.device minor with diskName := o.srcDisk.take 64 }
              minor := minor + 1 }, 0)

/-- `EBDRCTL_SET_GRAIN_SIZE`: the lock is that of `device[index]`; the writes go to the global
`bitmap` and to `vmalloc_area_sz[minor]`. -/
def setGrainSize (k : Kernel) (o : Ioctl) : Option Kernel :=
  (k.bitmapOf o.index).bind fun _ =>
    k.bitmap.bind fun a =>
      if k.minor < maxMinor then
        some { k with
          vmallocAreaSz := Function.update k.vmallocAreaSz k.minor o.uBitmapSize
          bitmaps := Function.update k.bitmaps a
            { k.bitmaps a with
              grainSize := o.uGrainSize
              bitmapSize := ulong (o.uBitmapSize * 8) } }
      else none

/-- `EBDRCTL_GET_USER`; the message printed on the way reads through `bitmap_area`. -/
def getUser (k : Kernel) (index : Nat) : Option BmapUser :=
  (k.bitmapOf index).bind fun b => b.bitmapArea.map fun _ => b.bmapUser

/-- The struct after `EBDR_FLIP_BITMAP_AREA`, for a device with area `area` and half size `sz`. -/
def flipBitmap (area : Option Nat) (sz : Nat) (b : EbdrBitmap) : EbdrBitmap :=
  match b.bmapUser with
  | .user => { b with bitmapArea := area.map fun r => ⟨r, 0⟩, bmapUser := .kernel }
  | .kernel =>
    { b with bitmapArea := b.bitmapArea.map fun p => ⟨p.area, p.off + sz⟩, bmapUser := .user }

/-- `EBDR_FLIP_BITMAP_AREA`. -/
def flipBitmapArea (k : Kernel) (index : Nat) : Option Kernel :=
  if index < maxMinor then
    (k.device index).bitmap.map fun a =>
      k.setBitmap a (flipBitmap (k.vmallocArea index) (k.vmallocAreaSz index) (k.bitmaps a))
  else none

/-- `EBDRCTL_BLKDEV_SEARCH`: 20 bytes of the name, in the first `MAX_EBDR_DEVICES` (10) entries. -/
def blkdevSearch (k : Kernel) (name : List UInt8) : Bool :=
  (List.range 10).any fun i => decide ((k.device i).diskName.take 20 = name.take 20)

/-- What happens to the kernel module. -/
inductive Event where
  | devCreate (o : Ioctl) (env : CreateEnv)
  | setGrainSize (o : Ioctl)
  | flipBitmapArea (index : Nat)
  | makeRequest (i : Nat) (bio : Bio)
  deriving DecidableEq, Repr

def step (k : Kernel) : Event → Option Kernel
  | .devCreate o env => (k.devCreate o env).map Prod.fst
  | .setGrainSize o => k.setGrainSize o
  | .flipBitmapArea index => k.flipBitmapArea index
  | .makeRequest i bio => ebdrMakeRequest k i bio

end Kernel

end Ebdr
