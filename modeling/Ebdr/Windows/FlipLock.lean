import Ebdr.Kernel.Device
import Ebdr.Lib.Lts

/-!
# The Windows filter: writes and flips under two locks

The steps of `atdr_set_bits`, which holds `Lock_bm`, and of `ATDR_FLIP_BITMAP_AREA`, which holds
`Lock`, on the bitmap of one volume. Each lock has one holder at a time, so the threads that wait for
it have no state. User mode clears the half that was flipped away.

`frozen_half` says that no bit is set in this half if a write's use of `bitmap_area` and a flip do
not overlap. With two locks nothing keeps them apart (`set_after_flip`); the Linux driver takes one
lock for both.
-/

namespace Ebdr

namespace Windows

open Lts

/-- The holder of `Lock_bm`: `bmap`, once it is loaded, and the loop from `i` to `last`. -/
structure Writer where
  bmap : Option Half
  i : Nat
  last : Nat
  deriving DecidableEq, Repr

/-- The holder of `Lock`; `old` is the half that was active before the flip. -/
inductive FlipPhase where
  | acquired
  | areaStored (old : Half)
  | userStored (old : Half)
  deriving DecidableEq, Repr

/-- The bitmap of one volume and its locks. -/
structure FlipLock where
  bitmapArea : Half
  bmapUser : BmapUser
  bits : Half → Nat → Bool
  lockBm : Option Writer
  lock : Option FlipPhase
  /-- The half that was active before the last completed flip. This and the next two fields are no
  data of the driver. -/
  frozen : Option Half
  /-- The bits set since that flip. -/
  setSince : List (Half × Nat)
  /-- The contents of the frozen half when the flip completed, or when it was cleared. -/
  seen : Nat → Bool

inductive FlipEvent where
  | writeAcquire (first last : Nat)
  | writeLoad
  | writeSet
  | writeRelease
  | flipAcquire
  | flipStoreArea
  | flipStoreUser
  | flipRelease
  /-- User mode clears the half that was flipped away. -/
  | clear

namespace FlipLock

def step (s : FlipLock) : FlipEvent → Option FlipLock
  | .writeAcquire first last =>
    match s.lockBm with
    | none => some { s with lockBm := some ⟨none, first, last⟩ }
    | some _ => none
  | .writeLoad =>
    match s.lockBm with
    | some ⟨none, i, last⟩ => some { s with lockBm := some ⟨some s.bitmapArea, i, last⟩ }
    | _ => none
  | .writeSet =>
    match s.lockBm with
    | some ⟨some h, i, last⟩ =>
      if i ≤ last then
        some { s with
          bits := Function.update s.bits h (Function.update (s.bits h) i true)
          lockBm := some ⟨some h, i + 1, last⟩
          setSince := (h, i) :: s.setSince }
      else none
    | _ => none
  | .writeRelease =>
    match s.lockBm with
    | some ⟨some _, i, last⟩ => if i ≤ last then none else some { s with lockBm := none }
    | _ => none
  | .flipAcquire =>
    match s.lock with
    | none => some { s with lock := some .acquired }
    | some _ => none
  | .flipStoreArea =>
    match s.lock with
    | some .acquired =>
      let area := match s.bmapUser with
        | .user => .first
        | .kernel => .second
      some { s with bitmapArea := area, lock := some (.areaStored s.bitmapArea) }
    | _ => none
  | .flipStoreUser =>
    match s.lock with
    | some (.areaStored old) =>
      let toggled := match s.bmapUser with
        | .user => .kernel
        | .kernel => .user
      some { s with bmapUser := toggled, lock := some (.userStored old) }
    | _ => none
  | .flipRelease =>
    match s.lock with
    | some (.userStored old) =>
      some { s with lock := none, frozen := some old, setSince := [], seen := s.bits old }
    | _ => none
  | .clear =>
    match s.frozen with
    | some h =>
      some { s with
        bits := Function.update s.bits h fun _ => false
        seen := fun _ => false }
    | none => none

/-- The bitmap after the volume was created. -/
def boot : FlipLock :=
  ⟨.first, .kernel, fun _ _ => false, none, none, none, [], fun _ => false⟩

/-! ### The property and its condition -/

/-- No bit was set in the half that was flipped away, and its contents are those seen. -/
structure Frozen (s : FlipLock) : Prop where
  unset : ∀ h, s.frozen = some h → ∀ p ∈ s.setSince, p.1 ≠ h
  stable : ∀ h, s.frozen = some h → s.bits h = s.seen

/-- The half that was active before the flip that has stored `bitmap_area` and is not complete. -/
def flipping (s : FlipLock) : Option Half :=
  match s.lock with
  | some (.areaStored old) | some (.userStored old) => some old
  | some .acquired | none => none

/-- The half where the write has bits to set. -/
def setting (s : FlipLock) : Option Half :=
  match s.lockBm with
  | some ⟨some h, i, last⟩ => if i ≤ last then some h else none
  | _ => none

/-- When a flip completes, no write has bits to set in the half flipped away, and while a later flip
than the first is not complete, no write sets bits in the new half. -/
def Apart (s : FlipLock) : FlipEvent → Prop
  | .flipRelease => s.flipping = none ∨ s.setting ≠ s.flipping
  | .writeSet => s.frozen = none ∨ s.flipping = none ∨ s.setting = s.flipping
  | _ => True

instance (s : FlipLock) (e : FlipEvent) : Decidable (s.Apart e) := by
  unfold Apart
  split <;> infer_instance

/-! ### The invariant -/

/-- Where the active half, its user and the half flipped away stand to each other. -/
def Agree (s : FlipLock) : Prop :=
  match s.lock with
  | none | some .acquired => s.bitmapArea = s.bmapUser.half ∧ s.frozen ≠ some s.bitmapArea
  | some (.areaStored old) =>
    s.bitmapArea = old.other ∧ s.bmapUser.half = old ∧ s.frozen ≠ some old
  | some (.userStored old) =>
    s.bitmapArea = old.other ∧ s.bmapUser.half = old.other ∧ s.frozen ≠ some old

structure Inv (s : FlipLock) : Prop where
  agree : s.Agree
  /-- Between flips no write has bits to set in the half flipped away. -/
  writer : s.flipping = none → s.frozen ≠ none → s.setting ≠ s.frozen
  frozen : s.Frozen

theorem inv_boot : boot.Inv where
  agree := ⟨rfl, nofun⟩
  writer := fun _ h => absurd rfl h
  frozen := ⟨nofun, nofun⟩

theorem half_flip (u : BmapUser) :
    (match u with
      | .user => Half.first
      | .kernel => .second) = u.half.other ∧
      BmapUser.half (match u with
      | .user => .kernel
      | .kernel => .user) = u.half.other := by
  cases u <;> exact ⟨rfl, rfl⟩

theorem Inv.keep {s s' : FlipLock} (hi : s.Inv) (hagree : s'.Agree)
    (hwriter : s'.flipping = none → s'.frozen ≠ none → s'.setting ≠ s'.frozen)
    (hf : s'.frozen = s.frozen) (hs : s'.setSince = s.setSince) (hb : s'.bits = s.bits)
    (hc : s'.seen = s.seen) : s'.Inv := by
  refine ⟨hagree, hwriter, ?_, ?_⟩
  · rw [hf, hs]
    exact hi.frozen.unset
  · rw [hf, hb, hc]
    exact hi.frozen.stable

/-- Between flips the active half is the one that `bmap_user` names, and not the one flipped away. -/
theorem Agree.of_idle {s : FlipLock} (h : s.Agree) (hidle : s.flipping = none) :
    s.bitmapArea = s.bmapUser.half ∧ s.frozen ≠ some s.bitmapArea := by
  unfold Agree at h
  unfold flipping at hidle
  split at h
  · exact h
  · exact h
  · rename_i hl
    rw [hl] at hidle
    cases hidle
  · rename_i hl
    rw [hl] at hidle
    cases hidle

/-- A flip under way does not leave the half that the last one left. -/
theorem Agree.of_flipping {s : FlipLock} {old : Half} (h : s.Agree)
    (hflip : s.flipping = some old) : s.frozen ≠ some old := by
  unfold Agree at h
  unfold flipping at hflip
  split at h
  · rename_i hl
    rw [hl] at hflip
    cases hflip
  · rename_i hl
    rw [hl] at hflip
    cases hflip
  · rename_i hl
    rw [hl] at hflip
    rw [← Option.some.inj hflip]
    exact h.2.2
  · rename_i hl
    rw [hl] at hflip
    rw [← Option.some.inj hflip]
    exact h.2.2

/-- A write that may set a bit sets it in another half than the one flipped away. -/
theorem Inv.setting_ne {s : FlipLock} (hi : s.Inv) (hapart : s.Apart .writeSet) {g : Half}
    (hset : s.setting = some g) : s.frozen ≠ some g := by
  intro hf
  obtain hnone | hnone | hsame := hapart
  · rw [hf] at hnone
    cases hnone
  · apply hi.writer hnone
    · rw [hf]
      simp
    · rw [hset, hf]
  · exact hi.agree.of_flipping (hsame.symm.trans hset) hf

theorem inv_writeAcquire {s s' : FlipLock} (hi : s.Inv) {first last : Nat}
    (h : s.step (.writeAcquire first last) = some s') : s'.Inv := by
  simp only [step] at h
  split at h
  · cases h
    refine hi.keep hi.agree ?_ rfl rfl rfl rfl
    intro _ hfrozen hset
    exact hfrozen hset.symm
  · cases h

theorem inv_writeLoad {s s' : FlipLock} (hi : s.Inv) (h : s.step .writeLoad = some s') :
    s'.Inv := by
  simp only [step] at h
  split at h
  · rename_i i last hw
    cases h
    refine hi.keep hi.agree ?_ rfl rfl rfl rfl
    intro hflip hfrozen hset
    have hne := (hi.agree.of_idle hflip).2
    have hset' : (if i ≤ last then some s.bitmapArea else none) = s.frozen := hset
    split at hset'
    · exact hne hset'.symm
    · exact hfrozen hset'.symm
  · cases h

theorem inv_writeSet {s s' : FlipLock} (hi : s.Inv) (hapart : s.Apart .writeSet)
    (h : s.step .writeSet = some s') : s'.Inv := by
  simp only [step] at h
  split at h
  · rename_i g i last hw
    rw [Option.ite_none_right_eq_some] at h
    obtain ⟨hle, h⟩ := h
    cases h
    have hsetting : s.setting = some g := by
      rw [setting, hw]
      exact if_pos hle
    have hne := hi.setting_ne hapart hsetting
    refine ⟨hi.agree, ?_, ?_, ?_⟩
    · intro _ hfrozen hset
      have hset' : (if i + 1 ≤ last then some g else none) = s.frozen := hset
      split at hset'
      · exact hne hset'.symm
      · exact hfrozen hset'.symm
    · intro f hf p hp
      obtain rfl | hp := List.mem_cons.mp hp
      · rintro rfl
        exact hne hf
      · exact hi.frozen.unset f hf p hp
    · intro f hf
      have hfg : f ≠ g := by
        rintro rfl
        exact hne hf
      dsimp only
      rw [Function.update_of_ne hfg]
      exact hi.frozen.stable f hf
  · cases h

theorem inv_writeRelease {s s' : FlipLock} (hi : s.Inv) (h : s.step .writeRelease = some s') :
    s'.Inv := by
  simp only [step] at h
  split at h
  · rw [Option.ite_none_left_eq_some] at h
    obtain ⟨-, h⟩ := h
    cases h
    refine hi.keep hi.agree ?_ rfl rfl rfl rfl
    intro _ hfrozen hset
    exact hfrozen hset.symm
  · cases h

/-- **Step lemma.** -/
theorem inv_step {s s' : FlipLock} {e : FlipEvent} (hi : s.Inv) (hapart : s.Apart e)
    (h : s.step e = some s') : s'.Inv := by
  have hagree := hi.agree
  unfold Agree at hagree
  cases e with
  | writeAcquire first last => exact inv_writeAcquire hi h
  | writeLoad => exact inv_writeLoad hi h
  | writeSet => exact inv_writeSet hi hapart h
  | writeRelease => exact inv_writeRelease hi h
  | flipAcquire =>
    simp only [step] at h
    split at h
    · rename_i hl
      cases h
      rw [hl] at hagree
      refine hi.keep hagree ?_ rfl rfl rfl rfl
      intro _ hfrozen
      refine hi.writer ?_ hfrozen
      rw [flipping, hl]
    · cases h
  | flipStoreArea =>
    simp only [step] at h
    split at h
    · rename_i hl
      cases h
      rw [hl] at hagree
      obtain ⟨harea, hne⟩ := hagree
      refine hi.keep ⟨?_, harea.symm, hne⟩ nofun rfl rfl rfl rfl
      dsimp only
      rw [(half_flip s.bmapUser).1, harea]
    · cases h
  | flipStoreUser =>
    simp only [step] at h
    split at h
    · rename_i old hl
      cases h
      rw [hl] at hagree
      obtain ⟨harea, huser, hne⟩ := hagree
      refine hi.keep ⟨harea, ?_, hne⟩ nofun rfl rfl rfl rfl
      dsimp only
      rw [(half_flip s.bmapUser).2, huser]
    · cases h
  | flipRelease =>
    simp only [step] at h
    split at h
    · rename_i old hl
      cases h
      rw [hl] at hagree
      obtain ⟨harea, huser, -⟩ := hagree
      have hflip : s.flipping = some old := by rw [flipping, hl]
      refine ⟨⟨harea.trans huser.symm, ?_⟩, ?_, ?_, ?_⟩
      · intro heq
        have hold : some old = some s.bitmapArea := heq
        rw [harea] at hold
        exact old.other_ne (Option.some.inj hold).symm
      · intro _ _ hset
        have hset' : s.setting = some old := hset
        rcases hapart with hnone | hne
        · rw [hflip] at hnone
          cases hnone
        · exact hne (hset'.trans hflip.symm)
      · intro f _ p hp
        cases hp
      · intro f hf
        cases hf
        rfl
    · cases h
  | clear =>
    simp only [step] at h
    split at h
    · rename_i f hf
      cases h
      refine ⟨hi.agree, hi.writer, hi.frozen.unset, ?_⟩
      intro f' hf'
      cases hf.symm.trans hf'
      exact Function.update_self _ _ _
    · cases h

/-- **A half that was flipped away is frozen.** In a run in which no write uses `bitmap_area` across a
flip, no bit is set in the half that was active before the last completed flip, and its contents
are those it had then or was cleared to. -/
theorem frozen_half {s : FlipLock} {es : List FlipEvent} (hm : Meets step Apart boot es)
    (hr : run step boot es = some s) : s.Frozen := by
  have hi : s.Inv := run_inv (fun _ _ _ hi hok hs => inv_step hi hok hs) inv_boot hm hr
  exact hi.frozen

/-- A write of bit 5, a flip, a write of bit 6. -/
theorem frozen_half_sample :
    ∃ s, run step boot [.writeAcquire 5 5, .writeLoad, .writeSet, .writeRelease, .flipAcquire,
        .flipStoreArea, .flipStoreUser, .flipRelease, .writeAcquire 6 6, .writeLoad, .writeSet] =
          some s ∧ s.frozen = some .first ∧ s.bits .second 6 = true ∧ s.Frozen := by
  have hsome : (run step boot [.writeAcquire 5 5, .writeLoad, .writeSet, .writeRelease,
      .flipAcquire, .flipStoreArea, .flipStoreUser, .flipRelease, .writeAcquire 6 6, .writeLoad,
        .writeSet]).map (fun s => (s.frozen, s.bits .second 6)) = some (some .first, true) := by
    decide
  obtain ⟨s, hs, hval⟩ := Option.map_eq_some_iff.mp hsome
  rw [Prod.mk.injEq] at hval
  exact ⟨s, hs, hval.1, hval.2, frozen_half (by decide) hs⟩

/-- A write loads `bitmap_area`, a whole flip passes, the write sets its bit in the half that was
flipped away. -/
theorem set_after_flip :
    ¬ ∀ (s : FlipLock) (es : List FlipEvent), run step boot es = some s → s.Frozen := by
  intro h
  have hsome : (run step boot [.writeAcquire 5 5, .writeLoad, .flipAcquire, .flipStoreArea,
      .flipStoreUser, .flipRelease, .writeSet]).map (fun s => (s.frozen, s.setSince)) =
        some (some .first, [(.first, 5)]) := by decide
  obtain ⟨s, hs, hval⟩ := Option.map_eq_some_iff.mp hsome
  rw [Prod.mk.injEq] at hval
  refine (h s _ hs).unset .first hval.1 (.first, 5) ?_ rfl
  rw [hval.2]
  simp

end FlipLock

end Windows

end Ebdr
