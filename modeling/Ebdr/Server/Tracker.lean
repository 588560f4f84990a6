import Ebdr.Lib.Lts
import Ebdr.Server.IoctlRace

/-!
# The dirty-bit tracker of one device

What a device and its partner's thread are for, without pointers and without the other partners: two
halves of dirty bits, one of them written by the kernel, a bitmap being shipped, and the half marked
for copying and clearing. `Tracker.step` is the behaviour of one device on its own.

`PhaseOk` says which half each phase works on: a copy that will be followed by a flip reads the half
the kernel writes, everything after the flip and every clear the other one. It is kept by every step
when the branch without a flip takes the half the kernel does not write (`phaseOk_step`).
-/

namespace Ebdr

open ByteMem Lts

/-- The tracker of a device. -/
structure Tracker where
  dirty : Half → Nat → Bool
  /-- The half the kernel writes. -/
  active : Half
  phase : Phase
  /-- The half `ubitmap->bmap_user` marks, once there is a user bitmap. -/
  marked : Option Half
  /-- The user bitmap is `EBDR_UBITMAP_READY`. -/
  ready : Bool
  ship : Nat → Bool
  released : Bool
  recovery : Bool
  conn : ConnObjState

/-- What happens to one device. -/
inductive Label where
  | write (first last : Int)
  | request
  | terminate
  /-- A step of its thread, which may read the answer `u` of `EBDRCTL_GET_USER` and whether the first
  word of the area is not zero. -/
  | run (u : BmapUser) (firstWord : Bool)
  | pause
  | resume
  /-- Its partner is taken for a live one again. -/
  | revive
  | restart (recovery : Bool)
  | other
  deriving DecidableEq, Repr

namespace Tracker

/-- The number of a bit's 64-bit word. -/
def word (b : Nat) : Nat := b / 64

def Normal (t : Tracker) : Prop := t.recovery = false ∧ t.conn ≠ .resume

instance (t : Tracker) : Decidable t.Normal := inferInstanceAs (Decidable (_ ∧ _))

/-- The value of `bmap_user` in the kernel. -/
def user (t : Tracker) : BmapUser := t.active.mark.other

/-- The half the branch without a flip takes. -/
def reentry (firstWord : Bool) : Half := if firstWord = true then .first else .second

def startCopy (t : Tracker) (h : Half) (flip : Bool) : Tracker :=
  { t with marked := some h, phase := .copying h 0 flip }

/-- A step of the thread, for halves of `nw` words. -/
def run (nw : Nat) (t : Tracker) (u : BmapUser) (firstWord : Bool) : Option Tracker :=
  match t.phase with
  | .idle => none
  | .created => some { t with phase := .indexed }
  | .indexed => some { t with phase := .gotUser (if t.Normal then t.user else u) }
  | .gotUser u =>
    if t.Normal then some (t.startCopy u.half true)
    else some ({ t with conn := .inUse }.startCopy (reentry firstWord) false)
  | .copying h k flip =>
    if k < nw then
      some { t with
        ship := fun b => if word b = k then t.dirty h b else t.ship b
        phase := .copying h (k + 1) flip }
    else if flip = true then some { t with active := t.active.other, ready := true, phase := .loaded }
    else some { t with ready := true, phase := .loaded }
  | .loaded => some { t with phase := .idle }
  | .clearing h k =>
    if k < nw then
      some { t with
        dirty := fun g b => if g = h ∧ word b = k then false else t.dirty g b
        phase := .clearing h (k + 1) }
    else some { t with recovery := false, released := true, phase := .idle }

def step (nw : Nat) (t : Tracker) : Label → Option Tracker
  | .write first last =>
    some { t with
      dirty := fun h b => decide (h = t.active ∧ first ≤ b ∧ (b : Int) ≤ last) || t.dirty h b }
  | .request =>
    if t.phase = .idle then
      some { t with
        marked := some .second, ready := false, ship := fun _ => false, released := false
        phase := .created }
    else none
  | .terminate =>
    if t.phase = .idle then
      if t.released = true then some t
      else t.marked.map fun h => { t with phase := .clearing h 0 }
    else none
  | .run u firstWord => t.run nw u firstWord
  | .pause => if t.phase = .idle then some { t with conn := .pause } else none
  | .resume => if t.conn = .pause then some { t with conn := .resume } else none
  | .revive => some { t with released := false }
  | .restart recovery =>
    some { t with
      marked := some .second, ready := false, ship := fun _ => false, released := false
      recovery := recovery, conn := .inUse, phase := .idle }
  | .other => some t

end Tracker

namespace Tracker

theorem half_user (t : Tracker) : t.user.half = t.active := by
  unfold user
  cases t.active <;> rfl

/-! ### The half of each phase -/

/-- The half that each phase works on. -/
def PhaseOk (t : Tracker) : Prop :=
  match t.phase with
  | .created | .indexed => True
  | .gotUser u => t.Normal → u.half = t.active
  | .copying h _ true => h = t.active ∧ t.marked = some h
  | .copying h _ false => h = t.active.other ∧ t.marked = some h
  | .loaded => t.marked = some t.active.other
  | .idle => t.ready = true → t.marked = some t.active.other
  | .clearing h _ => t.ready = true → h = t.active.other ∧ t.marked = some h

/-- The branch without a flip takes the half that the kernel does not write. -/
def ReentryOk (t : Tracker) : Label → Prop
  | .run _ firstWord =>
    match t.phase with
    | .gotUser _ => ¬ t.Normal → (firstWord = true ↔ t.active = .second)
    | _ => True
  | _ => True

theorem reentry_other {t : Tracker} {firstWord : Bool}
    (h : firstWord = true ↔ t.active = .second) : reentry firstWord = t.active.other := by
  unfold reentry
  cases firstWord with
  | true => rw [if_pos rfl, h.mp rfl, Half.other]
  | false =>
    have hne : t.active ≠ .second := fun hs => by simpa using h.mpr hs
    cases ha : t.active with
    | first => rfl
    | second => exact absurd ha hne

theorem phaseOk_run {nw : Nat} {t t' : Tracker} {u : BmapUser} {w : Bool} (hi : PhaseOk t)
    (hr : ReentryOk t (.run u w)) (h : t.run nw u w = some t') : PhaseOk t' := by
  unfold run at h
  unfold PhaseOk at hi
  split at h
  · cases h
  · cases h
    trivial
  · cases h
    intro hn
    have hn' : t.Normal := hn
    dsimp only
    rw [if_pos hn', half_user]
  · rename_i u' hp
    rw [hp] at hi
    split at h
    · rename_i hn
      cases h
      exact ⟨hi hn, rfl⟩
    · rename_i hn
      cases h
      unfold ReentryOk at hr
      rw [hp] at hr
      exact ⟨reentry_other (hr hn), rfl⟩
  · rename_i h' k flip hp
    rw [hp] at hi
    split at h
    · cases h
      cases flip with
      | true => exact hi
      | false => exact hi
    · split at h
      · rename_i hflip
        subst hflip
        cases h
        change t.marked = some t.active.other.other
        rw [hi.2, hi.1, Half.other_other]
      · rename_i hflip
        rw [Bool.not_eq_true] at hflip
        subst hflip
        cases h
        change t.marked = some t.active.other
        rw [hi.2, hi.1]
  · rename_i hp
    rw [hp] at hi
    cases h
    exact fun _ => hi
  · rename_i h' k hp
    rw [hp] at hi
    split at h
    · cases h
      exact hi
    · cases h
      intro hready
      rw [(hi hready).2, (hi hready).1]

/-- **Step lemma.** -/
theorem phaseOk_step {nw : Nat} {t t' : Tracker} {l : Label} (hi : PhaseOk t) (hr : ReentryOk t l)
    (h : t.step nw l = some t') : PhaseOk t' := by
  cases l with
  | run u w => exact phaseOk_run hi hr h
  | write f g =>
    cases h
    exact hi
  | other | revive =>
    cases h
    exact hi
  | request =>
    simp only [step] at h
    split at h
    · cases h
      trivial
    · cases h
  | terminate =>
    simp only [step] at h
    split at h
    · rename_i hp
      split at h
      · cases h
        exact hi
      · obtain ⟨h', hm, rfl⟩ := Option.map_eq_some_iff.mp h
        unfold PhaseOk at hi
        rw [hp] at hi
        intro hready
        exact ⟨Option.some.inj (hm.symm.trans (hi hready)), hm⟩
    · cases h
  | pause =>
    simp only [step] at h
    split at h
    · rename_i hp
      cases h
      unfold PhaseOk at hi ⊢
      rw [hp] at hi
      dsimp only
      rw [hp]
      exact hi
    · cases h
  | resume =>
    simp only [step] at h
    split at h
    · cases h
      unfold PhaseOk at hi ⊢
      dsimp only
      cases hp : t.phase with
      | gotUser u =>
        intro hn
        exact absurd rfl hn.2
      | copying h k flip =>
        rw [hp] at hi
        cases flip <;> exact hi
      | _ =>
        rw [hp] at hi
        exact hi
    · cases h
  | restart r =>
    cases h
    intro hready
    cases hready

end Tracker

end Ebdr
