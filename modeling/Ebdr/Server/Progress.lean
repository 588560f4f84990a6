import Ebdr.Lib.Reach
import Ebdr.Server.Shipment

/-!
# The thread of a partner gets on

While no other request is in its window, the thread of a partner can run from a metadata request to
the send of the bitmap (`can_load`), and from a termination to the end of the clear (`can_clear`),
by its own steps.
-/

namespace Ebdr

open ByteMem Lts

namespace Server

/-- A step of the thread of `p`, other than the send of the bitmap. -/
def RunsOnly (p : Nat) (s : Server) (e : Event) : Prop :=
  e = .run p ∧ s.phase p ≠ .loaded ∧ KeepsIndex s e

/-- The thread of `p` works, and no other request is in its window. -/
structure Working (p : Nat) (d : SrcDisk) (s : Server) : Prop where
  inv : RoundInv p d s
  alone : ∀ q, s.InWindow q → q = p
  ubitmap : (s.ubitmap p).isSome = true
  held : (s.phase p).Loading → s.partnerState p ≠ .released

variable {p : Nat} {d : SrcDisk} {s s' : Server}

theorem ubitmap_isSome_run (h : ThreadStep p s s') (hub : (s.ubitmap p).isSome = true) :
    (s'.ubitmap p).isSome = true := by
  cases h with
  | choose =>
    unfold choose
    split <;> simp [chooseHalf, setPhase, setUbitmap]
  | copy | flip | keep => simp [setPhase, setUbitmap]
  | index | getUser | send | clear | clearEnd => exact hub

theorem held_run (h : ThreadStep p s s') (hlo : (s'.phase p).Loading) :
    (s.phase p).Loading ∧ s'.partnerState p = s.partnerState p := by
  cases h with
  | index hp | getUser hp | copy hp | flip hp | keep hp =>
    rw [hp]
    exact ⟨trivial, rfl⟩
  | choose hp hub hd =>
    rw [hp]
    refine ⟨trivial, ?_⟩
    unfold choose
    split <;> rfl
  | send | clear | clearEnd => simp [setPhase, Phase.Loading] at hlo

namespace Working

theorem keepsIndex (h : Working p d s) : KeepsIndex s (.run p) := by
  intro v hv q hq
  rw [storesIndex] at hv
  split at hv
  · rw [h.alone q hq, ← Option.some.inj hv]
  · cases hv

theorem run (h : Working p d s) (hs : s.step (.run p) = some s') : Working p d s' := by
  have ht := threadStep_of_run hs
  refine ⟨roundInv_step (e := .run p) h.inv trivial h.keepsIndex hs, fun q hq => ?_,
    ubitmap_isSome_run ht h.ubitmap, fun hlo => ?_⟩
  · by_contra hne
    exact hne (h.alone q ((threadStep_same hne ht).inWindow.mp hq))
  · obtain ⟨hlo, hsame⟩ := held_run ht hlo
    rw [hsame]
    exact h.held hlo

theorem can_next {P : Server → Prop} (h : Working p d s) (hp : s.phase p ≠ .loaded)
    (hs : s.step (.run p) = some s') (hnext : Working p d s' → Can step (RunsOnly p) P s') :
    Can step (RunsOnly p) P s :=
  (hnext (h.run hs)).next hs ⟨rfl, hp, h.keepsIndex⟩

theorem index (h : Working p d s) (hw : s.InWindow p) : s.ioctlObj.index = p + 1 :=
  h.inv.coherent.index p hw

theorem not_inWindow (h : Working p d s) (hp : s.phase p = .idle) (q : Nat) : ¬ s.InWindow q := by
  intro hq
  obtain rfl := h.alone q hq
  rw [InWindow, hp] at hq
  exact hq

theorem normal (h : Working p d s) : s.Normal p := h.inv.rounds.normal

theorem ubitmap_eq (h : Working p d s) : ∃ ub, s.ubitmap p = some ub :=
  Option.isSome_iff_exists.mp h.ubitmap

end Working

/-! ### The metadata request -/

theorem working_request (hi : RoundInv p d s) (hp : s.phase p = .idle) (hw : ∀ q, ¬ s.InWindow q) :
    ∃ s', s.step (.recvMetadata p) = some s' ∧ Working p d s' ∧ s'.phase p = .created := by
  have hs := show s.step (.recvMetadata p) = some _ by
    rw [step, getBitmap, if_pos hp]
  refine ⟨_, hs, ⟨?_, ?_, ?_, ?_⟩, Function.update_self _ _ _⟩
  · exact roundInv_step (e := .recvMetadata p) hi trivial (fun v hv => by cases hv) hs
  · intro q hq
    by_contra hne
    have hsame := step_same (q := q) (e := .recvMetadata p)
      (fun heq => hne (Option.some.inj heq).symm) (by simp) hs
    exact hw q (hsame.inWindow.mp hq)
  · simp [setPhase, setUbitmap]
  · intro _
    simp only [setPhase, setUbitmap, Function.update_self]
    split
    · simp
    · assumption

theorem can_index (h : Working p d s) (hp : s.phase p = .created) :
    Can step (RunsOnly p) (fun t => Working p d t ∧ t.phase p = .indexed) s := by
  have hs : s.step (.run p) =
      some ({ s with ioctlObj := { s.ioctlObj with index := p + 1 } }.setPhase p .indexed) := by
    simp only [step, runThread, hp]
  exact h.can_next (by simp [hp]) hs fun hw => can_of ⟨hw, Function.update_self _ _ _⟩

theorem can_getUser (h : Working p d s) (hp : s.phase p = .indexed) :
    Can step (RunsOnly p) (fun t => Working p d t ∧ ∃ u, t.phase p = .gotUser u) s := by
  have hw : s.InWindow p := by
    rw [InWindow, hp]
    exact h.normal
  obtain ⟨a, hok⟩ := h.inv.coherent.disk p d h.inv.disk
  have hu : s.kernel.getUser s.ioctlObj.index = some (s.kernel.bitmaps a).bmapUser := by
    rw [h.index hw, Kernel.getUser, hok.bitmapOf h.inv.coherent.kernel, Option.bind_some,
      hok.device.ptr, Option.map_some]
  have hs : s.step (.run p) = some (s.setPhase p (.gotUser (s.kernel.bitmaps a).bmapUser)) := by
    simp only [step, runThread, hp, hu, Option.map_some]
  exact h.can_next (by simp [hp]) hs fun hw => can_of ⟨hw, _, Function.update_self _ _ _⟩

theorem can_choose {u : BmapUser} (h : Working p d s) (hp : s.phase p = .gotUser u) :
    Can step (RunsOnly p) (fun t => Working p d t ∧ ∃ g, t.phase p = .copying g 0 true) s := by
  obtain ⟨ub, hub⟩ := h.ubitmap_eq
  have hs : s.step (.run p) = some (s.chooseHalf p ub d.bitmapSize u.half true) := by
    simp only [step, runThread, hp, hub, h.inv.disk, Option.bind_some, Option.map_some, choose,
      if_pos h.normal]
  exact h.can_next (by simp [hp]) hs fun hw => can_of ⟨hw, _, Function.update_self _ _ _⟩

theorem can_copy {g : Half} {k : Nat} (hmax : d.bitmapSize ≤ bitmapSizeMax)
    (hk : k < d.bitmapSize / 8) (h : Working p d s) (hp : s.phase p = .copying g k true) :
    Can step (RunsOnly p) (fun t => Working p d t ∧ ∃ g, t.phase p = .copying g (k + 1) true) s := by
  obtain ⟨ub, hub⟩ := h.ubitmap_eq
  have hsize := h.inv.coherent.size p ub d g k true hp hub h.inv.disk
  have hlt : k < ub.bitmapSize / 8 := by rwa [hsize]
  have hin : 8 * (k + 1) ≤ bitmapSizeMax := by omega
  have hs := show s.step (.run p) = some _ by
    simp only [step, runThread, hp, hub, h.inv.disk, Option.bind_some, copyStep, if_pos hlt,
      if_pos hin]
    rfl
  exact h.can_next (by simp [hp]) hs fun hw => can_of ⟨hw, g, Function.update_self _ _ _⟩

/-- The bitmap is loaded. -/
def Loaded (p : Nat) (d : SrcDisk) (s : Server) : Prop :=
  s.phase p = .loaded ∧ ∃ ub, s.ubitmap p = some ub ∧ ub.bitmapSize = d.bitmapSize

theorem can_flip {g : Half} (h : Working p d s)
    (hp : s.phase p = .copying g (d.bitmapSize / 8) true) :
    Can step (RunsOnly p) (fun t => Working p d t ∧ Loaded p d t) s := by
  obtain ⟨ub, hub⟩ := h.ubitmap_eq
  have hsize := h.inv.coherent.size p ub d g _ true hp hub h.inv.disk
  have hw : s.InWindow p := by
    rw [InWindow, hp]
    trivial
  obtain ⟨a, hok⟩ := h.inv.coherent.disk p d h.inv.disk
  have hend : ¬ d.bitmapSize / 8 < ub.bitmapSize / 8 := by omega
  have hs := show s.step (.run p) = some _ by
    simp only [step, runThread, hp, hub, h.inv.disk, Option.bind_some, copyStep, if_neg hend, if_pos,
      h.index hw, Kernel.flipBitmapArea_spec h.inv.coherent.kernel hok.created hok.device,
      Option.map_some]
    rfl
  refine h.can_next (by simp [hp]) hs fun hw => can_of ⟨hw, Function.update_self _ _ _, ?_⟩
  exact ⟨_, Function.update_self _ _ _, hsize⟩

theorem can_load (hmax : d.bitmapSize ≤ bitmapSizeMax) (h : Working p d s)
    (hp : s.phase p = .created) :
    Can step (RunsOnly p) (fun t => Working p d t ∧ Loaded p d t) s := by
  refine (can_index h hp).bind fun s1 h1 => (can_getUser h1.1 h1.2).bind fun s2 h2 => ?_
  obtain ⟨h2, u, hp2⟩ := h2
  refine (can_choose h2 hp2).bind fun s3 h3 => ?_
  refine (can_of_count (P := fun k t => Working p d t ∧ ∃ g, t.phase p = .copying g k true)
    (n := d.bitmapSize / 8) (fun k hk t ht => ?_) h3).bind fun s4 h4 => ?_
  · obtain ⟨ht, g, hg⟩ := ht
    exact can_copy hmax hk ht hg
  · obtain ⟨h4, g, hg⟩ := h4
    exact can_flip h4 hg

theorem send_step (h : Working p d s) (hl : Loaded p d s) :
    s.step (.run p) = some (s.setPhase p .idle) ∧ (s.setPhase p .idle).phase p = .idle ∧
      (∀ q, ¬ (s.setPhase p .idle).InWindow q) ∧ (s.setPhase p .idle).partnerState p ≠ .released ∧
        ((s.setPhase p .idle).ubitmap p).isSome = true := by
  have hs : s.step (.run p) = some (s.setPhase p .idle) := by
    simp only [step, runThread, hl.1]
  have hidle : (s.setPhase p .idle).phase p = .idle := Function.update_self _ _ _
  exact ⟨hs, hidle, (h.run hs).not_inWindow hidle, h.held (by rw [hl.1]; trivial), h.ubitmap⟩

/-! ### The termination -/

theorem working_terminate (hi : RoundInv p d s) (hp : s.phase p = .idle)
    (hw : ∀ q, ¬ s.InWindow q) (hheld : s.partnerState p ≠ .released)
    (hub : (s.ubitmap p).isSome = true) :
    ∃ s' g, s.step (.recvTerminate p) = some s' ∧ Working p d s' ∧ s'.phase p = .clearing g 0 := by
  obtain ⟨ub, hub'⟩ := Option.isSome_iff_exists.mp hub
  have hs : s.step (.recvTerminate p) = some (s.setPhase p (.clearing ub.bmapUser.marked 0)) := by
    rw [step, terminate, if_pos hp, if_neg hheld, hub', Option.map_some]
  have hph : (s.setPhase p (.clearing ub.bmapUser.marked 0)).phase p =
      .clearing ub.bmapUser.marked 0 := Function.update_self _ _ _
  refine ⟨_, _, hs, ⟨?_, ?_, hub, ?_⟩, hph⟩
  · exact roundInv_step (e := .recvTerminate p) hi trivial (fun v hv => by cases hv) hs
  · intro q hq
    by_contra hne
    have hsame := step_same (q := q) (e := .recvTerminate p)
      (fun heq => hne (Option.some.inj heq).symm) (by simp) hs
    exact hw q (hsame.inWindow.mp hq)
  · intro hlo
    rw [hph] at hlo
    exact hlo.elim

theorem can_clearWord {g : Half} {k : Nat} (hk : k < d.bitmapSize / 8) (h : Working p d s)
    (hp : s.phase p = .clearing g k) :
    Can step (RunsOnly p) (fun t => Working p d t ∧ t.phase p = .clearing g (k + 1)) s := by
  have hs := show s.step (.run p) = some _ by
    simp only [step, runThread, hp, h.inv.disk, Option.map_some, clearStep, if_pos hk]
    rfl
  exact h.can_next (by simp [hp]) hs fun hw => can_of ⟨hw, Function.update_self _ _ _⟩

theorem can_clear {g : Half} (h : Working p d s) (hp : s.phase p = .clearing g 0) :
    Can step (RunsOnly p) (fun t => t.phase p = .idle ∧ t.partnerState p = .released ∧
      ∀ q, ¬ t.InWindow q) s := by
  refine (can_of_count (P := fun k t => Working p d t ∧ t.phase p = .clearing g k)
    (n := d.bitmapSize / 8) (fun k hk t ht => can_clearWord hk ht.1 ht.2) ⟨h, hp⟩).bind fun t ht => ?_
  obtain ⟨ht, hpt⟩ := ht
  have hs := show t.step (.run p) = some _ by
    simp only [step, runThread, hpt, ht.inv.disk, Option.map_some, clearStep,
      if_neg (Nat.lt_irrefl _)]
    rfl
  refine ht.can_next (by simp [hpt]) hs fun hw => can_of ?_
  refine ⟨Function.update_self _ _ _, Function.update_self _ _ _, hw.not_inWindow ?_⟩
  exact Function.update_self _ _ _

end Server

end Ebdr
