import Ebdr.Server.View

/-!
# Rounds that are entered again

When `recovery_mode` is set, or the connection is in `CONN_OBJ_RESUME`, a metadata request does not
flip; it copies one of the halves again. Which one is guessed from the contents of the area, the
first half if its first word is not zero and the second one otherwise, and not from the kernel's
flag. `reentryHalf_eq_other_iff` says exactly when the guess is the half that the kernel does not
write. A start of the daemon makes a new user bitmap for every disk, which marks the second half; a
termination that comes before the next metadata request clears that half, whichever one the kernel
writes (`TerminationOk`).

`reentry_safe` is about the runs in which the guess and the mark are right: the copy, and every clear,
leave the kernel's half alone, and the bitmap shipped again has every bit of the interrupted round
(`Frozen`).
-/

namespace Ebdr

open ByteMem Lts

namespace Tracker

/-! ### The shipped bitmap -/

/-- The bits of the bitmap to ship are bits of the half it is loaded from, in copied words. -/
def ShipOk (nw : Nat) (t : Tracker) : Prop :=
  match t.phase with
  | .created | .indexed | .gotUser _ => ∀ b, t.ship b = false
  | .copying h k _ => ∀ b, t.ship b = true → word b < k ∧ word b < nw ∧ t.dirty h b = true
  | .loaded => ∀ b, t.ship b = true → word b < nw ∧ t.dirty t.active.other b = true
  | .idle | .clearing _ _ => True

theorem shipOk_run {nw : Nat} {t t' : Tracker} {u : BmapUser} {w : Bool} (hph : PhaseOk t)
    (hi : ShipOk nw t) (h : t.run nw u w = some t') : ShipOk nw t' := by
  unfold PhaseOk at hph
  unfold ShipOk at hi
  unfold run at h
  split at h
  · cases h
  · rename_i hp
    rw [hp] at hi
    cases h
    exact hi
  · rename_i hp
    rw [hp] at hi
    cases h
    exact hi
  · rename_i u' hp
    rw [hp] at hi
    have hnone : ∀ b, t.ship b = true → word b < 0 ∧ word b < nw ∧ False := by
      intro b hb
      rw [hi b] at hb
      cases hb
    split at h
    · cases h
      exact fun b hb => (hnone b hb).2.2.elim
    · cases h
      exact fun b hb => (hnone b hb).2.2.elim
  · rename_i h' k flip hp
    rw [hp] at hi hph
    split at h
    · rename_i hk
      cases h
      intro b hb
      dsimp only at hb ⊢
      by_cases hw : word b = k
      · rw [if_pos hw] at hb
        exact ⟨by omega, by omega, hb⟩
      · rw [if_neg hw] at hb
        obtain ⟨h1, h2, h3⟩ := hi b hb
        exact ⟨by omega, h2, h3⟩
    · split at h
      · rename_i hflip
        subst hflip
        cases h
        intro b hb
        obtain ⟨-, h2, h3⟩ := hi b hb
        refine ⟨h2, ?_⟩
        change t.dirty t.active.other.other b = true
        rw [Half.other_other, ← hph.1]
        exact h3
      · rename_i hflip
        rw [Bool.not_eq_true] at hflip
        subst hflip
        cases h
        intro b hb
        obtain ⟨-, h2, h3⟩ := hi b hb
        refine ⟨h2, ?_⟩
        change t.dirty t.active.other b = true
        rw [← hph.1]
        exact h3
  · cases h
    trivial
  · split at h
    · cases h
      trivial
    · cases h
      trivial

/-- **Step lemma.** -/
theorem shipOk_step {nw : Nat} {t t' : Tracker} {l : Label} (hph : PhaseOk t) (hi : ShipOk nw t)
    (h : t.step nw l = some t') : ShipOk nw t' := by
  cases l with
  | run u w => exact shipOk_run hph hi h
  | write f g =>
    cases h
    unfold ShipOk at hi ⊢
    dsimp only
    split at hi
    · exact hi
    · exact hi
    · exact hi
    · intro b hb
      obtain ⟨h1, h2, h3⟩ := hi b hb
      exact ⟨h1, h2, by rw [h3, Bool.or_true]⟩
    · intro b hb
      obtain ⟨h2, h3⟩ := hi b hb
      exact ⟨h2, by rw [h3, Bool.or_true]⟩
    · trivial
    · trivial
  | other | revive =>
    cases h
    exact hi
  | request =>
    simp only [step] at h
    split at h
    · cases h
      exact fun b => rfl
    · cases h
  | terminate =>
    simp only [step] at h
    split at h
    · split at h
      · cases h
        exact hi
      · obtain ⟨h', -, rfl⟩ := Option.map_eq_some_iff.mp h
        trivial
    · cases h
  | pause =>
    simp only [step] at h
    split at h
    · cases h
      exact hi
    · cases h
  | resume =>
    simp only [step] at h
    split at h
    · cases h
      exact hi
    · cases h
  | restart r =>
    cases h
    trivial

/-! ### The half that is cleared -/

/-- A clear works on the half that the kernel does not write. -/
def ClearOk (t : Tracker) : Prop := ∀ h k, t.phase = .clearing h k → h = t.active.other

/-- A termination finds a bitmap that was loaded, or the right half marked. -/
def TerminateOk (t : Tracker) : Label → Prop
  | .terminate => t.released = false → ∀ h, t.marked = some h → t.ready = true ∨ h = t.active.other
  | _ => True

theorem clearOk_of_phase {t : Tracker} (h : ∀ g k, t.phase ≠ .clearing g k) : ClearOk t :=
  fun g k hp => absurd hp (h g k)

theorem clearOk_run {nw : Nat} {t t' : Tracker} {u : BmapUser} {w : Bool} (hi : ClearOk t)
    (h : t.run nw u w = some t') : ClearOk t' := by
  unfold run at h
  split at h
  · cases h
  · cases h
    exact clearOk_of_phase (by simp)
  · cases h
    exact clearOk_of_phase (by simp)
  · split at h
    · cases h
      exact clearOk_of_phase (by simp [startCopy])
    · cases h
      exact clearOk_of_phase (by simp [startCopy])
  · split at h
    · cases h
      exact clearOk_of_phase (by simp)
    · split at h
      · cases h
        exact clearOk_of_phase (by simp)
      · cases h
        exact clearOk_of_phase (by simp)
  · cases h
    exact clearOk_of_phase (by simp)
  · rename_i g k hp
    split at h
    · cases h
      intro g' k' hp'
      cases hp'
      exact hi g k hp
    · cases h
      exact clearOk_of_phase (by simp)

/-- **Step lemma.** -/
theorem clearOk_step {nw : Nat} {t t' : Tracker} {l : Label} (hph : PhaseOk t)
    (ht : TerminateOk t l) (hi : ClearOk t) (h : t.step nw l = some t') : ClearOk t' := by
  cases l with
  | run u w => exact clearOk_run hi h
  | write | other | revive =>
    cases h
    exact hi
  | request =>
    simp only [step] at h
    split at h
    · cases h
      exact clearOk_of_phase (by simp)
    · cases h
  | terminate =>
    simp only [step] at h
    split at h
    · rename_i hp
      split at h
      · cases h
        exact hi
      · rename_i hrel
        obtain ⟨g, hm, rfl⟩ := Option.map_eq_some_iff.mp h
        intro g' k hp'
        cases hp'
        rcases ht (Bool.not_eq_true _ ▸ hrel) g hm with hready | hg
        · unfold PhaseOk at hph
          rw [hp] at hph
          exact Option.some.inj (hm.symm.trans (hph hready))
        · exact hg
    · cases h
  | pause | resume =>
    simp only [step] at h
    split at h
    · cases h
      exact hi
    · cases h
  | restart r =>
    cases h
    exact clearOk_of_phase (by simp)

/-! ### A frozen half -/

/-- Since a round that shipped the bits of `ship0` from half `g`: the kernel writes the other half,
`g` still has these bits, and what is copied from now on is copied from `g`. -/
structure Frozen (nw : Nat) (g : Half) (ship0 : Nat → Bool) (t : Tracker) : Prop where
  active : t.active = g.other
  kept : ∀ b, ship0 b = true → word b < nw ∧ t.dirty g b = true
  flips : ∀ h k, t.phase ≠ .copying h k true
  clears : ∀ h k, t.phase ≠ .clearing h k
  copied : ∀ h k, t.phase = .copying h k false → ∀ b, ship0 b = true → word b < k → t.ship b = true
  loaded : t.phase = .loaded → ∀ b, ship0 b = true → t.ship b = true

/-- Every branch is the one without a flip. -/
def Reenters (t : Tracker) : Label → Prop
  | .run _ _ =>
    match t.phase with
    | .gotUser _ => ¬ t.Normal
    | _ => True
  | _ => True

theorem frozen_run {nw : Nat} {g : Half} {ship0 : Nat → Bool} {t t' : Tracker} {u : BmapUser}
    {w : Bool} (hph : PhaseOk t) (hr : Reenters t (.run u w)) (hi : Frozen nw g ship0 t)
    (h : t.run nw u w = some t') : Frozen nw g ship0 t' := by
  unfold PhaseOk at hph
  unfold run at h
  split at h
  · cases h
  · cases h
    exact ⟨hi.active, hi.kept, by simp, by simp, by simp, by simp⟩
  · cases h
    exact ⟨hi.active, hi.kept, by simp, by simp, by simp, by simp⟩
  · rename_i u' hp
    rw [Reenters, hp] at hr
    rw [if_neg hr] at h
    cases h
    refine ⟨hi.active, hi.kept, by simp [startCopy], by simp [startCopy], ?_, by simp [startCopy]⟩
    intro h' k hp' b hb hlt
    cases hp'
    exact absurd hlt (Nat.not_lt_zero _)
  · rename_i h' k flip hp
    obtain rfl : flip = false := by
      cases flip with
      | true => exact absurd hp (hi.flips h' k)
      | false => rfl
    rw [hp] at hph
    have hg : h' = g := by rw [hph.1, hi.active, Half.other_other]
    split at h
    · cases h
      refine ⟨hi.active, hi.kept, by simp, by simp, ?_, by simp⟩
      intro h'' k'' hp' b hb hlt
      cases hp'
      dsimp only
      by_cases hw : word b = k
      · rw [if_pos hw, hg]
        exact (hi.kept b hb).2
      · rw [if_neg hw]
        exact hi.copied h' k hp b hb (by omega)
    · rename_i hk
      rw [if_neg (by decide)] at h
      cases h
      refine ⟨hi.active, hi.kept, by simp, by simp, by simp, ?_⟩
      intro _ b hb
      have hw := (hi.kept b hb).1
      exact hi.copied h' k hp b hb (by omega)
  · cases h
    exact ⟨hi.active, hi.kept, by simp, by simp, by simp, by simp⟩
  · rename_i h' k hp
    exact absurd hp (hi.clears h' k)

/-- **Step lemma.** -/
theorem frozen_step {nw : Nat} {g : Half} {ship0 : Nat → Bool} {t t' : Tracker} {l : Label}
    (hph : PhaseOk t) (hr : Reenters t l) (hl : l ≠ .terminate) (hi : Frozen nw g ship0 t)
    (h : t.step nw l = some t') : Frozen nw g ship0 t' := by
  cases l with
  | run u w => exact frozen_run hph hr hi h
  | write f g' =>
    cases h
    refine ⟨hi.active, ?_, hi.flips, hi.clears, hi.copied, hi.loaded⟩
    intro b hb
    obtain ⟨h1, h2⟩ := hi.kept b hb
    exact ⟨h1, by dsimp only; rw [h2, Bool.or_true]⟩
  | other =>
    cases h
    exact hi
  | revive =>
    cases h
    exact ⟨hi.active, hi.kept, hi.flips, hi.clears, hi.copied, hi.loaded⟩
  | request =>
    simp only [step] at h
    split at h
    · cases h
      exact ⟨hi.active, hi.kept, by simp, by simp, by simp, by simp⟩
    · cases h
  | terminate => exact absurd rfl hl
  | pause =>
    simp only [step] at h
    split at h
    · cases h
      exact ⟨hi.active, hi.kept, hi.flips, hi.clears, hi.copied, hi.loaded⟩
    · cases h
  | resume =>
    simp only [step] at h
    split at h
    · cases h
      exact ⟨hi.active, hi.kept, hi.flips, hi.clears, hi.copied, hi.loaded⟩
    · cases h
  | restart r =>
    cases h
    exact ⟨hi.active, hi.kept, by simp, by simp, by simp, by simp⟩

/-- A loaded bitmap freezes the half it was loaded from. -/
theorem frozen_of_loaded {nw : Nat} {t : Tracker} (hs : ShipOk nw t) (hp : t.phase = .loaded) :
    Frozen nw t.active.other t.ship t := by
  rw [ShipOk, hp] at hs
  exact ⟨(Half.other_other _).symm, hs, by simp [hp], by simp [hp], by simp [hp], fun _ _ hb => hb⟩

end Tracker

namespace Server

/-- The half of the device of partner `p` that the kernel writes. -/
def kernelHalf (s : Server) (p : Nat) : Half :=
  ((s.kernel.bitmapOf (p + 1)).map fun b => b.bmapUser.half).getD .first

/-- **The guess.** The branch without a flip takes the half that the kernel does not write exactly
when the first word of the area is not zero just in case the flag is `USER`. -/
theorem reentryHalf_eq_other_iff (m : Mem) (u : BmapUser) :
    reentryHalf m = u.half.other ↔ (loadLE m 0 8 ≠ 0 ↔ u = .user) := by
  unfold reentryHalf
  cases u <;> by_cases h : loadLE m 0 8 = 0 <;> simp [h, BmapUser.half, Half.other]

/-- The next step of the thread of `p` takes the branch without a flip. -/
def AtReentry (s : Server) (p : Nat) : Prop :=
  match s.phase p with
  | .gotUser _ => ¬ s.Normal p
  | _ => False

instance (s : Server) (p : Nat) : Decidable (AtReentry s p) :=
  show Decidable (match s.phase p with | .gotUser _ => ¬ s.Normal p | _ => False) from
    match s.phase p with
    | .gotUser _ => inferInstanceAs (Decidable (¬ s.Normal p))
    | .idle | .created | .indexed | .copying .. | .loaded | .clearing .. => isFalse not_false

/-- The guess is right when the thread of `p` makes it. -/
def GuessOk (p : Nat) (s : Server) (e : Event) : Prop :=
  e = .run p → AtReentry s p → ∀ d ∈ s.srcDisk p, ∀ bm ∈ s.kernel.bitmapOf (p + 1),
    (loadLE (s.kernel.mem d.area) 0 8 ≠ 0 ↔ bm.bmapUser = .user)

instance (p : Nat) (s : Server) (e : Event) : Decidable (GuessOk p s e) := by
  unfold GuessOk
  infer_instance

/-- Every branch of the thread of `p` is the one without a flip. -/
def ReentersOnly (p : Nat) (s : Server) (e : Event) : Prop :=
  e = .run p →
    match s.phase p with
    | .gotUser _ => ¬ s.Normal p
    | _ => True

instance (p : Nat) (s : Server) (e : Event) : Decidable (ReentersOnly p s e) :=
  show Decidable (e = .run p → match s.phase p with | .gotUser _ => ¬ s.Normal p | _ => True) from
    match s.phase p with
    | .gotUser _ => inferInstanceAs (Decidable (e = .run p → ¬ s.Normal p))
    | .idle | .created | .indexed | .copying .. | .loaded | .clearing .. =>
      isTrue fun _ => trivial

/-- A termination of `p` that is not ignored finds the bitmap of a metadata request answered since the
daemon started, or a new one that marks the half the kernel does not write. -/
def TerminationOk (p : Nat) (s : Server) (e : Event) : Prop :=
  e = .recvTerminate p → s.partnerState p ≠ .released → ∀ ub ∈ s.ubitmap p,
    ub.bitmapState = .ready ∨ ∀ bm ∈ s.kernel.bitmapOf (p + 1), bm.bmapUser = ub.bmapUser

instance (p : Nat) (s : Server) (e : Event) : Decidable (TerminationOk p s e) := by
  unfold TerminationOk
  infer_instance

/-- What the thread of `p` does with the halves of its device: the copy without a flip reads the half
that the kernel does not write, and marks it; a clear changes no bit of the kernel's half. -/
structure HalvesSafe (p : Nat) (d : SrcDisk) (s : Server) : Prop where
  copy : ∀ h k, s.phase p = .copying h k false →
    h = (s.kernelHalf p).other ∧ ∃ ub, s.ubitmap p = some ub ∧ ub.bmapUser.marked = h
  clear : ∀ h k s', s.phase p = .clearing h k → s.step (.run p) = some s' →
    s'.kernelHalf p = s.kernelHalf p ∧
      ∀ b, b < 8 * d.bitmapSize → s'.halfBit d (s.kernelHalf p) b = s.halfBit d (s.kernelHalf p) b

/-! ### The invariant of the runs -/

/-- The invariant of a run with the guess and the mark right, seen from partner `p`. -/
structure ReentryInv (p : Nat) (d : SrcDisk) (s : Server) : Prop where
  coherent : Coherent s
  disk : s.srcDisk p = some d
  phase : (s.view p d).PhaseOk
  clear : (s.view p d).ClearOk
  ship : (s.view p d).ShipOk (d.bitmapSize / 8)

theorem reentryInv_ready {s : Server} {p : Nat} {d : SrcDisk} (h : Ready s)
    (hd : s.srcDisk p = some d) (hub : s.ubitmap p = none) : ReentryInv p d s := by
  have hp : (s.view p d).phase = .idle := h.idle p
  have hr : (s.view p d).ready = false := by rw [view, hub, Option.any_none]
  refine ⟨h.coherent, hd, ?_, ?_, ?_⟩
  · rw [Tracker.PhaseOk, hp]
    intro hready
    rw [hr] at hready
    cases hready
  · exact Tracker.clearOk_of_phase (by simp [hp])
  · rw [Tracker.ShipOk, hp]
    trivial

theorem reentryOk_of_guess {s : Server} {p : Nat} {d : SrcDisk} {e : Event} (hc : Coherent s)
    (hd : s.srcDisk p = some d) (hg : GuessOk p s e) :
    (s.view p d).ReentryOk (s.label p e) := by
  obtain ⟨a, hok⟩ := hc.disk p d hd
  have hbm := hok.bitmapOf hc.kernel
  cases hl : s.label p e with
  | run u w =>
    obtain rfl := label_run hl
    rw [label, if_pos rfl, hd, Option.any_some] at hl
    cases hl
    unfold Tracker.ReentryOk
    dsimp only
    split
    · rename_i u' hp
      intro hn
      have hps : s.phase p = .gotUser u' := hp
      have hat : AtReentry s p := by
        rw [AtReentry, hps]
        exact hn
      have hguess := hg rfl hat d hd _ hbm
      rw [decide_eq_true_eq, hguess, view_active hc hok]
      cases (s.kernel.bitmaps a).bmapUser <;> simp [BmapUser.half]
    · trivial
  | _ => trivial

theorem terminateOk_of_mark {s : Server} {p : Nat} {d : SrcDisk} {e : Event} (hc : Coherent s)
    (hd : s.srcDisk p = some d) (ht : TerminationOk p s e) :
    (s.view p d).TerminateOk (s.label p e) := by
  obtain ⟨a, hok⟩ := hc.disk p d hd
  have hbm := hok.bitmapOf hc.kernel
  cases hl : s.label p e with
  | terminate =>
    intro hrel h hm
    have hst : s.partnerState p ≠ .released := of_decide_eq_false hrel
    obtain ⟨ub, hub, rfl⟩ := Option.map_eq_some_iff.mp hm
    refine (ht (label_terminate hl) hst ub hub).imp (fun hready => ?_) fun hmark => ?_
    · rw [view, hub, Option.any_some, decide_eq_true hready]
    · rw [view_active hc hok, hmark _ hbm, BmapUser.marked]
  | _ => trivial

/-- **Step lemma.** -/
theorem reentryInv_step {p : Nat} {d : SrcDisk} {s s' : Server} {e : Event}
    (hi : ReentryInv p d s) (hn : NoControl e) (hk : KeepsIndex s e) (hg : GuessOk p s e)
    (ht : TerminationOk p s e) (h : s.step e = some s') : ReentryInv p d s' := by
  have hview := view_step hi.coherent hi.disk hn h
  have hre := reentryOk_of_guess hi.coherent hi.disk hg
  have hterm := terminateOk_of_mark hi.coherent hi.disk ht
  refine ⟨coherent_step hi.coherent hn hk h, ?_, Tracker.phaseOk_step hi.phase hre hview,
    Tracker.clearOk_step hi.phase hterm hi.clear hview, Tracker.shipOk_step hi.phase hi.ship hview⟩
  rw [(sameTables_step hi.coherent hn h).disk]
  exact hi.disk

theorem view_half {s : Server} {p : Nat} {d : SrcDisk} {h : Half} {b : Nat}
    (hb : b < 8 * d.bitmapSize) : (s.view p d).dirty h b = s.halfBit d h b := by
  rw [view]
  dsimp only
  rw [decide_eq_true hb, Bool.true_and, halfBit]

theorem ReentryInv.halvesSafe {p : Nat} {d : SrcDisk} {s : Server} (hi : ReentryInv p d s) :
    HalvesSafe p d s := by
  have hph := hi.phase
  have hact : (s.view p d).active = s.kernelHalf p := rfl
  refine ⟨?_, ?_⟩
  · intro h k hp
    have hpv : (s.view p d).phase = .copying h k false := hp
    rw [Tracker.PhaseOk, hpv] at hph
    obtain ⟨hh, hm⟩ := hph
    obtain ⟨ub, hub, hmark⟩ := Option.map_eq_some_iff.mp hm
    exact ⟨hh, ub, hub, hmark⟩
  · intro h k s' hp hs
    have hpv : (s.view p d).phase = .clearing h k := hp
    have hh := hi.clear h k hpv
    have hview := view_step hi.coherent hi.disk (e := .run p) trivial hs
    rw [label, if_pos rfl, Tracker.step, Tracker.run, hpv] at hview
    dsimp only at hview
    have hkeep : (s'.view p d).active = (s.view p d).active ∧
        ∀ b, (s'.view p d).dirty (s.view p d).active b =
          (s.view p d).dirty (s.view p d).active b := by
      split at hview
      · rw [Option.some.injEq] at hview
        rw [← hview]
        refine ⟨rfl, fun b => ?_⟩
        dsimp only
        rw [if_neg fun hc => (s.view p d).active.other_ne (hh ▸ hc.1.symm)]
      · rw [Option.some.injEq] at hview
        rw [← hview]
        exact ⟨rfl, fun b => rfl⟩
    refine ⟨hkeep.1, fun b hb => ?_⟩
    rw [← view_half hb, ← view_half hb]
    exact hkeep.2 b

theorem reenters_of_only {p : Nat} {d : SrcDisk} {s : Server} {e : Event}
    (h : ReentersOnly p s e) : (s.view p d).Reenters (s.label p e) := by
  cases hl : s.label p e with
  | run u w =>
    have hr := h (label_run hl)
    unfold Tracker.Reenters
    dsimp only
    split
    · rename_i u' hp
      have hps : s.phase p = .gotUser u' := hp
      rw [hps] at hr
      exact hr
    · trivial
  | _ => trivial

/-- **Re-entered rounds.** In a run in which every branch without a flip guesses the half that the
kernel does not write, every termination finds a loaded bitmap or the right mark, and no store changes
the index of another request's window, the copy without a flip and every clear leave the half that
the kernel writes alone, and a bitmap shipped by a round that was entered again has every bit shipped
by the interrupted round, with the same half marked. -/
theorem reentry_safe {p : Nat} {d : SrcDisk} {s0 s1 s2 : Server} {es1 es2 : List Event}
    (h0 : Ready s0) (hd : s0.srcDisk p = some d) (hub : s0.ubitmap p = none)
    (h1 : run step s0 es1 = some s1) (h2 : run step s1 es2 = some s2)
    (hok : Meets step (fun s e => NoControl e ∧ KeepsIndex s e ∧ GuessOk p s e ∧ TerminationOk p s e)
      s0 (es1 ++ es2)) :
    HalvesSafe p d s2 ∧
      ∀ ub1, s1.phase p = .loaded → s1.ubitmap p = some ub1 → .recvTerminate p ∉ es2 →
        Meets step (ReentersOnly p) s1 es2 → s2.phase p = .loaded →
          ∃ ub2, s2.ubitmap p = some ub2 ∧ ub2.bmapUser.marked = ub1.bmapUser.marked ∧
            ∀ b, bit ub1.bitmapArea b = true → bit ub2.bitmapArea b = true := by
  obtain ⟨hok1, hok2⟩ := meets_append.mp hok
  have hstep : ∀ s e s', ReentryInv p d s →
      NoControl e ∧ KeepsIndex s e ∧ GuessOk p s e ∧ TerminationOk p s e →
        s.step e = some s' → ReentryInv p d s' :=
    fun s e s' hi hok hs => reentryInv_step hi hok.1 hok.2.1 hok.2.2.1 hok.2.2.2 hs
  have hi1 := run_inv hstep (reentryInv_ready h0 hd hub) hok1 h1
  have hi2 := run_inv hstep hi1 (hok2 s1 h1) h2
  refine ⟨hi2.halvesSafe, ?_⟩
  intro ub1 hp1 hub1 hnt hre hp2
  have hm1 : (s1.view p d).PhaseOk := hi1.phase
  have hpv1 : (s1.view p d).phase = .loaded := hp1
  have hpv2 : (s2.view p d).phase = .loaded := hp2
  have hfrozen : (s2.view p d).Frozen (d.bitmapSize / 8) (s1.view p d).active.other
      (s1.view p d).ship := by
    have hnt' : Meets step (fun _ e => e ≠ .recvTerminate p) s1 es2 :=
      meets_of_forall s1 fun e he heq => hnt (heq ▸ he)
    have hall := meets_and.mpr ⟨hok2 s1 h1, meets_and.mpr ⟨hnt', hre⟩⟩
    refine (run_inv (I := fun s => ReentryInv p d s ∧ (s.view p d).Frozen _ _ _) ?_
      ⟨hi1, Tracker.frozen_of_loaded hi1.ship hpv1⟩ hall h2).2
    intro s e s' hj hok hs
    have hview := view_step hj.1.coherent hj.1.disk hok.1.1 hs
    exact ⟨hstep s e s' hj.1 hok.1 hs, Tracker.frozen_step hj.1.phase (reenters_of_only hok.2.2)
      (fun hl => hok.2.1 (label_terminate hl)) hj.2 hview⟩
  have hm2 : (s2.view p d).PhaseOk := hi2.phase
  rw [Tracker.PhaseOk, hpv1, view_marked hub1] at hm1
  rw [Tracker.PhaseOk, hpv2] at hm2
  obtain ⟨ub2, hub2, hmark⟩ := Option.map_eq_some_iff.mp hm2
  refine ⟨ub2, hub2, ?_, ?_⟩
  · rw [hmark, hfrozen.active, Half.other_other, ← Option.some.inj hm1]
  · intro b hb
    have hs := hfrozen.loaded hpv2 b (by rw [view, hub1]; exact hb)
    rw [view, hub2] at hs
    exact hs

/-! ### A right guess, and a wrong one -/

/-- Partner 0's connection breaks after its bitmap was loaded and is bound again; the client asks
for the metadata again. -/
def resumed : List Event := [.run 0, .connPause 0, .connResume 0, .recvMetadata 0]

/-- A request of partner 0, up to the loaded bitmap. -/
def untilLoaded : List Event := .recvMetadata 0 :: List.replicate 6 (.run 0)

/-- With a bit of the first word dirty, the round entered again ships it again. -/
theorem reentry_safe_firstWord :
    ∃ s1 s2 ub1 ub2, run step twoDevices (.write 1 ⟨6, 512, true⟩ :: untilLoaded) = some s1 ∧
      run step s1 (resumed ++ List.replicate 6 (.run 0)) = some s2 ∧
        s1.ubitmap 0 = some ub1 ∧ s2.ubitmap 0 = some ub2 ∧ bit ub1.bitmapArea 3 = true ∧
          HalvesSafe 0 ⟨16, 0⟩ s2 ∧ ub2.bmapUser.marked = ub1.bmapUser.marked ∧
            ∀ b, bit ub1.bitmapArea b = true → bit ub2.bitmapArea b = true := by
  have hsome : (run step twoDevices ((.write 1 ⟨6, 512, true⟩ :: untilLoaded) ++
      (resumed ++ List.replicate 6 (.run 0)))).isSome = true := by decide
  obtain ⟨s2, hr⟩ := Option.isSome_iff_exists.mp hsome
  obtain ⟨s1, h01, h12⟩ := run_append_some.mp hr
  have h1 : (run step twoDevices (.write 1 ⟨6, 512, true⟩ :: untilLoaded)).map
      (fun s => (s.phase 0, (s.ubitmap 0).map fun ub => bit ub.bitmapArea 3)) =
        some (.loaded, some true) := by decide
  rw [h01, Option.map_some, Option.some.injEq, Prod.mk.injEq] at h1
  obtain ⟨ub1, hub1, hbit⟩ := Option.map_eq_some_iff.mp h1.2
  have h2 : (run step twoDevices ((.write 1 ⟨6, 512, true⟩ :: untilLoaded) ++
      (resumed ++ List.replicate 6 (.run 0)))).map (fun s => s.phase 0) = some .loaded := by decide
  rw [hr, Option.map_some, Option.some.injEq] at h2
  have hidx : Meets step KeepsIndex twoDevices ((.write 1 ⟨6, 512, true⟩ :: untilLoaded) ++
      (resumed ++ List.replicate 6 (.run 0))) :=
    meets_keepsIndex 2 (fun _ _ => rfl) (by decide) (by decide)
  have hok : Meets step (fun s e => NoControl e ∧ GuessOk 0 s e ∧ TerminationOk 0 s e) twoDevices
      ((.write 1 ⟨6, 512, true⟩ :: untilLoaded) ++ (resumed ++ List.replicate 6 (.run 0))) := by
    decide
  have hall := meets_and.mpr ⟨(meets_and.mp hok).1, meets_and.mpr ⟨hidx, (meets_and.mp hok).2⟩⟩
  obtain ⟨hsafe, hship⟩ := reentry_safe ready_twoDevices rfl rfl h01 h12 hall
  have honly : (run step twoDevices (.write 1 ⟨6, 512, true⟩ :: untilLoaded)).all
      (fun s => decide (Meets step (ReentersOnly 0) s (resumed ++ List.replicate 6 (.run 0)))) =
        true := by decide
  rw [h01, Option.all_some, decide_eq_true_eq] at honly
  obtain ⟨ub2, hub2, hmark, hbits⟩ := hship ub1 h1.1 hub1 (by decide) honly h2
  exact ⟨s1, s2, ub1, ub2, h01, h12, hub1, hub2, hbit, hsafe, hmark, hbits⟩

/-- With only a bit of the second word dirty, the round entered again reads, and marks for the
clear, the half that the kernel writes. -/
theorem reentry_wrong_half :
    ¬ ∀ (p : Nat) (d : SrcDisk) (s0 s1 : Server) (es : List Event), Ready s0 →
      s0.srcDisk p = some d → s0.ubitmap p = none → (∀ e ∈ es, NoControl e) →
        run step s0 es = some s1 → HalvesSafe p d s1 := by
  intro h
  have hrun : (run step twoDevices (.write 1 ⟨140, 512, true⟩ :: (untilLoaded ++ resumed ++
      List.replicate 3 (.run 0)))).map (fun s => (s.phase 0, s.kernelHalf 0)) =
        some (.copying .second 0 false, .second) := by decide
  obtain ⟨s1, hr, hs1⟩ := Option.map_eq_some_iff.mp hrun
  rw [Prod.mk.injEq] at hs1
  have hsafe := h 0 ⟨16, 0⟩ twoDevices s1 _ ready_twoDevices rfl rfl (by decide) hr
  have hhalf := (hsafe.copy .second 0 hs1.1).1
  rw [hs1.2] at hhalf
  cases hhalf

/-- A loaded bitmap, a start of the daemon, a write, and the termination of the round. -/
def startedAgain : List Event :=
  untilLoaded ++ [.restart, .write 1 ⟨6, 512, true⟩, .recvTerminate 0]

/-- The daemon starts again between a round and its termination: the clear is of the half that the
kernel writes. -/
theorem termination_after_start :
    ∃ s, run step twoDevices startedAgain = some s ∧ ¬ HalvesSafe 0 ⟨16, 0⟩ s := by
  have hrun : (run step twoDevices startedAgain).map
      (fun s => (s.phase 0, s.kernelHalf 0)) = some (.clearing .second 0, .second) := by decide
  have hbefore : (run step twoDevices startedAgain).map
      (fun s => s.halfBit ⟨16, 0⟩ .second 3) = some true := by decide +kernel
  have hafter : (run step twoDevices (startedAgain ++ [.run 0])).map
      (fun s => s.halfBit ⟨16, 0⟩ .second 3) = some false := by decide +kernel
  obtain ⟨s, hs, hvals⟩ := Option.map_eq_some_iff.mp hrun
  obtain ⟨s', hs', hcleared⟩ := Option.map_eq_some_iff.mp hafter
  rw [hs, Option.map_some, Option.some.injEq] at hbefore
  obtain ⟨t, ht, hstep⟩ := run_snoc_some.mp hs'
  obtain rfl : s = t := Option.some.inj (hs.symm.trans ht)
  rw [Prod.mk.injEq] at hvals
  refine ⟨s, hs, fun hsafe => ?_⟩
  have hkept := (hsafe.clear .second 0 s' hvals.1 hstep).2 3 (by decide)
  rw [hvals.2, hbefore, hcleared] at hkept
  cases hkept

end Server

end Ebdr
