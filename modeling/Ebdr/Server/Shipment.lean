import Ebdr.Server.DirtyBits

/-!
# What is shipped, and what is cleared

In rounds with a flip the half that is cleared is the one that was copied before the flip. `Carried`
follows a copy: the words it has passed are in the bitmap to ship, and after the flip the whole half
is. It is kept as long as no write sets a bit of a word that the copy has passed (`carried_step`).
`Halves` says what a step does to the two halves otherwise.
-/

namespace Ebdr

open ByteMem Lts

/-- The phases of a metadata request. -/
def Phase.Loading : Phase → Prop
  | .created | .indexed | .gotUser _ | .copying .. | .loaded => True
  | .idle | .clearing .. => False

def Phase.Clearing : Phase → Prop
  | .clearing .. => True
  | _ => False

theorem Half.eq_other {h g : Half} (hne : h ≠ g) : h = g.other := by
  cases h <;> cases g <;> first | rfl | exact absurd rfl hne

theorem Phase.cases_loading (ph : Phase) : ph = .idle ∨ ph.Loading ∨ ph.Clearing := by
  cases ph <;> simp [Loading, Clearing]

namespace Tracker

/-- The dirty bits lie in the `nw` words of a half. -/
def Bounded (nw : Nat) (t : Tracker) : Prop := ∀ h b, t.dirty h b = true → word b < nw

/-- What has been copied is in the bitmap to ship. -/
def Carried (t : Tracker) : Prop :=
  match t.phase with
  | .copying _ k _ => ∀ b, word b < k → t.dirty t.active b = true → t.ship b = true
  | .loaded => ∀ b, t.dirty t.active.other b = true → t.ship b = true
  | _ => True

/-- A write sets no bit of a word that the copy has passed. -/
def Ahead (t : Tracker) : Label → Prop
  | .write first last =>
    match t.phase with
    | .copying _ k true => first ≤ last → 64 * (k : Int) ≤ first
    | _ => True
  | _ => True

theorem carried_run {nw : Nat} {t t' : Tracker} {u : BmapUser} {w : Bool} (hi : InRounds t)
    (hb : Bounded nw t) (hc : Carried t) (h : t.run nw u w = some t') : Carried t' := by
  have hphase := hi.phase
  unfold PhaseOk at hphase
  unfold Carried at hc
  unfold run at h
  split at h
  · cases h
  · cases h
    trivial
  · cases h
    trivial
  · rw [if_pos hi.normal] at h
    cases h
    intro b hlt
    exact absurd hlt (Nat.not_lt_zero _)
  · rename_i h' k flip hp
    obtain rfl : flip = true := by
      cases flip with
      | true => rfl
      | false => exact absurd hp (hi.flips h' k)
    rw [hp] at hphase hc
    split at h
    · cases h
      intro b hlt hd
      dsimp only at hlt hd ⊢
      by_cases hw : word b = k
      · rw [if_pos hw, hphase.1]
        exact hd
      · rw [if_neg hw]
        exact hc b (by omega) hd
    · rename_i hk
      rw [if_pos rfl] at h
      cases h
      -- the half that was copied is now the other one
      intro b hd
      dsimp only at hd ⊢
      rw [Half.other_other] at hd
      have hlt := hb t.active b hd
      exact hc b (by omega) hd
  · cases h
    trivial
  · split at h
    · cases h
      trivial
    · cases h
      trivial

/-- **Step lemma.** -/
theorem carried_step {nw : Nat} {t t' : Tracker} {l : Label} (hi : InRounds t)
    (hb : Bounded nw t) (hc : Carried t) (hl : RoundLabel l) (ha : Ahead t l)
    (h : t.step nw l = some t') : Carried t' := by
  cases l with
  | run u w => exact carried_run hi hb hc h
  | write f g =>
    cases h
    unfold Carried at hc ⊢
    unfold Ahead at ha
    dsimp only at ha ⊢
    cases hp : t.phase with
    | copying h' k flip =>
      obtain rfl : flip = true := by
        cases flip with
        | true => rfl
        | false => exact absurd hp (hi.flips h' k)
      rw [hp] at hc ha
      intro b hlt hd
      rw [Bool.or_eq_true, decide_eq_true_eq] at hd
      rcases hd with ⟨-, h1, h2⟩ | hd
      · have hle := ha (Int.le_trans h1 h2)
        unfold word at hlt
        omega
      · exact hc b hlt hd
    | loaded =>
      rw [hp] at hc
      intro b hd
      rw [Bool.or_eq_true, decide_eq_true_eq] at hd
      rcases hd with ⟨h1, -⟩ | hd
      · exact absurd h1 (Half.other_ne _)
      · exact hc b hd
    | _ => trivial
  | other =>
    cases h
    exact hc
  | request =>
    obtain ⟨-, h⟩ := Option.ite_none_right_eq_some.mp h
    cases h
    trivial
  | terminate =>
    obtain ⟨hp, h⟩ := Option.ite_none_right_eq_some.mp h
    split at h
    · cases h
      exact hc
    · obtain ⟨h', -, rfl⟩ := Option.map_eq_some_iff.mp h
      trivial
  | pause | resume | revive | restart => exact hl.elim

/-- What a step does to the two halves. -/
inductive Halves (nw : Nat) (t t' : Tracker) : Prop
  /-- The kernel's half stays, and keeps its bits; the other one only loses bits while it is
  cleared. -/
  | keep (active : t'.active = t.active)
      (more : ∀ b, t.dirty t.active b = true → t'.dirty t.active b = true)
      (less : ∀ b, t'.dirty t.active.other b = true → t.dirty t.active.other b = true)
      (same : t.phase.Clearing ∨
        ∀ b, t.dirty t.active.other b = true → t'.dirty t.active.other b = true)
  | flip (active : t'.active = t.active.other) (dirty : t'.dirty = t.dirty)
      (copied : ∃ h k, t.phase = .copying h k true ∧ nw ≤ k) (phase : t'.phase = .loaded)

theorem halves_of_eq {nw : Nat} {t t' : Tracker} (ha : t'.active = t.active)
    (hd : t'.dirty = t.dirty) : Halves nw t t' := by
  refine .keep ha ?_ ?_ (Or.inr ?_) <;>
  · intro b h
    simpa [hd] using h

theorem halves_run {nw : Nat} {t t' : Tracker} {u : BmapUser} {w : Bool} (hi : InRounds t)
    (h : t.run nw u w = some t') : Halves nw t t' := by
  have hphase := hi.phase
  unfold PhaseOk at hphase
  unfold run at h
  split at h
  · cases h
  · cases h
    exact halves_of_eq rfl rfl
  · cases h
    exact halves_of_eq rfl rfl
  · rw [if_pos hi.normal] at h
    cases h
    exact halves_of_eq rfl rfl
  · rename_i h' k flip hp
    obtain rfl : flip = true := by
      cases flip with
      | true => rfl
      | false => exact absurd hp (hi.flips h' k)
    split at h
    · cases h
      exact halves_of_eq rfl rfl
    · rename_i hk
      rw [if_pos rfl] at h
      cases h
      exact .flip rfl rfl ⟨h', k, hp, Nat.le_of_not_lt hk⟩ rfl
  · cases h
    exact halves_of_eq rfl rfl
  · rename_i h' k hp
    rw [hp] at hphase
    have hready : t.ready = true := hi.ready (by rw [hp]; rfl)
    split at h
    · cases h
      refine .keep rfl ?_ ?_ (Or.inl (by rw [hp]; trivial))
      · intro b hd
        dsimp only
        rw [if_neg fun hh => t.active.other_ne ((hphase hready).1 ▸ hh.1.symm)]
        exact hd
      · intro b hd
        dsimp only at hd
        split at hd
        · cases hd
        · exact hd
    · cases h
      exact halves_of_eq rfl rfl

/-- **Step lemma.** -/
theorem halves_step {nw : Nat} {t t' : Tracker} {l : Label} (hi : InRounds t) (hl : RoundLabel l)
    (h : t.step nw l = some t') : Halves nw t t' := by
  cases l with
  | run u w => exact halves_run hi h
  | write f g =>
    cases h
    refine .keep rfl ?_ ?_ (Or.inr ?_)
    · intro b hd
      dsimp only
      rw [hd, Bool.or_true]
    · intro b hd
      dsimp only at hd
      rw [Bool.or_eq_true, decide_eq_true_eq] at hd
      exact hd.resolve_left fun hh => t.active.other_ne hh.1
    · intro b hd
      dsimp only
      rw [hd, Bool.or_true]
  | other =>
    cases h
    exact halves_of_eq rfl rfl
  | request =>
    obtain ⟨-, h⟩ := Option.ite_none_right_eq_some.mp h
    cases h
    exact halves_of_eq rfl rfl
  | terminate =>
    obtain ⟨-, h⟩ := Option.ite_none_right_eq_some.mp h
    split at h
    · cases h
      exact halves_of_eq rfl rfl
    · obtain ⟨h', -, rfl⟩ := Option.map_eq_some_iff.mp h
      exact halves_of_eq rfl rfl
  | pause | resume | revive | restart => exact hl.elim

theorem phase_step {nw : Nat} {t t' : Tracker} {l : Label} (hl : RoundLabel l)
    (h : t.step nw l = some t') :
    (t'.phase.Loading → t.phase.Loading ∨ l = .request) ∧
      (t'.phase.Clearing → t.phase.Clearing ∨ l = .terminate) := by
  cases l with
  | run u w =>
    simp only [step, run] at h
    split at h
    · cases h
    · rename_i hp
      cases h
      simp [hp, Phase.Loading, Phase.Clearing]
    · rename_i hp
      cases h
      simp [hp, Phase.Loading, Phase.Clearing]
    · rename_i hp
      split at h
      · cases h
        simp [hp, startCopy, Phase.Loading, Phase.Clearing]
      · cases h
        simp [hp, startCopy, Phase.Loading, Phase.Clearing]
    · rename_i hp
      rw [hp]
      refine ⟨fun _ => Or.inl trivial, fun hcl => ?_⟩
      split at h
      · cases h
        exact hcl.elim
      · split at h
        · cases h
          exact hcl.elim
        · cases h
          exact hcl.elim
    · cases h
      simp [Phase.Loading, Phase.Clearing]
    · rename_i hp
      rw [hp]
      refine ⟨fun hlo => ?_, fun _ => Or.inl trivial⟩
      split at h
      · cases h
        exact hlo.elim
      · cases h
        exact hlo.elim
  | write f g | other =>
    cases h
    exact ⟨Or.inl, Or.inl⟩
  | request =>
    obtain ⟨-, h⟩ := Option.ite_none_right_eq_some.mp h
    cases h
    exact ⟨fun _ => Or.inr rfl, fun hcl => hcl.elim⟩
  | terminate =>
    obtain ⟨hp, h⟩ := Option.ite_none_right_eq_some.mp h
    split at h
    · cases h
      exact ⟨Or.inl, Or.inl⟩
    · obtain ⟨h', -, rfl⟩ := Option.map_eq_some_iff.mp h
      exact ⟨fun hlo => hlo.elim, fun _ => Or.inr rfl⟩
  | pause | resume | revive | restart => exact hl.elim

/-! ### A bit in one round -/

/-- A write does not set bit `b`. -/
def Spares (b : Nat) : Label → Prop
  | .write first last => ¬ (first ≤ b ∧ (b : Int) ≤ last)
  | _ => True

/-- Where bit `b` can still be set in a round that began with the bit clear in the other half: before
the flip in the kernel's half, after it in the other one, up to the clear. -/
def Settling (b : Nat) (t : Tracker) : Prop :=
  match t.phase with
  | .created | .indexed | .gotUser _ | .copying .. =>
    t.dirty t.active.other b = false ∧ t.released = false
  | .loaded => t.dirty t.active b = false ∧ t.released = false
  | .clearing _ k =>
    t.dirty t.active b = false ∧ (word b < k → t.dirty t.active.other b = false)
  | .idle => t.dirty t.active b = false ∧ (t.released = true → t.dirty t.active.other b = false)

theorem Settling.congr {b : Nat} {t t' : Tracker} (hs : Settling b t)
    (hd : ∀ h, t'.dirty h b = t.dirty h b) (ha : t'.active = t.active)
    (hp : t'.phase = t.phase) (hr : t'.released = t.released) : Settling b t' := by
  unfold Settling at hs ⊢
  simp only [hd, ha, hr]
  rw [hp]
  exact hs

theorem settling_request {nw b : Nat} {t t' : Tracker} (hb : t.dirty t.active.other b = false)
    (h : t.step nw .request = some t') : Settling b t' := by
  obtain ⟨-, h⟩ := Option.ite_none_right_eq_some.mp h
  cases h
  exact ⟨hb, rfl⟩

theorem clears_run {nw b k : Nat} {g : Half} {t t' : Tracker} {u : BmapUser} {w : Bool}
    (hi : InRounds t) (hb : Bounded nw t) (hp : t.phase = .clearing g k)
    (hk : word b < k → t.dirty t.active.other b = false) (h : t.run nw u w = some t') :
    t'.active = t.active ∧ t'.dirty t.active b = t.dirty t.active b ∧
      ((t'.phase = .clearing g (k + 1) ∧ (word b < k + 1 → t'.dirty t.active.other b = false)) ∨
        (t'.phase = .idle ∧ t'.dirty t.active.other b = false)) := by
  have hphase := hi.phase
  rw [PhaseOk, hp] at hphase
  obtain ⟨rfl, -⟩ := hphase (hi.ready (by rw [hp]; rfl))
  rw [run, hp] at h
  dsimp only at h
  split at h
  · cases h
    refine ⟨rfl, ?_, Or.inl ⟨rfl, fun hlt => ?_⟩⟩
    · dsimp only
      rw [if_neg fun hh => t.active.other_ne hh.1.symm]
    · dsimp only
      by_cases hw : word b = k
      · rw [if_pos ⟨rfl, hw⟩]
      · rw [if_neg fun hh => hw hh.2]
        exact hk (by omega)
  · cases h
    refine ⟨rfl, rfl, Or.inr ⟨rfl, ?_⟩⟩
    by_contra hd
    have hd' := eq_true_of_ne_false hd
    have hlt := hb t.active.other b hd'
    have hclear := hk (by omega)
    exact hd hclear

theorem settling_run {nw b : Nat} {t t' : Tracker} {u : BmapUser} {w : Bool} (hi : InRounds t)
    (hb : Bounded nw t) (hs : Settling b t) (h : t.run nw u w = some t') : Settling b t' := by
  unfold Settling at hs
  unfold run at h
  split at h
  · cases h
  · rename_i hp
    rw [hp] at hs
    cases h
    exact hs
  · rename_i hp
    rw [hp] at hs
    cases h
    exact hs
  · rename_i hp
    rw [hp] at hs
    rw [if_pos hi.normal] at h
    cases h
    exact hs
  · rename_i h' k flip hp
    obtain rfl : flip = true := by
      cases flip with
      | true => rfl
      | false => exact absurd hp (hi.flips h' k)
    rw [hp] at hs
    split at h
    · cases h
      exact hs
    · rw [if_pos rfl] at h
      cases h
      exact hs
  · rename_i hp
    rw [hp] at hs
    cases h
    refine ⟨hs.1, fun hr => ?_⟩
    have hr' : t.released = true := hr
    rw [hs.2] at hr'
    cases hr'
  · rename_i h' k hp
    rw [hp] at hs
    have hrun : t.run nw u w = some t' := by
      rw [run, hp]
      exact h
    obtain ⟨hact, hsame, hnext⟩ := clears_run hi hb hp hs.2 hrun
    rw [Settling, hact, hsame]
    rcases hnext with ⟨hp', hclear⟩ | ⟨hp', hclear⟩
    · rw [hp']
      exact ⟨hs.1, hclear⟩
    · rw [hp']
      exact ⟨hs.1, fun _ => hclear⟩

/-- **Step lemma.** -/
theorem settling_step {nw b : Nat} {t t' : Tracker} {l : Label} (hi : InRounds t)
    (hb : Bounded nw t) (hl : RoundLabel l) (hreq : l ≠ .request) (hsp : Spares b l)
    (hs : Settling b t) (h : t.step nw l = some t') : Settling b t' := by
  cases l with
  | run u w => exact settling_run hi hb hs h
  | write f g =>
    cases h
    refine hs.congr (fun h => ?_) rfl rfl rfl
    dsimp only
    rw [decide_eq_false fun hh => hsp hh.2, Bool.false_or]
  | other =>
    cases h
    exact hs
  | request => exact absurd rfl hreq
  | terminate =>
    obtain ⟨hp, h⟩ := Option.ite_none_right_eq_some.mp h
    split at h
    · cases h
      exact hs
    · obtain ⟨h', -, rfl⟩ := Option.map_eq_some_iff.mp h
      unfold Settling at hs
      rw [hp] at hs
      exact ⟨hs.1, fun hlt => absurd hlt (Nat.not_lt_zero _)⟩
  | pause | resume | revive | restart => exact hl.elim

theorem Settling.clear {b : Nat} {t : Tracker} (hs : Settling b t) (hp : t.phase = .idle)
    (hr : t.released = true) (h : Half) : t.dirty h b = false := by
  unfold Settling at hs
  rw [hp] at hs
  by_cases hh : h = t.active
  · rw [hh]
    exact hs.1
  · rw [Half.eq_other hh]
    exact hs.2 hr

/-! ### Between rounds -/

/-- No round is under way: none was asked for yet, or the last one is over. -/
def Rests (t : Tracker) : Prop := t.phase = .idle ∧ (t.marked = none ∨ t.released = true)

/-- Between rounds bit `b` is clear in the half that the kernel does not write. -/
def Rested (b : Nat) (t : Tracker) : Prop :=
  match t.phase with
  | .idle => t.marked = none ∨ t.released = true → t.dirty t.active.other b = false
  | .clearing _ k => word b < k → t.dirty t.active.other b = false
  | _ => t.marked ≠ none ∧ t.released = false

theorem Rested.clear {b : Nat} {t : Tracker} (h : Rested b t) (hr : t.Rests) :
    t.dirty t.active.other b = false := by
  unfold Rested at h
  rw [hr.1] at h
  exact h hr.2

theorem rested_run {nw b : Nat} {t t' : Tracker} {u : BmapUser} {w : Bool} (hi : InRounds t)
    (hb : Bounded nw t) (hs : Rested b t) (h : t.run nw u w = some t') : Rested b t' := by
  unfold Rested at hs
  unfold run at h
  split at h
  · cases h
  · rename_i hp
    rw [hp] at hs
    cases h
    exact hs
  · rename_i hp
    rw [hp] at hs
    cases h
    exact hs
  · rename_i hp
    rw [hp] at hs
    rw [if_pos hi.normal] at h
    cases h
    exact ⟨by simp [startCopy], hs.2⟩
  · rename_i h' k flip hp
    rw [hp] at hs
    split at h
    · cases h
      exact hs
    · split at h
      · cases h
        exact hs
      · cases h
        exact hs
  · rename_i hp
    rw [hp] at hs
    cases h
    rintro (hm | hr)
    · exact absurd hm hs.1
    · have hr' : t.released = true := hr
      rw [hs.2] at hr'
      cases hr'
  · rename_i h' k hp
    rw [hp] at hs
    have hrun : t.run nw u w = some t' := by
      rw [run, hp]
      exact h
    obtain ⟨hact, -, hnext⟩ := clears_run hi hb hp hs hrun
    rw [Rested, hact]
    rcases hnext with ⟨hp', hclear⟩ | ⟨hp', hclear⟩
    · rw [hp']
      exact hclear
    · rw [hp']
      exact fun _ => hclear

/-- **Step lemma.** -/
theorem rested_step {nw b : Nat} {t t' : Tracker} {l : Label} (hi : InRounds t)
    (hb : Bounded nw t) (hl : RoundLabel l) (hs : Rested b t) (h : t.step nw l = some t') :
    Rested b t' := by
  cases l with
  | run u w => exact rested_run hi hb hs h
  | write f g =>
    cases h
    -- a write sets bits of the other half only
    have hsame : ∀ c : Nat, (decide (t.active.other = t.active ∧ f ≤ c ∧ (c : Int) ≤ g) ||
        t.dirty t.active.other c) = t.dirty t.active.other c := by
      intro c
      rw [decide_eq_false fun hh => t.active.other_ne hh.1, Bool.false_or]
    unfold Rested at hs ⊢
    dsimp only
    rw [hsame]
    exact hs
  | other =>
    cases h
    exact hs
  | request =>
    obtain ⟨-, h⟩ := Option.ite_none_right_eq_some.mp h
    cases h
    exact ⟨by simp, rfl⟩
  | terminate =>
    obtain ⟨hp, h⟩ := Option.ite_none_right_eq_some.mp h
    split at h
    · cases h
      exact hs
    · obtain ⟨h', -, rfl⟩ := Option.map_eq_some_iff.mp h
      exact fun hlt => absurd hlt (Nat.not_lt_zero _)
  | pause | resume | revive | restart => exact hl.elim

end Tracker

namespace Server

/-- The condition on the writes of a run, for the tracker. -/
theorem ahead_of_notPassed {s : Server} {p : Nat} {d : SrcDisk} {e : Event}
    (h : NotPassed p s e) : (s.view p d).Ahead (s.label p e) := by
  have hph : (s.view p d).phase = s.phase p := rfl
  unfold NotPassed at h
  unfold Tracker.Ahead
  rw [hph]
  cases hl : s.label p e with
  | write f l =>
    dsimp only
    rw [hl] at h
    cases hp : s.phase p with
    | copying g k flip =>
      cases flip with
      | true =>
        rw [hp] at h
        exact h
      | false => trivial
    | _ => trivial
  | _ => trivial

theorem bounded_view {s : Server} {p : Nat} {d : SrcDisk} (h : 8 ∣ d.bitmapSize) :
    (s.view p d).Bounded (d.bitmapSize / 8) := by
  intro g b hd
  rw [view] at hd
  have hlt := of_decide_eq_true (Bool.and_eq_true_iff.mp hd).1
  unfold Tracker.word
  omega

end Server

end Ebdr
