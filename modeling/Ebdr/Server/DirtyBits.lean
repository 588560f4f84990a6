import Ebdr.Server.View

/-!
# No dirty bit is lost between writes and rounds

`server_bitmap_load_from_memory` copies the half that the kernel is still writing and flips
afterwards. A write that sets a bit of a word already copied is not in the shipped bitmap, and
`bitmap_server_destroy` clears it. `no_dirty_bit_lost` is the converse: when no write falls behind
the copy of a running round, a bit set by a write is still set in one of the halves, or a round that
copied it after that write has shipped it. The reason is `Alive`: where a dirty bit of a tracker
stands while it is not yet shipped (`alive_step`).
-/

namespace Ebdr

open ByteMem Lts

namespace Tracker

/-! ### Rounds with a flip -/

/-- The user bitmap is shipped, or its half cleared. -/
def afterLoad : Phase → Bool
  | .loaded | .clearing _ _ => true
  | _ => false

/-- The tracker works in rounds with a flip: no recovery is pending or under way, and a user bitmap
that is not being loaded is ready. -/
structure InRounds (t : Tracker) : Prop where
  phase : PhaseOk t
  normal : t.Normal
  flips : ∀ h k, t.phase ≠ .copying h k false
  idle : t.phase = .idle → t.marked.isSome = true → t.ready = true
  ready : afterLoad t.phase = true → t.ready = true

/-- The labels of writes and rounds. -/
def RoundLabel : Label → Prop
  | .pause | .resume | .revive | .restart _ => False
  | _ => True

theorem inRounds_run {nw : Nat} {t t' : Tracker} {u : BmapUser} {w : Bool} (hi : InRounds t)
    (hph : PhaseOk t') (h : t.run nw u w = some t') : InRounds t' := by
  have hnorm := hi.normal
  unfold run at h
  split at h
  · cases h
  · cases h
    exact ⟨hph, hnorm, by simp, by simp, by simp [afterLoad]⟩
  · cases h
    exact ⟨hph, hnorm, by simp, by simp, by simp [afterLoad]⟩
  · rw [if_pos hnorm] at h
    cases h
    exact ⟨hph, hnorm, by simp [startCopy], by simp [startCopy], by simp [startCopy, afterLoad]⟩
  · rename_i h' k flip hp
    have hflip : flip = true := by
      cases flip with
      | true => rfl
      | false => exact absurd hp (hi.flips h' k)
    subst hflip
    split at h
    · cases h
      exact ⟨hph, hnorm, by simp, by simp, by simp [afterLoad]⟩
    · rw [if_pos rfl] at h
      cases h
      exact ⟨hph, hnorm, by simp, by simp, fun _ => rfl⟩
  · rename_i hp
    cases h
    exact ⟨hph, hnorm, by simp, fun _ _ => hi.ready (by rw [hp]; rfl), by simp [afterLoad]⟩
  · rename_i h' k hp
    have hready : t.ready = true := hi.ready (by rw [hp]; rfl)
    split at h
    · cases h
      exact ⟨hph, hnorm, by simp, by simp, fun _ => hready⟩
    · cases h
      exact ⟨hph, ⟨rfl, hnorm.2⟩, by simp, fun _ _ => hready, by simp [afterLoad]⟩

/-- **Step lemma.** Writes and rounds stay in rounds. -/
theorem inRounds_step {nw : Nat} {t t' : Tracker} {l : Label} (hi : InRounds t) (hl : RoundLabel l)
    (h : t.step nw l = some t') : InRounds t' := by
  have hre : ReentryOk t l := by
    cases l with
    | run u w =>
      unfold ReentryOk
      dsimp only
      split
      · exact fun hn => absurd hi.normal hn
      · trivial
    | _ => trivial
  have hph := phaseOk_step hi.phase hre h
  cases l with
  | run u w => exact inRounds_run hi hph h
  | write f g =>
    cases h
    exact ⟨hph, hi.normal, hi.flips, hi.idle, hi.ready⟩
  | other =>
    cases h
    exact hi
  | request =>
    simp only [step] at h
    split at h
    · cases h
      exact ⟨hph, hi.normal, by simp, by simp, by simp [afterLoad]⟩
    · cases h
  | terminate =>
    simp only [step] at h
    split at h
    · rename_i hp
      split at h
      · cases h
        exact hi
      · obtain ⟨h', hm, rfl⟩ := Option.map_eq_some_iff.mp h
        have hready : t.ready = true := hi.idle hp (by rw [hm]; rfl)
        exact ⟨hph, hi.normal, by simp, by simp, fun _ => hready⟩
    · cases h
  | pause | resume | revive | restart => exact hl.elim

/-! ### A dirty bit stays alive -/

/-- The step copies bit `b` as set into the bitmap to ship. -/
def Copies (nw b : Nat) (t : Tracker) (l : Label) : Prop :=
  ∃ u w, l = .run u w ∧ ∃ h k flip, t.phase = .copying h k flip ∧ word b = k ∧ k < nw ∧
    t.dirty h b = true

/-- The step ships a bitmap with bit `b` set. -/
def Ships (b : Nat) (t : Tracker) (l : Label) : Prop :=
  ∃ u w, l = .run u w ∧ t.phase = .loaded ∧ t.ship b = true

/-- What keeps bit `b`, where `copied` says that the current round has copied it as set: it is dirty
in the half the kernel writes, and copied if the copy is past its word; or it is dirty in the other
half, copied, and about to be shipped; or its word is never copied nor cleared. -/
def Alive (nw b : Nat) (copied : Prop) (t : Tracker) : Prop :=
  (t.dirty t.active b = true ∧
      ∀ h k flip, t.phase = .copying h k flip → word b < k → copied ∧ t.ship b = true) ∨
    (t.dirty t.active.other b = true ∧ t.phase = .loaded ∧ copied ∧ t.ship b = true) ∨
    (nw ≤ word b ∧ ∃ h, t.dirty h b = true)

theorem Alive.dirty {nw b : Nat} {copied : Prop} {t : Tracker} (h : Alive nw b copied t) :
    ∃ h, t.dirty h b = true := by
  rcases h with h | h | h
  · exact ⟨_, h.1⟩
  · exact ⟨_, h.1⟩
  · exact h.2

theorem alive_write {nw b : Nat} {t : Tracker} (hd : t.dirty t.active b = true)
    (hlate : ∀ h k flip, t.phase = .copying h k flip → k ≤ word b) : Alive nw b False t :=
  Or.inl ⟨hd, fun h k flip hp hlt => absurd hlt (Nat.not_lt.mpr (hlate h k flip hp))⟩

/-- A step that changes no half and does not copy a word keeps the bit alive. -/
theorem Alive.quiet {nw b : Nat} {copied copied' : Prop} {t t' : Tracker} (ha : Alive nw b copied t)
    (hd : t'.dirty = t.dirty) (hact : t'.active = t.active) (hl : t.phase ≠ .loaded)
    (hp : ∀ h k flip, t'.phase = .copying h k flip → k = 0) : Alive nw b copied' t' := by
  rcases ha with h | h | h
  · refine Or.inl ⟨by rw [hd, hact]; exact h.1, fun g k flip hph hlt => ?_⟩
    rw [hp g k flip hph] at hlt
    exact absurd hlt (Nat.not_lt_zero _)
  · exact absurd h.2.1 hl
  · exact Or.inr (Or.inr ⟨h.1, by rw [hd]; exact h.2⟩)

theorem alive_copy {nw b : Nat} {copied : Prop} {t : Tracker} {u : BmapUser} {w : Bool} {h : Half}
    {k : Nat} (hp : t.phase = .copying h k true) (hact : h = t.active) (hk : k < nw)
    (ha : Alive nw b copied t) :
    Alive nw b (copied ∨ Copies nw b t (.run u w))
      { t with
        ship := fun b => if word b = k then t.dirty h b else t.ship b
        phase := .copying h (k + 1) true } := by
  rcases ha with ⟨hd, hcopy⟩ | ⟨-, hl, -⟩ | ht
  · refine Or.inl ⟨hd, fun h' k' flip' hp' hlt => ?_⟩
    cases hp'
    by_cases hw : word b = k
    · have hdh : t.dirty h b = true := by rw [hact]; exact hd
      refine ⟨Or.inr ⟨u, w, rfl, h, k, true, hp, hw, hk, hdh⟩, ?_⟩
      dsimp only
      rw [if_pos hw]
      exact hdh
    · obtain ⟨hc, hs⟩ := hcopy h k true hp (by omega)
      refine ⟨Or.inl hc, ?_⟩
      dsimp only
      rw [if_neg hw]
      exact hs
  · rw [hp] at hl
    cases hl
  · exact Or.inr (Or.inr ht)

theorem alive_flip {nw b : Nat} {copied copied' : Prop} {t : Tracker} {h : Half} {k : Nat}
    (hp : t.phase = .copying h k true) (hk : nw ≤ k) (himp : copied → copied')
    (ha : Alive nw b copied t) :
    Alive nw b copied' { t with active := t.active.other, ready := true, phase := .loaded } := by
  rcases ha with ⟨hd, hcopy⟩ | ⟨-, hl, -⟩ | ht
  · by_cases hw : word b < nw
    · obtain ⟨hc, hs⟩ := hcopy h k true hp (by omega)
      refine Or.inr (Or.inl ⟨?_, rfl, himp hc, hs⟩)
      change t.dirty t.active.other.other b = true
      rw [Half.other_other]
      exact hd
    · exact Or.inr (Or.inr ⟨by omega, t.active, hd⟩)
  · rw [hp] at hl
    cases hl
  · exact Or.inr (Or.inr ht)

theorem alive_clear {nw b : Nat} {copied copied' : Prop} {t : Tracker} {h : Half} {k : Nat}
    (hp : t.phase = .clearing h k) (hact : h = t.active.other) (hk : k < nw)
    (ha : Alive nw b copied t) :
    Alive nw b copied'
      { t with
        dirty := fun g b => if g = h ∧ word b = k then false else t.dirty g b
        phase := .clearing h (k + 1) } := by
  rcases ha with ⟨hd, -⟩ | ⟨-, hl, -⟩ | ⟨hw, g, hg⟩
  · refine Or.inl ⟨?_, fun h' k' flip' hp' => by cases hp'⟩
    dsimp only
    rw [if_neg fun hh => t.active.other_ne (hact ▸ hh.1.symm)]
    exact hd
  · rw [hp] at hl
    cases hl
  · refine Or.inr (Or.inr ⟨hw, g, ?_⟩)
    dsimp only
    rw [if_neg fun hh => by omega]
    exact hg

theorem alive_run {nw b : Nat} {copied : Prop} {t t' : Tracker} {u : BmapUser} {w : Bool}
    (hi : InRounds t) (ha : Alive nw b copied t) (h : t.run nw u w = some t') :
    (copied ∧ Ships b t (.run u w)) ∨
      Alive nw b (copied ∨ Copies nw b t (.run u w)) t' := by
  have hphase := hi.phase
  unfold PhaseOk at hphase
  unfold run at h
  split at h
  · cases h
  · rename_i hp
    cases h
    exact Or.inr (ha.quiet rfl rfl (by simp [hp]) (by simp))
  · rename_i hp
    cases h
    exact Or.inr (ha.quiet rfl rfl (by simp [hp]) (by simp))
  · rename_i u' hp
    rw [if_pos hi.normal] at h
    cases h
    refine Or.inr (ha.quiet rfl rfl (by simp [hp]) ?_)
    intro h' k' flip' hp'
    cases hp'
    rfl
  · rename_i h' k flip hp
    obtain rfl : flip = true := by
      cases flip with
      | true => rfl
      | false => exact absurd hp (hi.flips h' k)
    rw [hp] at hphase
    split at h
    · rename_i hk
      cases h
      exact Or.inr (alive_copy hp hphase.1 hk ha)
    · rename_i hk
      rw [if_pos rfl] at h
      cases h
      exact Or.inr (alive_flip hp (Nat.le_of_not_lt hk) Or.inl ha)
  · rename_i hp
    cases h
    rcases ha with hd | ⟨-, -, hc, hs⟩ | ht
    · exact Or.inr (Or.inl ⟨hd.1, fun h' k' flip' hp' => by cases hp'⟩)
    · exact Or.inl ⟨hc, u, w, rfl, hp, hs⟩
    · exact Or.inr (Or.inr (Or.inr ht))
  · rename_i h' k hp
    rw [hp] at hphase
    have hready : t.ready = true := hi.ready (by rw [hp]; rfl)
    split at h
    · rename_i hk
      cases h
      exact Or.inr (alive_clear hp (hphase hready).1 hk ha)
    · cases h
      exact Or.inr (ha.quiet rfl rfl (by simp [hp]) (by simp))

/-- **Step lemma.** An alive bit stays alive, or its copy is shipped. A request starts a new round, in
which nothing is copied yet. -/
theorem alive_step {nw b : Nat} {copied : Prop} {t t' : Tracker} {l : Label} (hi : InRounds t)
    (hl : RoundLabel l) (ha : Alive nw b copied t) (h : t.step nw l = some t') :
    (copied ∧ Ships b t l) ∨
      Alive nw b ((copied ∧ l ≠ .request) ∨ Copies nw b t l) t' := by
  cases l with
  | run u w =>
    refine (alive_run hi ha h).imp_right fun h' => ?_
    simpa using h'
  | write f g =>
    cases h
    refine Or.inr ?_
    rcases ha with ⟨hd, hcopy⟩ | ⟨hd, hp, hc, hs⟩ | ⟨hw, h, hd⟩
    · refine Or.inl ⟨?_, fun h' k flip hp hlt => ?_⟩
      · dsimp only
        rw [hd, Bool.or_true]
      · obtain ⟨hc, hs⟩ := hcopy h' k flip hp hlt
        exact ⟨Or.inl ⟨hc, by simp⟩, hs⟩
    · refine Or.inr (Or.inl ⟨?_, hp, Or.inl ⟨hc, by simp⟩, hs⟩)
      dsimp only
      rw [hd, Bool.or_true]
    · refine Or.inr (Or.inr ⟨hw, h, ?_⟩)
      dsimp only
      rw [hd, Bool.or_true]
  | other =>
    cases h
    refine Or.inr ?_
    simpa [Copies] using ha
  | request =>
    simp only [step] at h
    split at h
    · rename_i hp
      cases h
      exact Or.inr (ha.quiet rfl rfl (by simp [hp]) (by simp))
    · cases h
  | terminate =>
    simp only [step] at h
    split at h
    · rename_i hp
      split at h
      · cases h
        exact Or.inr (ha.quiet rfl rfl (by simp [hp]) (by simp [hp]))
      · obtain ⟨h', hm, rfl⟩ := Option.map_eq_some_iff.mp h
        exact Or.inr (ha.quiet rfl rfl (by simp [hp]) (by simp))
    · cases h
  | pause | resume | revive | restart => exact hl.elim

end Tracker

namespace Server

/-- Writes, and the steps of rounds. -/
def RoundEvent : Event → Prop
  | .write _ _ | .recvMetadata _ | .recvTerminate _ | .run _ => True
  | _ => False

instance : (e : Event) → Decidable (RoundEvent e)
  | .write _ _ | .recvMetadata _ | .recvTerminate _ | .run _ => isTrue trivial
  | .connPause _ | .connResume _ | .loadRow .. | .control _ | .restart => isFalse id

/-- The write sets bit `b` of the device of partner `p`. -/
def SetsBit (s : Server) (p : Nat) (bio : Bio) (b : Nat) : Prop :=
  match s.kernel.bitmapOf (p + 1) with
  | some bm => bio.isWrite = true ∧ firstBit bm bio ≤ b ∧ (b : Int) ≤ lastBit bm bio
  | none => False

instance (s : Server) (p : Nat) (bio : Bio) (b : Nat) : Decidable (SetsBit s p bio b) := by
  unfold SetsBit
  split <;> infer_instance

/-- The next step of the thread of `p` copies bit `b` as set. -/
def CopiesSet (s : Server) (p : Nat) (d : SrcDisk) (b : Nat) : Prop :=
  match s.phase p with
  | .copying h k _ => b / 64 = k ∧ k < d.bitmapSize / 8 ∧ s.halfBit d h b = true
  | _ => False

instance (s : Server) (p : Nat) (d : SrcDisk) (b : Nat) : Decidable (CopiesSet s p d b) :=
  show Decidable (match s.phase p with
      | .copying h k _ => b / 64 = k ∧ k < d.bitmapSize / 8 ∧ s.halfBit d h b = true
      | _ => False) from
    match s.phase p with
    | .copying h k _ => inferInstanceAs
        (Decidable (b / 64 = k ∧ k < d.bitmapSize / 8 ∧ s.halfBit d h b = true))
    | .idle | .created | .indexed | .gotUser _ | .loaded | .clearing .. => isFalse not_false

/-- The next step of the thread of `p` ships a bitmap in which bit `b` is set. -/
def ShipsSet (s : Server) (p : Nat) (b : Nat) : Prop :=
  s.phase p = .loaded ∧ ∃ ub, s.ubitmap p = some ub ∧ bit ub.bitmapArea b = true

/-- In the run from `s` the thread of `p` copies bit `b` as set, and in the same round ships it. -/
def CopiedAndShipped (p : Nat) (d : SrcDisk) (b : Nat) (s : Server) (es : List Event) : Prop :=
  ∃ ea em ec t1 t2, es = ea ++ .run p :: (em ++ .run p :: ec) ∧
    run step s ea = some t1 ∧ CopiesSet t1 p d b ∧ .recvMetadata p ∉ em ∧
      run step s (ea ++ .run p :: em) = some t2 ∧ ShipsSet t2 p b

/-- A write to the device of `p` does not set a bit of a word that the running copy has passed. -/
def NotPassed (p : Nat) (s : Server) (e : Event) : Prop :=
  match s.phase p, s.label p e with
  | .copying _ k true, .write first last => first ≤ last → 64 * (k : Int) ≤ first
  | _, _ => True

instance (p : Nat) (s : Server) (e : Event) : Decidable (NotPassed p s e) := by
  unfold NotPassed
  split <;> infer_instance

/-! ### Labels -/

theorem label_round {s : Server} {p : Nat} {e : Event} (h : RoundEvent e) :
    Tracker.RoundLabel (s.label p e) := by
  cases e with
  | write i bio =>
    rcases label_write s p i bio with hl | ⟨f, l, hl⟩ <;> rw [hl] <;> trivial
  | run q | recvMetadata q | recvTerminate q =>
    rw [label]
    split <;> trivial
  | connPause | connResume | loadRow | control | restart => exact h.elim

theorem noControl_of_round {e : Event} (h : RoundEvent e) : NoControl e := by
  cases e with
  | control c => exact h.elim
  | _ => trivial

/-! ### The invariant of the runs -/

/-- The invariant of a run of writes and rounds, seen from partner `p`. -/
structure RoundInv (p : Nat) (d : SrcDisk) (s : Server) : Prop where
  coherent : Coherent s
  disk : s.srcDisk p = some d
  rounds : (s.view p d).InRounds

theorem roundInv_ready {s : Server} {p : Nat} {d : SrcDisk} (h : Ready s)
    (hd : s.srcDisk p = some d) (hub : s.ubitmap p = none) (hn : s.Normal p) :
    RoundInv p d s := by
  have hp : (s.view p d).phase = .idle := h.idle p
  have hm : (s.view p d).marked = none := by rw [view, hub, Option.map_none]
  have hr : (s.view p d).ready = false := by rw [view, hub, Option.any_none]
  refine ⟨h.coherent, hd, ?_, hn, ?_, ?_, ?_⟩
  · rw [Tracker.PhaseOk, hp]
    intro hready
    rw [hr] at hready
    cases hready
  · intro g k hc
    rw [hp] at hc
    cases hc
  · intro _ hs
    rw [hm] at hs
    cases hs
  · intro ha
    rw [hp] at ha
    cases ha

/-- **Step lemma.** -/
theorem roundInv_step {p : Nat} {d : SrcDisk} {s s' : Server} {e : Event} (hi : RoundInv p d s)
    (he : RoundEvent e) (hk : KeepsIndex s e) (h : s.step e = some s') : RoundInv p d s' := by
  have hn := noControl_of_round he
  refine ⟨coherent_step hi.coherent hn hk h, ?_, ?_⟩
  · rw [(sameTables_step hi.coherent hn h).disk]
    exact hi.disk
  · exact Tracker.inRounds_step hi.rounds (label_round he) (view_step hi.coherent hi.disk hn h)

/-! ### The history of a bit -/

/-- In the run from `s` the current round of `p` has copied bit `b` as set. -/
def CopiedInRound (p : Nat) (d : SrcDisk) (b : Nat) (s : Server) (es : List Event) : Prop :=
  ∃ ea em t, es = ea ++ .run p :: em ∧ run step s ea = some t ∧ CopiesSet t p d b ∧
    .recvMetadata p ∉ em

theorem copiesSet_of_view {s : Server} {p : Nat} {d : SrcDisk} {b : Nat} {e : Event}
    (h : Tracker.Copies (d.bitmapSize / 8) b (s.view p d) (s.label p e)) :
    e = .run p ∧ CopiesSet s p d b := by
  obtain ⟨u, w, hl, g, k, flip, hp, hw, hk, hd⟩ := h
  have hps : s.phase p = .copying g k flip := hp
  refine ⟨label_run hl, ?_⟩
  rw [CopiesSet, hps]
  exact ⟨hw, hk, view_dirty hd⟩

theorem shipsSet_of_view {s : Server} {p : Nat} {d : SrcDisk} {b : Nat} {e : Event}
    (h : Tracker.Ships b (s.view p d) (s.label p e)) : e = .run p ∧ ShipsSet s p b := by
  obtain ⟨u, w, hl, hp, hs⟩ := h
  obtain ⟨ub, hub, hbit⟩ := (Option.any_eq_true _ _).mp hs
  exact ⟨label_run hl, hp, ub, hub, hbit⟩

theorem CopiedAndShipped.snoc {p b : Nat} {d : SrcDisk} {s : Server} {es : List Event}
    (h : CopiedAndShipped p d b s es) (e : Event) : CopiedAndShipped p d b s (es ++ [e]) := by
  obtain ⟨ea, em, ec, t1, t2, rfl, h⟩ := h
  exact ⟨ea, em, ec ++ [e], t1, t2, by simp, h⟩

theorem CopiedInRound.snoc {p b : Nat} {d : SrcDisk} {s : Server} {es : List Event}
    (h : CopiedInRound p d b s es) {e : Event} (he : e ≠ .recvMetadata p) :
    CopiedInRound p d b s (es ++ [e]) := by
  obtain ⟨ea, em, t, rfl, hr, hc, hm⟩ := h
  refine ⟨ea, em ++ [e], t, by simp, hr, hc, ?_⟩
  simp [hm, he.symm]

theorem CopiedInRound.ship {p b : Nat} {d : SrcDisk} {s t : Server} {es : List Event}
    (h : CopiedInRound p d b s es) (hr : run step s es = some t) (hs : ShipsSet t p b) :
    CopiedAndShipped p d b s (es ++ [.run p]) := by
  obtain ⟨ea, em, t1, rfl, h1, hc, hm⟩ := h
  exact ⟨ea, em, [], t1, t, by simp, h1, hc, hm, hr, hs⟩

/-- After a run from the write: shipped, or alive. -/
def Kept (p : Nat) (d : SrcDisk) (b : Nat) (s : Server) (es : List Event) (t : Server) : Prop :=
  CopiedAndShipped p d b s es ∨
    (t.view p d).Alive (d.bitmapSize / 8) b (CopiedInRound p d b s es)

theorem Alive.mono {nw b : Nat} {c c' : Prop} (himp : c → c') {t : Tracker}
    (h : t.Alive nw b c) : t.Alive nw b c' := by
  rcases h with ⟨hd, hc⟩ | ⟨hd, hp, hc, hs⟩ | h
  · exact Or.inl ⟨hd, fun g k flip hp hlt => (hc g k flip hp hlt).imp_left himp⟩
  · exact Or.inr (Or.inl ⟨hd, hp, himp hc, hs⟩)
  · exact Or.inr (Or.inr h)

theorem kept_step {p b : Nat} {d : SrcDisk} {s t u : Server} {es : List Event} {e : Event}
    (hi : RoundInv p d t) (he : RoundEvent e) (hr : run step s es = some t)
    (hkept : Kept p d b s es t) (h : t.step e = some u) : Kept p d b s (es ++ [e]) u := by
  rcases hkept with hshipped | halive
  · exact Or.inl (hshipped.snoc e)
  · have hview := view_step hi.coherent hi.disk (noControl_of_round he) h
    rcases Tracker.alive_step hi.rounds (label_round he) halive hview with ⟨hc, hs⟩ | ha
    · obtain ⟨rfl, hships⟩ := shipsSet_of_view hs
      exact Or.inl (hc.ship hr hships)
    · refine Or.inr (Alive.mono ?_ ha)
      rintro (⟨hc, hreq⟩ | hc)
      · refine hc.snoc fun hh => hreq ?_
        rw [hh, label, if_pos rfl]
      · obtain ⟨rfl, hcopies⟩ := copiesSet_of_view hc
        exact ⟨es, [], t, rfl, hr, hcopies, by simp⟩

/-- A write that is not behind the copy leaves its bits alive. -/
theorem kept_write {p b : Nat} {d : SrcDisk} {s s' : Server} {bio : Bio} (hi : RoundInv p d s)
    (hset : SetsBit s p bio b) (hnp : NotPassed p s (.write (p + 1) bio))
    (h : s.step (.write (p + 1) bio) = some s') : Kept p d b s' [] s' := by
  unfold SetsBit at hset
  split at hset
  case h_2 => exact hset.elim
  rename_i bm hbm
  obtain ⟨hw, hfirst, hlast⟩ := hset
  have hl : s.label p (.write (p + 1) bio) = .write (firstBit bm bio) (lastBit bm bio) := by
    rw [label, if_pos ⟨rfl, hw⟩, hbm]
  have hview := view_step hi.coherent hi.disk (e := .write (p + 1) bio) trivial h
  rw [hl, Tracker.step, Option.some.injEq] at hview
  refine Or.inr (Alive.mono False.elim (Tracker.alive_write ?_ ?_))
  · rw [← hview]
    dsimp only
    rw [decide_eq_true ⟨rfl, hfirst, hlast⟩, Bool.true_or]
  · intro g k flip hp
    rw [← hview] at hp
    have hps : s.phase p = .copying g k flip := hp
    obtain rfl : flip = true := by
      cases flip with
      | true => rfl
      | false => exact absurd hps (hi.rounds.flips g k)
    rw [NotPassed, hps, hl] at hnp
    have := hnp (Int.le_trans hfirst hlast)
    unfold Tracker.word
    omega

/-- **No dirty bit is lost.** In a run of writes and rounds, in which no store changes the index of
another request's window and no write to the device of `p` sets a bit of a word that the running copy
has passed, a bit set by a write is in every later state set in one of the halves, or a round has
copied it as set after that write and shipped it. -/
theorem no_dirty_bit_lost {p b : Nat} {d : SrcDisk} {s0 s1 s2 s3 : Server} {bio : Bio}
    {es1 es2 : List Event} (h0 : Ready s0) (hd : s0.srcDisk p = some d) (hub : s0.ubitmap p = none)
    (hn : s0.Normal p) (h1 : run step s0 es1 = some s1)
    (hw : s1.step (.write (p + 1) bio) = some s2) (hset : SetsBit s1 p bio b)
    (h2 : run step s2 es2 = some s3)
    (hok : Meets step (fun s e => RoundEvent e ∧ KeepsIndex s e ∧ NotPassed p s e) s0
      (es1 ++ .write (p + 1) bio :: es2)) :
    (∃ h, s3.halfBit d h b = true) ∨ CopiedAndShipped p d b s2 es2 := by
  obtain ⟨hok1, hok2⟩ := meets_append.mp hok
  obtain ⟨⟨-, hkw, hnp⟩, hok2⟩ := hok2 s1 h1
  have hi1 : RoundInv p d s1 :=
    run_inv (fun s e s' hi hok hs => roundInv_step hi hok.1 hok.2.1 hs)
      (roundInv_ready h0 hd hub hn) hok1 h1
  have hi2 := roundInv_step hi1 (show RoundEvent (.write (p + 1) bio) from trivial) hkw hw
  have hkept := kept_write hi1 hset hnp hw
  have hall := run_hist (J := fun es t => RoundInv p d t ∧ Kept p d b s2 es t) ⟨hi2, hkept⟩
    (fun es t e u hj hr hok hs => ⟨roundInv_step hj.1 hok.1 hok.2.1 hs,
      kept_step hj.1 hok.1 hr hj.2 hs⟩) (hok2 s2 hw) h2
  rcases hall.2 with hs | ha
  · exact Or.inr hs
  · obtain ⟨h, hdirty⟩ := ha.dirty
    exact Or.inl ⟨h, view_dirty hdirty⟩

/-! ### A write ahead of the copy, and one behind it -/

/-- A request of partner 0 up to the copy of the first of its two words. -/
def untilFirstWord : List Event := [.recvMetadata 0, .run 0, .run 0, .run 0, .run 0]

/-- The rest of the round, and the termination. -/
def restOfRound : List Event :=
  [.run 0, .run 0, .run 0, .recvTerminate 0, .run 0, .run 0, .run 0]

/-- A write to the second word, which the copy has not reached. -/
theorem no_dirty_bit_lost_ahead :
    ∃ s2 s3, run step twoDevices (untilFirstWord ++ [.write 1 ⟨140, 512, true⟩]) = some s2 ∧
      run step s2 restOfRound = some s3 ∧
        ((∃ h, s3.halfBit ⟨16, 0⟩ h 70 = true) ∨
          CopiedAndShipped 0 ⟨16, 0⟩ 70 s2 restOfRound) := by
  have hsome : (run step twoDevices
      (untilFirstWord ++ [.write 1 ⟨140, 512, true⟩] ++ restOfRound)).isSome = true := by decide
  obtain ⟨s3, hr⟩ := Option.isSome_iff_exists.mp hsome
  obtain ⟨s2, h02, h23⟩ := run_append_some.mp hr
  obtain ⟨s1, h01, h12⟩ := run_snoc_some.mp h02
  have hset : (run step twoDevices untilFirstWord).map
      (fun s => decide (SetsBit s 0 ⟨140, 512, true⟩ 70)) = some true := by decide
  rw [h01, Option.map_some, Option.some.injEq, decide_eq_true_eq] at hset
  have hidx : Meets step KeepsIndex twoDevices
      (untilFirstWord ++ .write (0 + 1) ⟨140, 512, true⟩ :: restOfRound) := by
    refine meets_keepsIndex 2 (fun _ _ => rfl) (by decide) (by decide)
  have hok : Meets step (fun s e => RoundEvent e ∧ NotPassed 0 s e) twoDevices
      (untilFirstWord ++ .write (0 + 1) ⟨140, 512, true⟩ :: restOfRound) := by decide
  have hall := meets_and.mpr ⟨(meets_and.mp hok).1, meets_and.mpr ⟨hidx, (meets_and.mp hok).2⟩⟩
  exact ⟨s2, s3, h02, h23,
    no_dirty_bit_lost ready_twoDevices rfl rfl (by decide) h01 h12 hset h23 hall⟩

/-- A write to the first word after it was copied: its bit is in neither half at the end of the
round, and no round has copied it as set. -/
theorem dirty_bit_lost_behind :
    ¬ ∀ (p b : Nat) (d : SrcDisk) (s0 s1 s2 s3 : Server) (bio : Bio) (es1 es2 : List Event),
      Ready s0 → s0.srcDisk p = some d → s0.ubitmap p = none → s0.Normal p →
      run step s0 es1 = some s1 → s1.step (.write (p + 1) bio) = some s2 → SetsBit s1 p bio b →
      run step s2 es2 = some s3 → (∀ e ∈ es1 ++ es2, RoundEvent e) →
      (∃ h, s3.halfBit d h b = true) ∨ CopiedAndShipped p d b s2 es2 := by
  intro h
  have hsome : (run step twoDevices
      (untilFirstWord ++ [.write 1 ⟨6, 512, true⟩] ++ restOfRound)).isSome = true := by decide
  obtain ⟨s3, hr⟩ := Option.isSome_iff_exists.mp hsome
  obtain ⟨s2, h02, h23⟩ := run_append_some.mp hr
  obtain ⟨s1, h01, h12⟩ := run_snoc_some.mp h02
  have hset : (run step twoDevices untilFirstWord).map
      (fun s => decide (SetsBit s 0 ⟨6, 512, true⟩ 3)) = some true := by decide
  rw [h01, Option.map_some, Option.some.injEq, decide_eq_true_eq] at hset
  have hclear : (run step twoDevices
      (untilFirstWord ++ [.write 1 ⟨6, 512, true⟩] ++ restOfRound)).map
      (fun s => (s.halfBit ⟨16, 0⟩ .first 3, s.halfBit ⟨16, 0⟩ .second 3)) =
        some (false, false) := by decide
  rw [hr, Option.map_some, Option.some.injEq, Prod.mk.injEq] at hclear
  have hnever : ∀ n, n < 8 → (run step twoDevices
      (untilFirstWord ++ [.write 1 ⟨6, 512, true⟩] ++ restOfRound.take n)).all
      (fun t => decide (¬ CopiesSet t 0 ⟨16, 0⟩ 3)) = true := by decide
  rcases h 0 3 ⟨16, 0⟩ twoDevices s1 s2 s3 ⟨6, 512, true⟩ untilFirstWord restOfRound ready_twoDevices
    rfl rfl (by decide) h01 h12 hset h23 (by decide) with ⟨g, hg⟩ | ⟨ea, em, ec, t1, t2, hes, ht1, hc, -⟩
  · cases g with
    | first => rw [hclear.1] at hg; cases hg
    | second => rw [hclear.2] at hg; cases hg
  · have hlen : ea.length < 8 := by
      have := congrArg List.length hes
      simp [restOfRound] at this
      omega
    have htake : restOfRound.take ea.length = ea := by rw [hes, List.take_left]
    have hall := hnever ea.length hlen
    rw [htake, run_append_some.mpr ⟨s2, h02, ht1⟩, Option.all_some, decide_eq_true_eq] at hall
    exact hall hc

end Server

end Ebdr
