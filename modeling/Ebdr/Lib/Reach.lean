import Ebdr.Lib.Lts

/-!
# What can be brought about

`Can step ok P s` says that some run from `s`, each of whose steps meets `ok`, leads to a state with
`P`. Runs are put together from single steps (`Can.next`), in sequence (`Can.bind`), in loops with a
counter (`can_of_count`), and from the runs of a component (`Can.lift`). An invariant of the steps
that meet `ok` may be added to what is reached (`Can.keep`).
-/

namespace Lts

variable {σ τ ε δ : Type*} {step : σ → ε → Option σ} {ok : σ → ε → Prop} {P Q : σ → Prop} {s t : σ}
  {e : ε}

def Can (step : σ → ε → Option σ) (ok : σ → ε → Prop) (P : σ → Prop) (s : σ) : Prop :=
  ∃ es t, Meets step ok s es ∧ run step s es = some t ∧ P t

theorem can_of (h : P s) : Can step ok P s := ⟨[], s, trivial, rfl, h⟩

theorem Can.next (hs : step s e = some t) (hok : ok s e) (h : Can step ok P t) :
    Can step ok P s := by
  obtain ⟨es, u, hm, hr, hp⟩ := h
  refine ⟨e :: es, u, ⟨hok, fun t' ht => ?_⟩, run_cons_some.mpr ⟨t, hs, hr⟩, hp⟩
  obtain rfl : t = t' := Option.some.inj (hs.symm.trans ht)
  exact hm

theorem forall_of_meets {F : ε → Prop} (hF : ∀ s e, ok s e → F e) {es : List ε}
    (hm : Meets step ok s es) (hr : run step s es = some t) : ∀ e ∈ es, F e := by
  induction es generalizing s with
  | nil => simp
  | cons e es ih =>
    obtain ⟨s', hs, hr⟩ := run_cons_some.mp hr
    intro f hf
    rcases List.mem_cons.mp hf with rfl | hf
    · exact hF s f hm.1
    · exact ih (hm.2 s' hs) hr f hf

theorem Can.bind (h : Can step ok P s) (hnext : ∀ t, P t → Can step ok Q t) : Can step ok Q s := by
  obtain ⟨es, t, hm, hr, hp⟩ := h
  obtain ⟨fs, u, hm', hr', hq⟩ := hnext t hp
  refine ⟨es ++ fs, u, meets_append.mpr ⟨hm, fun t' ht => ?_⟩, run_append_some.mpr ⟨t, hr, hr'⟩, hq⟩
  obtain rfl : t = t' := Option.some.inj (hr.symm.trans ht)
  exact hm'

theorem Can.mono (h : Can step ok P s) (hpq : ∀ t, P t → Q t) : Can step ok Q s :=
  h.bind fun t hp => can_of (hpq t hp)

theorem Can.keep {I : σ → Prop} (hstep : ∀ s e s', I s → ok s e → step s e = some s' → I s')
    (hi : I s) (h : Can step ok P s) : Can step ok (fun t => P t ∧ I t) s := by
  obtain ⟨es, t, hm, hr, hp⟩ := h
  exact ⟨es, t, hm, hr, hp, run_inv hstep hi hm hr⟩

theorem can_of_count {P : Nat → σ → Prop} {n : Nat}
    (hpass : ∀ i < n, ∀ s, P i s → Can step ok (P (i + 1)) s) (h0 : P 0 s) :
    Can step ok (P n) s := by
  induction n with
  | zero => exact can_of h0
  | succ n ih =>
    have hbefore := ih fun i hi => hpass i (by omega)
    exact hbefore.bind fun t ht => hpass n (by omega) t ht

/-- The runs of a component, whose states are related by `R` to those of the whole. -/
theorem Can.lift {step' : τ → δ → Option τ} {ok' : τ → δ → Prop} {R : σ → τ → Prop} {f : ε → δ}
    (hsim : ∀ s e s' t, R s t → ok s e → step s e = some s' →
      ok' t (f e) ∧ ∃ t', step' t (f e) = some t' ∧ R s' t')
    {u : τ} (hR : R s u) (h : Can step ok P s) :
    Can step' ok' (fun t => ∃ s', R s' t ∧ P s') u := by
  obtain ⟨es, s', hm, hr, hp⟩ := h
  induction es generalizing s u with
  | nil =>
    obtain rfl := Option.some.inj hr
    exact can_of ⟨s, hR, hp⟩
  | cons e es ih =>
    obtain ⟨v, hv, hr⟩ := run_cons_some.mp hr
    obtain ⟨hok, t', ht, hR'⟩ := hsim s e v u hR hm.1 hv
    exact (ih hR' (hm.2 v hv) hr).next ht hok

end Lts
