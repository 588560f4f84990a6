import Ebdr.Lib.Lts
import Mathlib.Data.Set.Function

/-!
# Two runs that differ in hidden events

`unwinding` is the rule for "what is hidden makes no difference": a relation between states that is
kept when either run makes a hidden step, and when both make the same visible step, holds after two
runs with the same visible events. Each step may rely on a condition that both runs meet. That the
second run gets to its end is part of the conclusion.

The relations it is used with say that two states agree on a set of slots, which is `Set.EqOn` of
each table; `eqOn_update` and `eqOn_update_right` are the two ways a step stores into a table.
-/

namespace Lts

section Agree

variable {α β : Type*} [DecidableEq α] {f f' : α → β} {q : Set α} {p : α} {v v' : β}

theorem eqOn_update (h : Set.EqOn f f' q) (hv : p ∈ q → v = v') :
    Set.EqOn (Function.update f p v) (Function.update f' p v') q := by
  intro a ha
  by_cases hap : a = p
  · subst hap
    rw [Function.update_self, Function.update_self, hv ha]
  · rw [Function.update_of_ne hap, Function.update_of_ne hap]
    exact h ha

theorem eqOn_update_right (h : Set.EqOn f f' q) (hp : p ∉ q) :
    Set.EqOn f (Function.update f' p v) q := by
  intro a ha
  have hap : a ≠ p := fun heq => hp (heq ▸ ha)
  rw [Function.update_of_ne hap]
  exact h ha

end Agree

variable {σ ε : Type*} {step : σ → ε → Option σ} {ok : σ → ε → Prop} {hidden : ε → Bool}
  {R : σ → σ → Prop}

theorem unwinding_hidden (hhidden : ∀ s s' e, R s s' → ok s' e → hidden e = true →
      ∃ u, step s' e = some u ∧ R s u)
    {s s' : σ} {fs : List ε} (h0 : R s s') (hm : Meets step ok s' fs)
    (hfs : ∀ e ∈ fs, hidden e = true) : ∃ u, run step s' fs = some u ∧ R s u := by
  induction fs generalizing s' with
  | nil => exact ⟨s', rfl, h0⟩
  | cons e fs ih =>
    obtain ⟨t, ht, hstep⟩ := hhidden s s' e h0 hm.1 (hfs e List.mem_cons_self)
    obtain ⟨u, hu, hru⟩ := ih hstep (hm.2 t ht) fun f hf => hfs f (List.mem_cons_of_mem e hf)
    exact ⟨u, run_cons_some.mpr ⟨t, ht, hu⟩, hru⟩

/-- **Unwinding.** A symmetric relation that hidden steps of one run and visible steps of both keep.
The hidden steps, and what is visible in the first run, can be done, so the second run gets to its
end. -/
theorem unwinding (hsymm : ∀ s s', R s s' → R s' s)
    (hhidden : ∀ s s' e, R s s' → ok s' e → hidden e = true → ∃ u, step s' e = some u ∧ R s u)
    (hvisible : ∀ s s' e u, R s s' → ok s e → ok s' e → hidden e = false →
      step s e = some u → ∃ u', step s' e = some u' ∧ R u u')
    {s s' u : σ} {es fs : List ε} (h0 : R s s') (hm : Meets step ok s es)
    (hm' : Meets step ok s' fs)
    (hsame : es.filter (fun e => !hidden e) = fs.filter (fun e => !hidden e))
    (hr : run step s es = some u) : ∃ u', run step s' fs = some u' ∧ R u u' := by
  induction es generalizing s s' fs with
  | nil =>
    cases hr
    have hall : ∀ e ∈ fs, hidden e = true := by
      intro e he
      have hno := List.filter_eq_nil_iff.mp hsame.symm e he
      simpa using hno
    exact unwinding_hidden hhidden h0 hm' hall
  | cons e es ih =>
    obtain ⟨t, ht, hr⟩ := run_cons_some.mp hr
    cases hh : hidden e with
    | true =>
      obtain ⟨t', ht', hstep⟩ := hhidden s' s e (hsymm _ _ h0) hm.1 hh
      obtain rfl : t = t' := Option.some.inj (ht.symm.trans ht')
      apply ih (hsymm _ _ hstep) (hm.2 t ht) hm' _ hr
      rw [← hsame, List.filter_cons_of_neg (by simp [hh])]
    | false =>
      -- the second run makes hidden steps before it comes to `e`
      rw [List.filter_cons_of_pos (by simp [hh])] at hsame
      obtain ⟨gs, hs, rfl, hgs, -, hrest⟩ := List.filter_eq_cons_iff.mp hsame.symm
      obtain ⟨hmg, hmv⟩ := meets_append.mp hm'
      obtain ⟨v, hv, hbefore⟩ := unwinding_hidden hhidden h0 hmg (by simpa using hgs)
      obtain ⟨hok, hrestok⟩ := hmv v hv
      obtain ⟨t', ht', hstep⟩ := hvisible s v e t hbefore hm.1 hok hh ht
      obtain ⟨u', hu', hru⟩ := ih hstep (hm.2 t ht) (hrestok t' ht') hrest.symm hr
      exact ⟨u', run_append_some.mpr ⟨v, hv, run_cons_some.mpr ⟨t', ht', hu'⟩⟩, hru⟩

end Lts
