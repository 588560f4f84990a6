import Mathlib.Tactic.Common

/-!
# Calls that may not come back

A call of C code ends in one of four ways: it returns, it waits for a lock that its own thread holds,
it leaves the process through `exit`, or its behaviour is undefined. All but the last leave a state
behind, which is what the next process finds. `andThen` is sequencing, `loop` a `for` loop with a
fixed number of passes.

A loop whose passes return returns (`loop_returns`), and otherwise ends as the first pass that does
not (`loop_cases`); what every pass keeps is true of the state that is left, however the loop ends
(`Always.loop`).
-/

/-- How a call ends. -/
inductive Outcome (σ : Type*) where
  | returns (s : σ)
  /-- The thread waits for a lock that it holds. -/
  | blocked (s : σ)
  /-- The process is left. -/
  | exits (s : σ)
  | undefined
  deriving DecidableEq, Repr

namespace Outcome

variable {σ : Type*} {s t : σ} {o : Outcome σ} {f : σ → Outcome σ}

/-- The rest of the code runs only if the call returns. -/
def andThen : Outcome σ → (σ → Outcome σ) → Outcome σ
  | returns s, f => f s
  | blocked s, _ => blocked s
  | exits s, _ => exits s
  | undefined, _ => undefined

/-- `for(i = 0; i < n; i++)`. -/
def loop (body : Nat → σ → Outcome σ) : Nat → σ → Outcome σ
  | 0, s => returns s
  | n + 1, s => (loop body n s).andThen (body n)

/-- The state that is left, if any, has the property. -/
def Always (P : σ → Prop) : Outcome σ → Prop
  | returns s | blocked s | exits s => P s
  | undefined => True

/-- The call does not return. -/
def Stops (o : Outcome σ) : Prop := ∀ s, o ≠ returns s

@[simp] theorem returns_andThen : (returns s).andThen f = f s := rfl

@[simp] theorem blocked_andThen : (blocked s).andThen f = blocked s := rfl

@[simp] theorem exits_andThen : (exits s).andThen f = exits s := rfl

@[simp] theorem undefined_andThen : (undefined : Outcome σ).andThen f = undefined := rfl

theorem andThen_eq_returns : o.andThen f = returns t ↔ ∃ s, o = returns s ∧ f s = returns t := by
  cases o with
  | returns s => simp
  | blocked s => simp
  | exits s => simp
  | undefined => simp

theorem Stops.andThen (h : o.Stops) : o.andThen f = o := by
  cases o with
  | returns s => exact absurd rfl (h s)
  | blocked s => rfl
  | exits s => rfl
  | undefined => rfl

theorem Stops.blocked : (blocked s).Stops := fun _ h => by cases h

theorem Stops.exits : (exits s).Stops := fun _ h => by cases h

/-! ### What is true however the call ends -/

variable {P Q : σ → Prop}

theorem Always.mono (h : o.Always P) (hPQ : ∀ s, P s → Q s) : o.Always Q := by
  cases o with
  | returns s => exact hPQ s h
  | blocked s => exact hPQ s h
  | exits s => exact hPQ s h
  | undefined => trivial

theorem Always.bind (h : o.Always P) (hPQ : ∀ s, P s → Q s) (hf : ∀ s, P s → (f s).Always Q) :
    (o.andThen f).Always Q := by
  cases o with
  | returns s => exact hf s h
  | blocked s => exact hPQ s h
  | exits s => exact hPQ s h
  | undefined => trivial

theorem Always.andThen (h : o.Always P) (hf : ∀ s, P s → (f s).Always P) : (o.andThen f).Always P :=
  h.bind (fun _ hs => hs) hf

section Loop

variable {body : Nat → σ → Outcome σ} {n : Nat}

theorem Always.loop (hbody : ∀ i s, P s → (body i s).Always P) (h0 : P s) :
    (Outcome.loop body n s).Always P := by
  induction n with
  | zero => exact h0
  | succ n ih => exact ih.andThen (hbody n)

/-! ### Loops -/

/-- **Rule for a loop that returns.** Every pass returns and keeps the invariant. -/
theorem loop_returns {I : Nat → σ → Prop}
    (hnext : ∀ i < n, ∀ s, I i s → ∃ t, body i s = returns t ∧ I (i + 1) t) (h0 : I 0 s) :
    ∃ t, Outcome.loop body n s = returns t ∧ I n t := by
  induction n with
  | zero => exact ⟨s, rfl, h0⟩
  | succ n ih =>
    obtain ⟨t, ht, hi⟩ := ih fun i hlt => hnext i (Nat.lt_succ_of_lt hlt)
    obtain ⟨u, hu, hi'⟩ := hnext n (Nat.lt_succ_self n) t hi
    exact ⟨u, andThen_eq_returns.mpr ⟨t, ht, hu⟩, hi'⟩

/-- **Rule for a loop that may stop.** It returns with the invariant, or it ends as the pass that does
not return, before which the invariant holds. -/
theorem loop_cases {I : Nat → σ → Prop}
    (hnext : ∀ i < n, ∀ s, I i s → (∃ t, body i s = returns t ∧ I (i + 1) t) ∨ (body i s).Stops)
    (h0 : I 0 s) :
    (∃ t, Outcome.loop body n s = returns t ∧ I n t) ∨
      ∃ i < n, ∃ t, I i t ∧ (body i t).Stops ∧ Outcome.loop body n s = body i t := by
  induction n with
  | zero => exact Or.inl ⟨s, rfl, h0⟩
  | succ n ih =>
    rcases ih fun i hlt => hnext i (Nat.lt_succ_of_lt hlt) with ⟨t, ht, hi⟩ | ⟨i, hlt, t, hi, hstop, heq⟩
    · rcases hnext n (Nat.lt_succ_self n) t hi with ⟨u, hu, hi'⟩ | hstop
      · exact Or.inl ⟨u, andThen_eq_returns.mpr ⟨t, ht, hu⟩, hi'⟩
      · refine Or.inr ⟨n, Nat.lt_succ_self n, t, hi, hstop, ?_⟩
        rw [Outcome.loop, ht, returns_andThen]
    · refine Or.inr ⟨i, Nat.lt_succ_of_lt hlt, t, hi, hstop, ?_⟩
      rw [Outcome.loop, heq, hstop.andThen]

end Loop

end Outcome
