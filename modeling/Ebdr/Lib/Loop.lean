import Mathlib.Tactic.Common

/-!
# Loops that return

A loop is given by its pass: from the variables before a pass it gives either the variables before
the next one, or the value that the loop returns. `runFor pass n s` is the value returned within `n`
passes; `Returns pass s r` says that the loop comes to an end and returns `r`.

`runFor_of_variant` is the rule for a whole loop: an invariant, and a variant that each pass makes
smaller.
-/

namespace Loop

variable {σ ρ : Type*} (pass : σ → σ ⊕ ρ)

/-- The value returned within `n` passes. -/
def runFor : Nat → σ → Option ρ
  | 0, _ => none
  | n + 1, s =>
    match pass s with
    | .inl s' => runFor n s'
    | .inr r => some r

/-- The loop comes to an end and returns `r`. -/
def Returns (s : σ) (r : ρ) : Prop := ∃ n, runFor pass n s = some r

variable {pass} {s s' : σ} {r r' : ρ}

theorem runFor_next (h : pass s = .inl s') (n : Nat) : runFor pass (n + 1) s = runFor pass n s' := by
  rw [runFor, h]

theorem runFor_done (h : pass s = .inr r) (n : Nat) : runFor pass (n + 1) s = some r := by
  rw [runFor, h]

theorem runFor_succ {n : Nat} (h : runFor pass n s = some r) : runFor pass (n + 1) s = some r := by
  induction n generalizing s with
  | zero => exact absurd h (Option.some_ne_none r).symm
  | succ n ih =>
    cases hpass : pass s with
    | inl s' =>
      rw [runFor_next hpass] at h ⊢
      exact ih h
    | inr r' =>
      rw [runFor_done hpass] at h ⊢
      exact h

theorem runFor_add {n : Nat} (m : Nat) (h : runFor pass n s = some r) :
    runFor pass (n + m) s = some r := by
  induction m with
  | zero => exact h
  | succ m ih => exact runFor_succ ih

theorem Returns.unique (h : Returns pass s r) (h' : Returns pass s r') : r = r' := by
  obtain ⟨n, hn⟩ := h
  obtain ⟨m, hm⟩ := h'
  have hboth := runFor_add n hm
  rw [Nat.add_comm, runFor_add m hn] at hboth
  exact Option.some.inj hboth

/-- **Rule for a loop.** With more passes than the variant says it returns, and a value with the
property. -/
theorem runFor_of_variant {I : σ → Prop} {v : σ → Nat} {Q : ρ → Prop}
    (hnext : ∀ s s', I s → pass s = .inl s' → I s' ∧ v s' < v s)
    (hdone : ∀ s r, I s → pass s = .inr r → Q r) {n : Nat} (h : I s) (hn : v s < n) :
    ∃ r, runFor pass n s = some r ∧ Q r := by
  induction n generalizing s with
  | zero => exact absurd hn (Nat.not_lt_zero _)
  | succ n ih =>
    cases hpass : pass s with
    | inl s' =>
      obtain ⟨h', hless⟩ := hnext s s' h hpass
      rw [runFor_next hpass]
      apply ih h'
      omega
    | inr r => exact ⟨r, runFor_done hpass n, hdone s r h hpass⟩

end Loop
