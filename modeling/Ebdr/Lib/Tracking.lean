import Mathlib.Data.Set.Basic
import Mathlib.Tactic.Common

/-!
# A replica with marks

A source has a value for every key, and a write is announced before it takes effect. Keys have marks,
several keys may share one, and a set of marks says where a replica may differ from the source.

`Fresh mark s A K v` says that the values `v` are those of the source `s` at every key of `K` whose
mark is not in `A`, and that no write is on its way to such a key. The rules are about what happens
to a replica:

* `Fresh.mono`: fewer keys or more marks.
* `Fresh.evolve`: the source goes on, and announces what it is going to write
  (`Evolves.announce`, `Evolves.land`).
* `Fresh.overwrite`: some of the keys are copied.
* `Fresh.discharge`: the marks in `B` can go when all their keys have been copied.
-/

namespace Tracking

variable {κ ι ν : Type*}

structure Source (κ ν : Type*) where
  content : κ → ν
  /-- The keys with a write on its way. -/
  busy : Set κ

/-- Outside the marks in `A`, the values `v` at the keys of `K` are up to date. -/
def Fresh (mark : κ → ι) (s : Source κ ν) (A : Set ι) (K : Set κ) (v : κ → ν) : Prop :=
  ∀ k ∈ K, (v k = s.content k ∧ k ∉ s.busy) ∨ mark k ∈ A

/-- From `s` to `s'`, at the keys of `K`, only what is busy or marked in `A` has changed. -/
def Evolves (mark : κ → ι) (A : Set ι) (K : Set κ) (s s' : Source κ ν) : Prop :=
  ∀ k ∈ K, k ∉ s.busy → (s'.content k = s.content k ∧ k ∉ s'.busy) ∨ mark k ∈ A

variable {mark : κ → ι} {s s' : Source κ ν} {A A' B : Set ι} {K K' C : Set κ} {u v v' : κ → ν}

/-! ### The source -/

theorem Evolves.announce {W : Set κ} (h : ∀ k ∈ K, k ∈ W → mark k ∈ A)
    (hcontent : s'.content = s.content) (hbusy : s'.busy = s.busy ∪ W) :
    Evolves mark A K s s' := by
  intro k hk hfree
  rw [hcontent, hbusy]
  by_cases hw : k ∈ W
  · exact Or.inr (h k hk hw)
  · exact Or.inl ⟨rfl, fun hb => hb.elim hfree hw⟩

theorem Evolves.land (hcontent : ∀ k, k ∉ s.busy → s'.content k = s.content k)
    (hbusy : s'.busy ⊆ s.busy) : Evolves mark A K s s' :=
  fun k _ hfree => Or.inl ⟨hcontent k hfree, fun hb => hfree (hbusy hb)⟩

theorem Evolves.mono (h : Evolves mark A K s s') (hK : K' ⊆ K) : Evolves mark A K' s s' :=
  fun k hk => h k (hK hk)

/-! ### The replica -/

theorem Fresh.mono (h : Fresh mark s A K v) (hA : A ⊆ A') (hK : K' ⊆ K) :
    Fresh mark s A' K' v :=
  fun k hk => (h k (hK hk)).imp_right fun hm => hA hm

theorem Fresh.evolve (h : Fresh mark s A K v) (hA : A ⊆ A') (he : Evolves mark A' K s s') :
    Fresh mark s' A' K v := by
  intro k hk
  rcases h k hk with ⟨hv, hfree⟩ | hm
  · rcases he k hk hfree with ⟨hc, hfree'⟩ | hm
    · exact Or.inl ⟨hv.trans hc.symm, hfree'⟩
    · exact Or.inr hm
  · exact Or.inr (hA hm)

theorem Fresh.overwrite (h : Fresh mark s A K v) (hu : Fresh mark s A C u)
    (hin : ∀ k ∈ C, v' k = u k) (hout : ∀ k ∈ K, k ∉ C → v' k = v k) :
    Fresh mark s A (K ∪ C) v' := by
  intro k hk
  by_cases hc : k ∈ C
  · rw [hin k hc]
    exact hu k hc
  · have hk' : k ∈ K := hk.resolve_right hc
    rw [hout k hk' hc]
    exact h k hk'

/-- The marks in `B` are no longer needed: all their keys have been copied. -/
theorem Fresh.discharge (h : Fresh mark s (A ∪ B) K v) (hc : Fresh mark s A C v)
    (hall : ∀ k ∈ K, mark k ∈ B → k ∈ C) : Fresh mark s A K v := by
  intro k hk
  rcases h k hk with hv | hm | hm
  · exact Or.inl hv
  · exact Or.inr hm
  · exact hc k (hall k hk hm)

theorem fresh_of_eq (h : ∀ k ∈ K, v k = s.content k) (hbusy : ∀ k ∈ K, k ∈ s.busy → mark k ∈ A) :
    Fresh mark s A K v := by
  intro k hk
  by_cases hb : k ∈ s.busy
  · exact Or.inr (hbusy k hk hb)
  · exact Or.inl ⟨h k hk, hb⟩

theorem Fresh.eq (h : Fresh mark s A K v) {k : κ} (hk : k ∈ K) (hm : mark k ∉ A) :
    v k = s.content k :=
  ((h k hk).resolve_right hm).1

end Tracking
