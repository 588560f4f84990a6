import Ebdr.Lib.Lts
import Mathlib.Data.List.Basic
import Mathlib.Logic.Function.Basic
import Mathlib.Tactic.Common

/-!
# A memory mirrored by a table

Objects have a state in memory, and a table keeps rows of a key and a state. `Mirrors` says that
the two agree: every row has the state its object has in memory, and every object that is not free
has a row. An operation of the program has an `Effect` on the pair; `Effect.Ok` is the exact
condition, on the memory before it, under which the two still agree afterwards.
`always_mirrors_iff` carries this over to runs of a system whose steps have such effects.
-/

namespace Mirror

variable {κ σ : Type*}

structure Mirrors (free : σ) (mem : κ → σ) (rows : List (κ × σ)) : Prop where
  agree : ∀ r ∈ rows, mem r.1 = r.2
  recorded : ∀ k, mem k ≠ free → ∃ r ∈ rows, r.1 = k

/-- No row is marked free. -/
def NoneFree (free : σ) (rows : List (κ × σ)) : Prop := ∀ r ∈ rows, r.2 ≠ free

/-- The rows of `k` get the state `v`. -/
def setRows [DecidableEq κ] (k : κ) (v : σ) (rows : List (κ × σ)) : List (κ × σ) :=
  rows.map fun r => if r.1 = k then (k, v) else r

/-- What an operation does to the memory and to the table. -/
inductive Effect (κ σ : Type*) where
  | keep
  /-- The state is stored, the table is not touched. -/
  | store (k : κ) (v : σ)
  /-- The state is stored, and the rows of the object are updated. -/
  | storeUpdate (k : κ) (v : σ)
  /-- The state is stored, and a row for `k'` is inserted. -/
  | storeInsert (k : κ) (v : σ) (k' : κ)
  /-- Only a row is inserted. -/
  | insert (k : κ) (v : σ)
  /-- The states of the objects in `l` are stored, the table is not touched. -/
  | load (l : List κ) (f : κ → σ)

namespace Effect

def memory [DecidableEq κ] (mem : κ → σ) : Effect κ σ → κ → σ
  | keep => mem
  | store k v => Function.update mem k v
  | storeUpdate k v => Function.update mem k v
  | storeInsert k v _ => Function.update mem k v
  | insert _ _ => mem
  | load l f => fun k => if k ∈ l then f k else mem k

def table [DecidableEq κ] (rows : List (κ × σ)) : Effect κ σ → List (κ × σ)
  | keep => rows
  | store _ _ => rows
  | storeUpdate k v => setRows k v rows
  | storeInsert _ v k' => rows ++ [(k', v)]
  | insert k v => rows ++ [(k, v)]
  | load _ _ => rows

/-- The effect marks nothing free. -/
def NotFree (free : σ) : Effect κ σ → Prop
  | keep => True
  | store _ v => v ≠ free
  | storeUpdate _ v => v ≠ free
  | storeInsert _ v _ => v ≠ free
  | insert _ v => v ≠ free
  | load l f => ∀ k ∈ l, f k ≠ free

theorem NotFree.ite {free : σ} {c : Prop} [Decidable c] {e e' : Effect κ σ} (h : e.NotFree free)
    (h' : e'.NotFree free) : (if c then e else e').NotFree free := by
  split
  · exact h
  · exact h'

/-- States are stored without a statement only where they are the states already held; with an update
only for an object that has a row; with an insertion for a free object under its own key, or where
it is the state already held. -/
def Ok (free : σ) (mem : κ → σ) : Effect κ σ → Prop
  | keep => True
  | store k v => mem k = v
  | storeUpdate k _ => mem k ≠ free
  | storeInsert k v k' => (k' = k ∧ mem k = free) ∨ (mem k = v ∧ mem k' = v)
  | insert k v => mem k = v
  | load l f => ∀ k ∈ l, mem k = f k

instance [DecidableEq κ] [DecidableEq σ] (free : σ) (mem : κ → σ) (e : Effect κ σ) : Decidable (e.Ok free mem) := by
  cases e <;> unfold Ok <;> infer_instance

end Effect

section

variable {free : σ} {mem : κ → σ} {rows : List (κ × σ)} {k k' : κ} {v : σ}

theorem Mirrors.not_free (h : Mirrors free mem rows) (hf : NoneFree free rows) {r : κ × σ}
    (hr : r ∈ rows) : mem r.1 ≠ free := by
  rw [h.agree r hr]
  exact hf r hr

theorem Mirrors.insert_iff (h : Mirrors free mem rows) :
    Mirrors free mem (rows ++ [(k, v)]) ↔ mem k = v := by
  constructor
  · intro h'
    exact h'.agree (k, v) (by simp)
  · intro hk
    refine ⟨fun r hr => ?_, fun j hj => ?_⟩
    · rcases List.mem_append.mp hr with hr | hr
      · exact h.agree r hr
      · rw [List.mem_singleton.mp hr]
        exact hk
    · obtain ⟨r, hr, hrj⟩ := h.recorded j hj
      exact ⟨r, List.mem_append_left _ hr, hrj⟩

theorem NoneFree.append (hf : NoneFree free rows) (hv : v ≠ free) :
    NoneFree free (rows ++ [(k, v)]) := by
  intro r hr
  rcases List.mem_append.mp hr with hr | hr
  · exact hf r hr
  · rw [List.mem_singleton.mp hr]
    exact hv

variable [DecidableEq κ]

theorem mem_setRows {r : κ × σ} :
    r ∈ setRows k v rows ↔ (r ∈ rows ∧ r.1 ≠ k) ∨ (r = (k, v) ∧ ∃ r' ∈ rows, r'.1 = k) := by
  unfold setRows
  rw [List.mem_map]
  constructor
  · rintro ⟨r', hr', rfl⟩
    by_cases h : r'.1 = k
    · rw [if_pos h]
      exact Or.inr ⟨rfl, r', hr', h⟩
    · rw [if_neg h]
      exact Or.inl ⟨hr', h⟩
  · rintro (⟨hr, hk⟩ | ⟨rfl, r', hr', hk⟩)
    · exact ⟨r, hr, if_neg hk⟩
    · exact ⟨r', hr', if_pos hk⟩

theorem Mirrors.store_iff (h : Mirrors free mem rows) (hv : v ≠ free) :
    Mirrors free (Function.update mem k v) rows ↔ mem k = v := by
  constructor
  · intro h'
    have hk : Function.update mem k v k ≠ free := by rwa [Function.update_self]
    obtain ⟨r, hr, rfl⟩ := h'.recorded k hk
    have hnew := h'.agree r hr
    rw [Function.update_self] at hnew
    rw [h.agree r hr, hnew]
  · rintro rfl
    rwa [Function.update_eq_self]

theorem Mirrors.storeUpdate_iff (h : Mirrors free mem rows) (hf : NoneFree free rows)
    (hv : v ≠ free) :
    Mirrors free (Function.update mem k v) (setRows k v rows) ↔ mem k ≠ free := by
  constructor
  · intro h'
    have hk : Function.update mem k v k ≠ free := by rwa [Function.update_self]
    obtain ⟨r, hr, rfl⟩ := h'.recorded k hk
    rcases mem_setRows.mp hr with ⟨_, hne⟩ | ⟨_, r', hr', hk'⟩
    · exact absurd rfl hne
    · rw [← hk']
      exact h.not_free hf hr'
  · intro hk
    refine ⟨fun r hr => ?_, fun j hj => ?_⟩
    · rcases mem_setRows.mp hr with ⟨hr', hne⟩ | ⟨rfl, _⟩
      · rw [Function.update_of_ne hne]
        exact h.agree r hr'
      · exact Function.update_self ..
    · obtain ⟨r, hr, rfl⟩ := h.recorded k hk
      by_cases hjk : j = r.1
      · exact ⟨(r.1, v), mem_setRows.mpr (Or.inr ⟨rfl, r, hr, rfl⟩), hjk.symm⟩
      · rw [Function.update_of_ne hjk] at hj
        obtain ⟨r', hr', rfl⟩ := h.recorded j hj
        exact ⟨r', mem_setRows.mpr (Or.inl ⟨hr', hjk⟩), rfl⟩

theorem Mirrors.storeInsert_iff (h : Mirrors free mem rows) (hf : NoneFree free rows)
    (hv : v ≠ free) :
    Mirrors free (Function.update mem k v) (rows ++ [(k', v)]) ↔
      (k' = k ∧ mem k = free) ∨ (mem k = v ∧ mem k' = v) := by
  constructor
  · intro h'
    -- the rows `k` had before pin its state
    have hold : ∀ r ∈ rows, r.1 = k → mem k = v := by
      rintro r hr rfl
      have hnew := h'.agree r (List.mem_append_left _ hr)
      rw [Function.update_self] at hnew
      rw [h.agree r hr, hnew]
    have hlast : Function.update mem k v k' = v := h'.agree (k', v) (by simp)
    by_cases hk : mem k = free
    · have hnone : ∀ r ∈ rows, r.1 ≠ k := by
        rintro r hr rfl
        exact h.not_free hf hr hk
      obtain ⟨r, hr, hrk⟩ := h'.recorded k (by rwa [Function.update_self])
      rcases List.mem_append.mp hr with hr | hr
      · exact absurd hrk (hnone r hr)
      · rw [List.mem_singleton.mp hr] at hrk
        exact Or.inl ⟨hrk, hk⟩
    · obtain ⟨r, hr, hrk⟩ := h.recorded k hk
      have hkv := hold r hr hrk
      by_cases hkk : k' = k
      · rw [hkk]
        exact Or.inr ⟨hkv, hkv⟩
      · rw [Function.update_of_ne hkk] at hlast
        exact Or.inr ⟨hkv, hlast⟩
  · rintro (⟨rfl, hk⟩ | ⟨hk, hk'⟩)
    · refine ⟨fun r hr => ?_, fun j hj => ?_⟩
      · rcases List.mem_append.mp hr with hr | hr
        · have hne : r.1 ≠ k' := fun heq => h.not_free hf hr (by rw [heq, hk])
          rw [Function.update_of_ne hne]
          exact h.agree r hr
        · rw [List.mem_singleton.mp hr]
          exact Function.update_self ..
      · by_cases hjk : j = k'
        · exact ⟨(k', v), by simp, hjk.symm⟩
        · rw [Function.update_of_ne hjk] at hj
          obtain ⟨r, hr, hrj⟩ := h.recorded j hj
          exact ⟨r, List.mem_append_left _ hr, hrj⟩
    · have hsame : Function.update mem k v = mem := by rw [← hk, Function.update_eq_self]
      rw [hsame]
      exact h.insert_iff.mpr hk'

theorem Mirrors.load_iff (h : Mirrors free mem rows) {l : List κ} {f : κ → σ}
    (hv : ∀ k ∈ l, f k ≠ free) :
    Mirrors free (fun k => if k ∈ l then f k else mem k) rows ↔ ∀ k ∈ l, mem k = f k := by
  constructor
  · intro h' k hk
    have hnew : (if k ∈ l then f k else mem k) = f k := if_pos hk
    obtain ⟨r, hr, rfl⟩ := h'.recorded k (hnew.trans_ne (hv k hk))
    have hrow := h'.agree r hr
    rw [h.agree r hr, ← hrow, hnew]
  · intro hsame
    have hmem : (fun k => if k ∈ l then f k else mem k) = mem := by
      funext k
      split
      · rename_i hk
        exact (hsame k hk).symm
      · rfl
    rwa [hmem]

/-- **The condition is exact.** -/
theorem Mirrors.apply_iff (h : Mirrors free mem rows) (hf : NoneFree free rows) {e : Effect κ σ}
    (he : e.NotFree free) : Mirrors free (e.memory mem) (e.table rows) ↔ e.Ok free mem := by
  cases e with
  | keep => exact iff_true_intro h
  | store k v => exact h.store_iff he
  | storeUpdate k v => exact h.storeUpdate_iff hf he
  | storeInsert k v k' => exact h.storeInsert_iff hf he
  | insert k v => exact h.insert_iff
  | load l f => exact h.load_iff he

theorem NoneFree.apply (hf : NoneFree free rows) {e : Effect κ σ} (he : e.NotFree free) :
    NoneFree free (e.table rows) := by
  cases e with
  | keep | store | load => exact hf
  | storeUpdate k v =>
    intro r hr
    rcases mem_setRows.mp hr with ⟨hr', _⟩ | ⟨rfl, _⟩
    · exact hf r hr'
    · exact he
  | storeInsert k v k' => exact hf.append he
  | insert k v => exact hf.append he

end

theorem mirrors_nil {free : σ} : Mirrors free (fun _ : κ => free) [] :=
  ⟨fun _ hr => absurd hr List.not_mem_nil, fun _ hk => absurd rfl hk⟩

theorem noneFree_nil {free : σ} : NoneFree free ([] : List (κ × σ)) :=
  fun _ hr => absurd hr List.not_mem_nil

section Runs

variable {S E : Type*} [DecidableEq κ] {step : S → E → Option S} {mem : S → κ → σ}
  {rows : S → List (κ × σ)} {eff : S → E → Effect κ σ} {free : σ}

/-- **Runs.** The memory and the table agree all along a run if and only if the effects of all its
steps meet the condition. -/
theorem always_mirrors_iff
    (hstep : ∀ s e s', step s e = some s' →
      mem s' = (eff s e).memory (mem s) ∧ rows s' = (eff s e).table (rows s))
    (hfree : ∀ s e, NoneFree free (rows s) → (eff s e).NotFree free) {s u : S} {es : List E}
    (h0 : Mirrors free (mem s) (rows s)) (hf : NoneFree free (rows s))
    (hr : Lts.run step s es = some u) :
    Lts.Always step (fun t => Mirrors free (mem t) (rows t)) s es ↔
      Lts.Meets step (fun t e => (eff t e).Ok free (mem t)) s es := by
  apply Lts.always_iff_meets (I := fun t => Mirrors free (mem t) (rows t) ∧ NoneFree free (rows t))
      (fun _ ht => ht.1) ?_ ⟨h0, hf⟩ hr
  rintro t e t' ⟨ht, hft⟩ hs
  obtain ⟨hmem, hrows⟩ := hstep t e t' hs
  have he := hfree t e hft
  have hiff := ht.apply_iff hft he
  rw [hmem, hrows]
  exact ⟨fun hok => ⟨hiff.mpr hok, hft.apply he⟩, hiff.mp⟩

end Runs

end Mirror
