import Mathlib.Data.List.Induction
import Mathlib.Tactic.Common

/-!
# Runs of a partial step function

A system is given by a step function `step : σ → ε → Option σ`; `none` means that the event is not
enabled in the state (or that the program's behaviour is undefined there). `run step s es` is the
state after the events `es`.

`Meets step ok s es` is the condition "every step of the run meets `ok`", where `ok` looks at the
state before the step and at the event. The two rules the proofs use are `run_inv` (an invariant
kept by every step that meets the condition holds after every run that does) and `run_hist` (the
same, for a fact that also speaks about the events so far). `always_iff_meets` is for a condition
that is exact: a step that does not meet it breaks the property at once.
-/

namespace Lts

variable {σ τ ε : Type*} (step : σ → ε → Option σ)

/-- The state after the events `es`. -/
def run : σ → List ε → Option σ
  | s, [] => some s
  | s, e :: es => (step s e).bind fun s' => run s' es

/-- Every step of the run meets `ok` (seen from the state before the step). -/
def Meets (ok : σ → ε → Prop) : σ → List ε → Prop
  | _, [] => True
  | s, e :: es => ok s e ∧ ∀ s', step s e = some s' → Meets ok s' es

/-- Along one run the condition can be computed when each step's can. -/
instance instDecidableMeets {ok : σ → ε → Prop} [∀ s e, Decidable (ok s e)] :
    ∀ s es, Decidable (Meets step ok s es)
  | _, [] => isTrue trivial
  | s, e :: es =>
    match h : step s e with
    | none => decidable_of_iff (ok s e)
        ⟨fun ho => ⟨ho, fun s' hs => by simp [h] at hs⟩, fun hm => hm.1⟩
    | some t =>
      have : Decidable (Meets step ok t es) := instDecidableMeets t es
      decidable_of_iff (ok s e ∧ Meets step ok t es)
        ⟨fun ho => ⟨ho.1, fun s' hs => by
          cases h.symm.trans hs
          exact ho.2⟩, fun hm => ⟨hm.1, hm.2 t h⟩⟩

variable {step}

@[simp] theorem run_nil (s : σ) : run step s [] = some s := rfl

@[simp] theorem run_cons (s : σ) (e : ε) (es : List ε) :
    run step s (e :: es) = (step s e).bind fun s' => run step s' es := rfl

theorem run_append (s : σ) (es fs : List ε) :
    run step s (es ++ fs) = (run step s es).bind fun t => run step t fs := by
  induction es generalizing s with
  | nil => rfl
  | cons e es ih =>
    simp only [List.cons_append, run_cons, Option.bind_assoc]
    congr 1
    funext s'
    exact ih s'

theorem run_snoc (s : σ) (es : List ε) (e : ε) :
    run step s (es ++ [e]) = (run step s es).bind fun t => step t e := by
  rw [run_append]
  congr 1
  funext t
  simp

theorem run_append_some {s u : σ} {es fs : List ε} :
    run step s (es ++ fs) = some u ↔ ∃ t, run step s es = some t ∧ run step t fs = some u := by
  rw [run_append, Option.bind_eq_some_iff]

theorem run_cons_some {s u : σ} {e : ε} {es : List ε} :
    run step s (e :: es) = some u ↔ ∃ t, step s e = some t ∧ run step t es = some u := by
  rw [run_cons, Option.bind_eq_some_iff]

theorem run_snoc_some {s u : σ} {es : List ε} {e : ε} :
    run step s (es ++ [e]) = some u ↔ ∃ t, run step s es = some t ∧ step t e = some u := by
  rw [run_snoc, Option.bind_eq_some_iff]

variable {ok : σ → ε → Prop}

@[simp] theorem meets_nil (s : σ) : Meets step ok s [] := trivial

theorem meets_cons {s : σ} {e : ε} {es : List ε} :
    Meets step ok s (e :: es) ↔ ok s e ∧ ∀ s', step s e = some s' → Meets step ok s' es := Iff.rfl

theorem meets_append {s : σ} {es fs : List ε} :
    Meets step ok s (es ++ fs) ↔
      Meets step ok s es ∧ ∀ t, run step s es = some t → Meets step ok t fs := by
  induction es generalizing s with
  | nil => simp
  | cons e es ih =>
    simp only [List.cons_append, meets_cons, run_cons_some, ih]
    constructor
    · rintro ⟨h, hes⟩
      refine ⟨⟨h, fun s' hs => (hes s' hs).1⟩, ?_⟩
      rintro t ⟨s', hs, ht⟩
      exact (hes s' hs).2 t ht
    · rintro ⟨⟨h, hes⟩, hfs⟩
      exact ⟨h, fun s' hs => ⟨hes s' hs, fun t ht => hfs t ⟨s', hs, ht⟩⟩⟩

theorem meets_last {s t : σ} {es : List ε} {e : ε} (h : Meets step ok s (es ++ [e]))
    (hr : run step s es = some t) : ok t e :=
  ((meets_append.mp h).2 t hr).1

theorem Meets.mono {ok' : σ → ε → Prop} (himp : ∀ s e, ok s e → ok' s e) {s : σ} {es : List ε}
    (h : Meets step ok s es) : Meets step ok' s es := by
  induction es generalizing s with
  | nil => trivial
  | cons e es ih => exact ⟨himp s e h.1, fun s' hs => ih (h.2 s' hs)⟩

/-- **Invariant rule with history.** A fact `J` about the events so far and the state they lead to
holds after every run that meets the condition. -/
theorem run_hist {J : List ε → σ → Prop} {s : σ} (h0 : J [] s)
    (hstep : ∀ es t e u, J es t → run step s es = some t → ok t e → step t e = some u →
      J (es ++ [e]) u) :
    ∀ {es u}, Meets step ok s es → run step s es = some u → J es u := by
  intro es
  induction es using List.reverseRecOn with
  | nil =>
    intro u _ hr
    cases hr
    exact h0
  | append_singleton es e ih =>
    intro u hm hr
    obtain ⟨t, ht, hu⟩ := run_snoc_some.mp hr
    exact hstep es t e u (ih (meets_append.mp hm).1 ht) ht (meets_last hm ht) hu

/-- **Invariant rule.** -/
theorem run_inv {I : σ → Prop} (hstep : ∀ s e s', I s → ok s e → step s e = some s' → I s')
    {s u : σ} {es : List ε} (h0 : I s) (hm : Meets step ok s es) (hr : run step s es = some u) :
    I u :=
  run_hist (J := fun _ t => I t) h0 (fun _ t e u hi _ hok hs => hstep t e u hi hok hs) hm hr

theorem meets_true (s : σ) (es : List ε) : Meets step (fun _ _ => True) s es := by
  induction es generalizing s with
  | nil => trivial
  | cons e es ih => exact ⟨trivial, fun s' _ => ih s'⟩

theorem meets_of_forall {P : ε → Prop} (s : σ) {es : List ε} (h : ∀ e ∈ es, P e) :
    Meets step (fun _ e => P e) s es := by
  induction es generalizing s with
  | nil => trivial
  | cons e es ih =>
    exact ⟨h e (by simp), fun s' _ => ih s' fun f hf => h f (by simp [hf])⟩

theorem meets_and {ok' : σ → ε → Prop} {s : σ} {es : List ε} :
    Meets step (fun s e => ok s e ∧ ok' s e) s es ↔
      Meets step ok s es ∧ Meets step ok' s es := by
  induction es generalizing s with
  | nil => simp
  | cons e es ih =>
    simp only [meets_cons, ih]
    constructor
    · rintro ⟨⟨h1, h2⟩, h⟩
      exact ⟨⟨h1, fun s' hs => (h s' hs).1⟩, h2, fun s' hs => (h s' hs).2⟩
    · rintro ⟨⟨h1, h1'⟩, h2, h2'⟩
      exact ⟨⟨h1, h2⟩, fun s' hs => ⟨h1' s' hs, h2' s' hs⟩⟩

theorem meets_iff_forall {s : σ} {es : List ε} :
    Meets step ok s es ↔ ∀ fs e t, fs ++ [e] <+: es → run step s fs = some t → ok t e := by
  constructor
  · rintro h fs e t ⟨gs, rfl⟩ hr
    exact meets_last (meets_append.mp h).1 hr
  · intro h
    induction es generalizing s with
    | nil => trivial
    | cons e es ih =>
      refine ⟨h [] e s ⟨es, rfl⟩ rfl, fun s' hs => ih fun fs f t hfs hr => ?_⟩
      apply h (e :: fs) f t
      · exact (List.prefix_cons_inj e).mpr hfs
      · exact run_cons_some.mpr ⟨s', hs, hr⟩

/-- Two conditions that an invariant makes the same are met by the same runs. -/
theorem meets_congr {ok' : σ → ε → Prop} {I : σ → Prop} {s : σ} {es : List ε} (h0 : I s)
    (hstep : ∀ s e s', I s → step s e = some s' → I s')
    (hiff : ∀ s e, I s → (ok s e ↔ ok' s e)) : Meets step ok s es ↔ Meets step ok' s es := by
  have hinv : ∀ {fs t}, run step s fs = some t → I t := fun {fs t} hr =>
    run_inv (fun s e s' hi _ hs => hstep s e s' hi hs) h0 (meets_true s fs) hr
  rw [meets_iff_forall, meets_iff_forall]
  constructor
  · intro h fs e t hfs hr
    exact (hiff t e (hinv hr)).mp (h fs e t hfs hr)
  · intro h fs e t hfs hr
    exact (hiff t e (hinv hr)).mpr (h fs e t hfs hr)

/-! ### Properties of all states of a run -/

/-- `G` holds in every state that the run passes through. -/
def Always (step : σ → ε → Option σ) (G : σ → Prop) (s : σ) (es : List ε) : Prop :=
  ∀ fs t, fs <+: es → run step s fs = some t → G t

theorem Always.tail {G : σ → Prop} {s s' : σ} {e : ε} {es : List ε}
    (h : Always step G s (e :: es)) (hs : step s e = some s') : Always step G s' es := by
  intro fs t hfs hr
  apply h (e :: fs) t (List.prefix_cons_inj e |>.mpr hfs)
  exact run_cons_some.mpr ⟨s', hs, hr⟩

theorem always_and {G H : σ → Prop} {s : σ} {es : List ε} :
    Always step (fun t => G t ∧ H t) s es ↔ Always step G s es ∧ Always step H s es := by
  constructor
  · intro h
    exact ⟨fun fs t hfs hr => (h fs t hfs hr).1, fun fs t hfs hr => (h fs t hfs hr).2⟩
  · rintro ⟨hg, hh⟩ fs t hfs hr
    exact ⟨hg fs t hfs hr, hh fs t hfs hr⟩

/-- **Exact conditions.** If an invariant that implies `G` is kept by the steps that meet the
condition, and every other step leads to a state without `G`, then `G` holds all along a run if and
only if all its steps meet the condition. -/
theorem always_iff_meets {I G : σ → Prop} (hG : ∀ s, I s → G s)
    (hstep : ∀ s e s', I s → step s e = some s' → (ok s e → I s') ∧ (G s' → ok s e))
    {s u : σ} {es : List ε} (h0 : I s) (hr : run step s es = some u) :
    Always step G s es ↔ Meets step ok s es := by
  constructor
  · intro h
    induction es generalizing s with
    | nil => trivial
    | cons e es ih =>
      obtain ⟨s', hs, hr'⟩ := run_cons_some.mp hr
      have hfirst : [e] <+: e :: es := ⟨es, rfl⟩
      have hrun : run step s [e] = some s' := run_cons_some.mpr ⟨s', hs, rfl⟩
      have hok : ok s e := (hstep s e s' h0 hs).2 (h [e] s' hfirst hrun)
      refine ⟨hok, fun t ht => ?_⟩
      cases hs.symm.trans ht
      exact ih ((hstep s e s' h0 hs).1 hok) hr' (h.tail hs)
  · rintro hm fs t ⟨gs, rfl⟩ hrun
    apply hG
    exact run_inv (fun s e s' hi ho hs => (hstep s e s' hi hs).1 ho) h0 (meets_append.mp hm).1 hrun

/-! ### Traces -/

/-- What the steps of a run put out, in order. -/
def trace (step : σ → ε → Option σ) {ω : Type*} (out : σ → ε → Option ω) : σ → List ε → List ω
  | _, [] => []
  | s, e :: es =>
    (out s e).toList ++
      match step s e with
      | none => []
      | some s' => trace step out s' es

theorem trace_snoc {ω : Type*} {out : σ → ε → Option ω} {s t : σ} {es : List ε} {e : ε}
    (hr : run step s es = some t) :
    trace step out s (es ++ [e]) = trace step out s es ++ (out t e).toList := by
  induction es generalizing s with
  | nil =>
    cases hr
    cases h : step t e <;> simp [trace, h]
  | cons f es ih =>
    obtain ⟨s', hs, hr⟩ := run_cons_some.mp hr
    rw [List.cons_append, trace, trace, hs]
    dsimp only
    rw [ih hr, List.append_assoc]

end Lts
