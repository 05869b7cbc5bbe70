/-!
# Event-driven systems

A system is a partial step function `step : σ → ε → Option σ`; `none` says that the event
cannot occur in that state. A run is a finite event list executed from a start state.
The invariant rules below turn one-step facts into facts about every prefix of a run,
either for all runs or for the runs whose steps all meet a side condition. The last
section compares two runs that agree on their visible events.
-/

namespace EventSystem

universe u v

variable {σ : Type u} {ε : Type v}

/-- Execute a finite event list; an event that cannot occur leaves no final state. -/
def run (step : σ → ε → Option σ) : σ → List ε → Option σ
  | s, [] => some s
  | s, e :: es => (step s e).bind fun t ↦ run step t es

/-- Every state passed through by the run, its first and last included, satisfies `Q`. -/
def Always (step : σ → ε → Option σ) (Q : σ → Prop) (s : σ) (es : List ε) : Prop :=
  ∀ pre t, pre <+: es → run step s pre = some t → Q t

/-- Every step taken by the run meets the side condition `C` on its state and event. -/
def Along (step : σ → ε → Option σ) (C : σ → ε → Prop) (s : σ) (es : List ε) : Prop :=
  ∀ pre e t, pre ++ [e] <+: es → run step s pre = some t → (step t e).isSome → C t e

/-- Every step taken by the run, from the state before it to the state after it, satisfies
`P`. -/
def Throughout (step : σ → ε → Option σ) (P : σ → ε → σ → Prop) (s : σ) (es : List ε) : Prop :=
  ∀ pre e t u, pre ++ [e] <+: es → run step s pre = some t → step t e = some u → P t e u

/-! ### Composition of runs -/

section Runs

variable (step : σ → ε → Option σ)

/-- A run takes its first event and continues from the state reached. -/
theorem run_cons (s : σ) (e : ε) (es : List ε) :
    run step s (e :: es) = (step s e).bind fun t ↦ run step t es := rfl

/-- A nonempty run is a first step followed by the rest. -/
theorem run_cons_eq_some {s u : σ} {e : ε} {es : List ε} :
    run step s (e :: es) = some u ↔ ∃ t, step s e = some t ∧ run step t es = some u := by
  rw [run_cons, Option.bind_eq_some_iff]

/-- The empty run visits only its start state. -/
theorem always_nil {Q : σ → Prop} {s : σ} : Always step Q s [] ↔ Q s := by
  constructor
  · intro h
    exact h [] s (List.prefix_refl _) rfl
  · intro h pre t hp hr
    rw [List.prefix_nil.mp hp] at hr
    exact Option.some.inj hr ▸ h

/-- A run visits its start state and then the states of its tail. -/
theorem always_cons {Q : σ → Prop} {s : σ} {e : ε} {es : List ε} :
    Always step Q s (e :: es) ↔ Q s ∧ ∀ t, step s e = some t → Always step Q t es := by
  constructor
  · intro h
    refine ⟨h [] s (List.nil_prefix) rfl, ?_⟩
    intro t ht pre u hp hr
    apply h (e :: pre) u (List.cons_prefix_cons.mpr ⟨rfl, hp⟩)
    rw [run_cons, ht]
    exact hr
  · rintro ⟨hs, ht⟩ pre u hp hr
    cases pre with
    | nil => exact Option.some.inj hr ▸ hs
    | cons a pre =>
      obtain ⟨rfl, hq⟩ := List.cons_prefix_cons.mp hp
      obtain ⟨t, hst, hr⟩ := (run_cons_eq_some step).mp hr
      exact ht t hst pre u hq hr

/-- The empty run takes no step. -/
theorem along_nil {C : σ → ε → Prop} {s : σ} : Along step C s [] := by
  intro pre e t hp
  simp at hp

/-- A run meets its side condition at the first step and along the tail. -/
theorem along_cons {C : σ → ε → Prop} {s : σ} {e : ε} {es : List ε} :
    Along step C s (e :: es) ↔
      ∀ t, step s e = some t → C s e ∧ Along step C t es := by
  constructor
  · intro h t ht
    refine ⟨h [] e s (by simp) rfl (by simp [ht]), ?_⟩
    intro pre a u hp hr hs
    apply h (e :: pre) a u (List.cons_prefix_cons.mpr ⟨rfl, hp⟩) _ hs
    rw [run_cons, ht]
    exact hr
  · intro h pre a u hp hr hs
    cases pre with
    | nil =>
      obtain ⟨rfl, _⟩ := List.cons_prefix_cons.mp hp
      cases hr
      obtain ⟨t, ht⟩ := Option.isSome_iff_exists.mp hs
      exact (h t ht).1
    | cons b pre =>
      obtain ⟨rfl, hq⟩ := List.cons_prefix_cons.mp hp
      obtain ⟨t, hst, hr⟩ := (run_cons_eq_some step).mp hr
      exact (h t hst).2 pre a u hq hr hs

/-- A first step that is known, and the rest of the run. -/
theorem Along.cons {C : σ → ε → Prop} {s t : σ} {e : ε} {es : List ε} {step : σ → ε → Option σ}
    (hs : step s e = some t) (hc : C s e) (ht : Along step C t es) :
    Along step C s (e :: es) := by
  refine (along_cons step).mpr ?_
  intro u hu
  rw [hs] at hu
  cases hu
  exact ⟨hc, ht⟩

end Runs

/-! ### Invariant rules -/

section Invariants

variable {step : σ → ε → Option σ} {J Q : σ → Prop} {C : σ → ε → Prop}

/-- A property that every step keeps holds at the end of every run. -/
theorem invariant_run (keep : ∀ s e t, J s → step s e = some t → J t)
    {s t : σ} {es : List ε} (hs : J s) (hr : run step s es = some t) : J t := by
  induction es generalizing s with
  | nil => exact Option.some.inj hr ▸ hs
  | cons e es ih =>
    obtain ⟨u, hu, hr⟩ := (run_cons_eq_some step).mp hr
    exact ih (keep s e u hs hu) hr

/-- A property kept by the steps that meet `C` holds throughout the runs made of such steps. -/
theorem always_of_along (keep : ∀ s e t, J s → C s e → step s e = some t → J t)
    {s : σ} {es : List ε} (hs : J s) (hc : Along step C s es) : Always step J s es := by
  induction es generalizing s with
  | nil => exact (always_nil step).mpr hs
  | cons e es ih =>
    refine (always_cons step).mpr ⟨hs, ?_⟩
    intro t ht
    obtain ⟨h, hc⟩ := (along_cons step).mp hc t ht
    exact ih (keep s e t hs h ht) hc

/-- Weakening of the property that holds throughout a run. -/
theorem Always.imp {s : σ} {es : List ε} (h : Always step J s es) (hq : ∀ s, J s → Q s) :
    Always step Q s es := by
  intro pre t hp hr
  exact hq t (h pre t hp hr)

/-- The last state of a run is one of the states it passes through. -/
theorem Always.last {s t : σ} {es : List ε} (h : Always step Q s es)
    (hr : run step s es = some t) : Q t :=
  h es t (List.prefix_refl _) hr

/-- Exact characterization. If `J` implies `Q`, is kept by the steps that meet `C`, and any
other step from a `J` state ends outside `Q`, then `Q` holds throughout a run exactly when
all of its steps meet `C`. -/
theorem always_iff_along (sound : ∀ s, J s → Q s)
    (keep : ∀ s e t, J s → C s e → step s e = some t → J t)
    (break_ : ∀ s e t, J s → ¬ C s e → step s e = some t → ¬ Q t)
    {s : σ} {es : List ε} (hs : J s) : Always step Q s es ↔ Along step C s es := by
  constructor
  · intro h
    induction es generalizing s with
    | nil => exact along_nil step
    | cons e es ih =>
      refine (along_cons step).mpr ?_
      intro t ht
      have ha := ((always_cons step).mp h).2 t ht
      have hc : C s e := by
        apply Classical.byContradiction
        intro hn
        exact break_ s e t hs hn ht (ha [] t List.nil_prefix rfl)
      exact ⟨hc, ih (keep s e t hs hc ht) ha⟩
  · intro h
    exact (always_of_along keep hs h).imp sound

/-- If in every state with the invariant `J` a step satisfies `P` exactly when it meets `C`,
then so it is for whole runs. -/
theorem throughout_iff_along {P : σ → ε → σ → Prop}
    (keep : ∀ s e t, J s → step s e = some t → J t)
    (exact_ : ∀ s e t, J s → step s e = some t → (P s e t ↔ C s e))
    {s : σ} {es : List ε} (hs : J s) : Throughout step P s es ↔ Along step C s es := by
  constructor
  · intro h pre e t hp hr hd
    obtain ⟨u, hu⟩ := Option.isSome_iff_exists.mp hd
    exact (exact_ t e u (invariant_run keep hs hr) hu).mp (h pre e t u hp hr hu)
  · intro h pre e t u hp hr hu
    have hd : (step t e).isSome := by rw [hu]; rfl
    exact (exact_ t e u (invariant_run keep hs hr) hu).mpr (h pre e t hp hr hd)

/-- If the steps that meet `C` keep `J` and satisfy `P`, then all steps of a run made of such
steps satisfy `P`. -/
theorem throughout_of_along {P : σ → ε → σ → Prop}
    (keep : ∀ s e t, J s → C s e → step s e = some t → J t)
    (sound : ∀ s e t, J s → C s e → step s e = some t → P s e t)
    {s : σ} {es : List ε} (hs : J s) (hc : Along step C s es) : Throughout step P s es := by
  intro pre e t u hp hr hu
  have hd : (step t e).isSome := by rw [hu]; rfl
  have hj : J t := always_of_along keep hs hc pre t ((List.prefix_append pre [e]).trans hp) hr
  exact sound t e u hj (hc pre e t hp hr hd) hu

end Invariants

/-! ### Two runs with the same visible events -/

section TwoRuns

variable (step : σ → ε → Option σ) (hidden : σ → ε → Bool)

/-- The events of a run that are not hidden in the state where they occur. -/
def visible : σ → List ε → List ε
  | _, [] => []
  | s, e :: es =>
    match step s e with
    | none => []
    | some t => if hidden s e then visible t es else e :: visible t es

variable {step hidden}

private theorem visible_cons_of_step {s t : σ} {e : ε} {es : List ε} (h : step s e = some t) :
    visible step hidden s (e :: es) =
      if hidden s e then visible step hidden t es else e :: visible step hidden t es := by
  simp only [visible, h]

/-- Hidden steps alone keep a state related to a partner that does not move. -/
theorem related_of_visible_nil {R : σ → σ → Prop}
    (left : ∀ s t u e, R s u → hidden s e = true → step s e = some t → R t u)
    {s t u : σ} {es : List ε} (h : R s u) (hr : run step s es = some t)
    (hv : visible step hidden s es = []) : R t u := by
  induction es generalizing s with
  | nil => exact Option.some.inj hr ▸ h
  | cons e es ih =>
    obtain ⟨m, hm, hr⟩ := (run_cons_eq_some step).mp hr
    rw [visible_cons_of_step hm] at hv
    cases hh : hidden s e with
    | true =>
      rw [hh] at hv
      exact ih (left s m u e h hh hm) hr hv
    | false => simp [hh] at hv

/-- A run whose first visible event is `e` reaches it through hidden steps only. -/
private theorem split_visible {s t : σ} {e : ε} {vs es : List ε}
    (hr : run step s es = some t) (hv : visible step hidden s es = e :: vs) :
    ∃ pre post m n, run step s pre = some m ∧ visible step hidden s pre = [] ∧
      hidden m e = false ∧ step m e = some n ∧ run step n post = some t ∧
      visible step hidden n post = vs := by
  induction es generalizing s with
  | nil => cases hv
  | cons a es ih =>
    obtain ⟨m, hm, hr⟩ := (run_cons_eq_some step).mp hr
    rw [visible_cons_of_step hm] at hv
    cases hh : hidden s a with
    | true =>
      rw [hh] at hv
      obtain ⟨pre, post, m', n, h1, h2, h3, h4, h5, h6⟩ := ih hr hv
      refine ⟨a :: pre, post, m', n, ?_, ?_, h3, h4, h5, h6⟩
      · exact (run_cons_eq_some step).mpr ⟨m, hm, h1⟩
      · rw [visible_cons_of_step hm, hh]
        exact h2
    | false =>
      rw [hh] at hv
      obtain ⟨rfl, hvs⟩ := List.cons.inj hv
      exact ⟨[], es, s, m, rfl, rfl, hh, hm, hr, hvs⟩

/-- Unwinding. If a relation is kept by hidden steps on either side and by a common visible
step on both sides, then two runs with the same visible events end in related states. -/
theorem unwinding {R : σ → σ → Prop}
    (left : ∀ s t u e, R s u → hidden s e = true → step s e = some t → R t u)
    (right : ∀ s t u e, R s u → hidden u e = true → step u e = some t → R s t)
    (both : ∀ s s' t t' e, R s t → hidden s e = false → hidden t e = false →
      step s e = some s' → step t e = some t' → R s' t')
    {s s' t t' : σ} {es fs : List ε} (h : R s t)
    (hs : run step s es = some s') (ht : run step t fs = some t')
    (hv : visible step hidden s es = visible step hidden t fs) : R s' t' := by
  generalize hvs : visible step hidden t fs = vs at hv
  induction vs generalizing s t es fs with
  | nil =>
    have hl : R s' t := related_of_visible_nil left h hs hv
    exact related_of_visible_nil (R := fun a b ↦ R b a)
      (fun a b c e hab ↦ right c b a e hab) hl ht hvs
  | cons e vs ih =>
    obtain ⟨p, q, m, n, h1, h2, h3, h4, h5, h6⟩ := split_visible hs hv
    obtain ⟨p', q', m', n', k1, k2, k3, k4, k5, k6⟩ := split_visible ht hvs
    have hl : R m t := related_of_visible_nil left h h1 h2
    have hr : R m m' := related_of_visible_nil (R := fun a b ↦ R b a)
      (fun a b c e hab ↦ right c b a e hab) hl k1 k2
    exact ih (both m n m' n' e hr h3 k3 h4 k4) h5 k5 k6 h6

end TwoRuns

end EventSystem
