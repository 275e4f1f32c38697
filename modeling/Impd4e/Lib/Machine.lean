import Mathlib.Algebra.BigOperators.Group.List.Basic
import Mathlib.Data.List.Induction

/-! # Machines that take event after event

    A machine is a step function from a state and an event to the next state
    and the outputs of the step, or to nothing where the step is undefined.
    Its runs are lists of events; what holds of every run is proved from what
    one step does, by `run_rule` and `run_conserves`. -/

namespace Machine

variable {σ ε ω : Type*}

/-- One step; `none` where it is undefined. -/
abbrev Step (σ ε ω : Type*) := σ → ε → Option (σ × List ω)

/-- The state behind a list of events, and all outputs in order. -/
def run (step : Step σ ε ω) : σ → List ε → Option (σ × List ω)
  | s, [] => some (s, [])
  | s, e :: es =>
      match step s e with
      | none => none
      | some (s', out) =>
          match run step s' es with
          | none => none
          | some (s'', out') => some (s'', out ++ out')

variable {step : Step σ ε ω} {s₀ s s' : σ} {e : ε} {es fs : List ε} {out out' : List ω}

theorem run_cons_eq_some :
    run step s₀ (e :: es) = some (s', out) ↔
      ∃ s out₁ out₂, step s₀ e = some (s, out₁) ∧ run step s es = some (s', out₂) ∧
        out = out₁ ++ out₂ := by
  constructor
  · intro h
    rw [run] at h
    cases hs : step s₀ e with
    | none => rw [hs] at h; exact nomatch h
    | some r =>
        obtain ⟨s, out₁⟩ := r
        simp only [hs] at h
        cases hr : run step s es with
        | none => rw [hr] at h; exact nomatch h
        | some r =>
            obtain ⟨s'', out₂⟩ := r
            simp only [hr] at h
            obtain ⟨rfl, rfl⟩ := Prod.mk.inj (Option.some.inj h)
            exact ⟨s, out₁, out₂, rfl, hr, rfl⟩
  · rintro ⟨s, out₁, out₂, hs, hr, rfl⟩
    simp only [run, hs, hr]

/-- A run over two lists of events goes through a middle state. -/
theorem run_append_eq_some :
    run step s₀ (es ++ fs) = some (s', out) ↔
      ∃ s out₁ out₂, run step s₀ es = some (s, out₁) ∧ run step s fs = some (s', out₂) ∧
        out = out₁ ++ out₂ := by
  induction es generalizing s₀ out with
  | nil =>
      constructor
      · intro h
        exact ⟨s₀, [], out, rfl, h, rfl⟩
      · rintro ⟨s, out₁, out₂, h₁, h₂, rfl⟩
        obtain ⟨rfl, rfl⟩ := Prod.mk.inj (Option.some.inj h₁)
        exact h₂
  | cons e es ih =>
      rw [List.cons_append, run_cons_eq_some]
      constructor
      · rintro ⟨s, out₁, out₂, hs, hr, rfl⟩
        obtain ⟨t, out₃, out₄, h₃, h₄, rfl⟩ := ih.mp hr
        exact ⟨t, out₁ ++ out₃, out₄, run_cons_eq_some.mpr ⟨s, out₁, out₃, hs, h₃, rfl⟩, h₄,
          (List.append_assoc ..).symm⟩
      · rintro ⟨t, out₁, out₂, h₁, h₂, rfl⟩
        obtain ⟨s, out₃, out₄, hs, hr, rfl⟩ := run_cons_eq_some.mp h₁
        exact ⟨s, out₃, out₄ ++ out₂, hs, ih.mpr ⟨t, out₄, out₂, hr, h₂, rfl⟩,
          List.append_assoc ..⟩

theorem run_snoc_eq_some :
    run step s₀ (es ++ [e]) = some (s', out) ↔
      ∃ s out₁ out₂, run step s₀ es = some (s, out₁) ∧ step s e = some (s', out₂) ∧
        out = out₁ ++ out₂ := by
  rw [run_append_eq_some]
  constructor
  · rintro ⟨s, out₁, out₂, h₁, h₂, rfl⟩
    obtain ⟨t, out₃, out₄, h₃, h₄, rfl⟩ := run_cons_eq_some.mp h₂
    obtain ⟨rfl, rfl⟩ := Prod.mk.inj (Option.some.inj h₄)
    exact ⟨s, out₁, out₃, h₁, h₃, by rw [List.append_nil]⟩
  · rintro ⟨s, out₁, out₂, h₁, h₂, rfl⟩
    exact ⟨s, out₁, out₂, h₁,
      run_cons_eq_some.mpr ⟨s', out₂, [], h₂, rfl, (List.append_nil _).symm⟩, rfl⟩

/-- **THE RUN RULE** — what holds at the start and is kept by one step more
    holds behind every run.  The property may speak of the events so far, the
    state, and the outputs so far. -/
theorem run_rule {P : List ε → σ → List ω → Prop} (init : P [] s₀ [])
    (keeps : ∀ es s out e s' out', P es s out → step s e = some (s', out') →
      P (es ++ [e]) s' (out ++ out'))
    (h : run step s₀ es = some (s, out)) : P es s out := by
  induction es using List.reverseRecOn generalizing s out with
  | nil =>
      obtain ⟨rfl, rfl⟩ := Prod.mk.inj (Option.some.inj h)
      exact init
  | append_singleton es e ih =>
      obtain ⟨t, out₁, out₂, h₁, h₂, rfl⟩ := run_snoc_eq_some.mp h
      exact keeps es t out₁ e s out₂ (ih h₁) h₂

/-- **CONSERVATION** — where each step's outputs carry away exactly what the
    state loses, a whole run's outputs do. -/
theorem run_conserves {M : Type*} [AddCommGroup M] (held : σ → M) (value : ω → M)
    (keeps : ∀ s e s' out, step s e = some (s', out) →
      (out.map value).sum + held s' = held s)
    (h : run step s₀ es = some (s, out)) :
    (out.map value).sum + held s = held s₀ := by
  refine run_rule (P := fun _ s out => (out.map value).sum + held s = held s₀) ?_ ?_ h
  · rw [List.map_nil, List.sum_nil, zero_add]
  · intro _ s out e s' out' ih hs
    rw [List.map_append, List.sum_append, add_assoc, keeps s e s' out' hs, ih]

end Machine
