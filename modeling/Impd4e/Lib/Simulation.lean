import Impd4e.Lib.Machine

/-! # Two machines side by side

    A machine is related to another one state by state.  `run_simulates` is for a
    machine that does with several small steps what the other does with one,
    `run_lockstep` for two that take the same events, and `run_purge` for events
    that do not matter to an observer: what he sees of a run is what he would see
    if they had never come. -/

namespace Machine

variable {σ ε ω σ' ε' ω' α : Type*}

/-! ## Simulation -/

section Simulation

variable {step : Step σ ε ω} {step' : Step σ' ε' ω'}

/-- The events of the second machine along a run of the first one. -/
def trace (step : Step σ ε ω) (translate : σ → ε → List ε') : σ → List ε → List ε'
  | _, [] => []
  | s, e :: es =>
      match step s e with
      | none => []
      | some (s', _) => translate s e ++ trace step translate s' es

/-- **THE SIMULATION RULE** — where the second machine can answer every step of
    the first from related states, with outputs that look the same, it can answer
    every run. -/
theorem run_simulates {R : σ → σ' → Prop} {translate : σ → ε → List ε'} {view : ω → List α}
    {view' : ω' → List α}
    (answers : ∀ s e t out u, R s u → step s e = some (t, out) →
      ∃ u' out', run step' u (translate s e) = some (u', out') ∧ R t u' ∧
        out'.flatMap view' = out.flatMap view)
    {s t : σ} {u : σ'} {es : List ε} {out : List ω} (hR : R s u)
    (h : run step s es = some (t, out)) :
    ∃ u' out', run step' u (trace step translate s es) = some (u', out') ∧ R t u' ∧
      out'.flatMap view' = out.flatMap view := by
  induction es generalizing s u out with
  | nil =>
      obtain ⟨rfl, rfl⟩ := Prod.mk.inj (Option.some.inj h)
      exact ⟨u, [], rfl, hR, rfl⟩
  | cons e es ih =>
      obtain ⟨s', out₁, out₂, hstep, hrun, rfl⟩ := run_cons_eq_some.mp h
      obtain ⟨u₁, out₁', h₁, hR₁, hview₁⟩ := answers s e s' out₁ u hR hstep
      obtain ⟨u₂, out₂', h₂, hR₂, hview₂⟩ := ih hR₁ hrun
      refine ⟨u₂, out₁' ++ out₂', ?_, hR₂, ?_⟩
      · rw [trace, hstep]
        exact run_append_eq_some.mpr ⟨u₁, out₁', out₂', h₁, h₂, rfl⟩
      · rw [List.flatMap_append, List.flatMap_append, hview₁, hview₂]

end Simulation

/-! ## Event by event -/

section Lockstep

variable {step : Step σ ε ω} {step' : Step σ' ε ω'} {R : σ → σ' → Prop} {allowed : ε → Prop}
  {view : ω → Option α} {view' : ω' → Option α}

/-- **THE LOCKSTEP RULE** — where every event that is allowed does in related
    states what looks the same, every run of such events does. -/
theorem run_lockstep
    (follows : ∀ s e t out u, allowed e → R s u → step s e = some (t, out) →
      ∃ u' out', step' u e = some (u', out') ∧ R t u' ∧
        out'.filterMap view' = out.filterMap view)
    {s t : σ} {u : σ'} {es : List ε} {out : List ω} (hes : ∀ e ∈ es, allowed e) (hR : R s u)
    (h : run step s es = some (t, out)) :
    ∃ u' out', run step' u es = some (u', out') ∧ R t u' ∧
      out'.filterMap view' = out.filterMap view := by
  induction es generalizing s u out with
  | nil =>
      obtain ⟨rfl, rfl⟩ := Prod.mk.inj (Option.some.inj h)
      exact ⟨u, [], rfl, hR, rfl⟩
  | cons e es ih =>
      obtain ⟨he, hes⟩ := List.forall_mem_cons.mp hes
      obtain ⟨s', out₁, out₂, hstep, hrun, rfl⟩ := run_cons_eq_some.mp h
      obtain ⟨u₁, out₁', hstep', hR₁, hview₁⟩ := follows s e s' out₁ u he hR hstep
      obtain ⟨u₂, out₂', hrun', hR₂, hview₂⟩ := ih hes hR₁ hrun
      refine ⟨u₂, out₁' ++ out₂', ?_, hR₂, ?_⟩
      · exact run_cons_eq_some.mpr ⟨u₁, out₁', out₂', hstep', hrun', rfl⟩
      · rw [List.filterMap_append, List.filterMap_append, hview₁, hview₂]

end Lockstep

/-! ## Events that do not matter -/

section Purge

variable {step : Step σ ε ω} {R : σ → σ → Prop} {seen : ε → Bool} {visible : ω → Bool}

/-- **THE PURGE RULE** — where an unseen event keeps the state related to what it
    was and shows nothing, and a seen event does the same in related states, a
    run may be purged of its unseen events. -/
theorem run_purge
    (unseen : ∀ s e t out u, seen e = false → R s u → step s e = some (t, out) →
      R t u ∧ out.filter visible = [])
    (follows : ∀ s e t out u, seen e = true → R s u → step s e = some (t, out) →
      ∃ u' out', step u e = some (u', out') ∧ R t u' ∧
        out'.filter visible = out.filter visible)
    {s t u : σ} {es : List ε} {out : List ω} (hR : R s u)
    (h : run step s es = some (t, out)) :
    ∃ u' out', run step u (es.filter seen) = some (u', out') ∧ R t u' ∧
      out'.filter visible = out.filter visible := by
  induction es generalizing s u out with
  | nil =>
      obtain ⟨rfl, rfl⟩ := Prod.mk.inj (Option.some.inj h)
      exact ⟨u, [], rfl, hR, rfl⟩
  | cons e es ih =>
      obtain ⟨s', out₁, out₂, hstep, hrun, rfl⟩ := run_cons_eq_some.mp h
      cases hseen : seen e with
      | false =>
          obtain ⟨hR₁, hnothing⟩ := unseen s e s' out₁ u hseen hR hstep
          obtain ⟨u', out', hrun', hR', hview⟩ := ih hR₁ hrun
          rw [List.filter_cons_of_neg (by rw [hseen]; exact Bool.false_ne_true)]
          refine ⟨u', out', hrun', hR', ?_⟩
          rw [List.filter_append, hnothing, List.nil_append, hview]
      | true =>
          obtain ⟨u₁, out₁', hstep', hR₁, hview₁⟩ := follows s e s' out₁ u hseen hR hstep
          obtain ⟨u₂, out₂', hrun', hR₂, hview₂⟩ := ih hR₁ hrun
          rw [List.filter_cons_of_pos hseen]
          refine ⟨u₂, out₁' ++ out₂', ?_, hR₂, ?_⟩
          · exact run_cons_eq_some.mpr ⟨u₁, out₁', out₂', hstep', hrun', rfl⟩
          · rw [List.filter_append, List.filter_append, hview₁, hview₂]

/-- Where every event does the same in related states, every run does. -/
theorem run_follows
    (follows : ∀ s e t out u, R s u → step s e = some (t, out) →
      ∃ u' out', step u e = some (u', out') ∧ R t u' ∧
        out'.filter visible = out.filter visible)
    {s t u : σ} {es : List ε} {out : List ω} (hR : R s u)
    (h : run step s es = some (t, out)) :
    ∃ u' out', run step u es = some (u', out') ∧ R t u' ∧
      out'.filter visible = out.filter visible := by
  obtain ⟨u', out', hrun, hR', hview⟩ := @run_purge σ ε ω step R (fun _ => true) visible
    (fun _ _ _ _ _ he => absurd he.symm Bool.false_ne_true)
    (fun s e t out u _ => follows s e t out u) s t u es out hR h
  rw [List.filter_true] at hrun
  exact ⟨u', out', hrun, hR', hview⟩

end Purge

end Machine
