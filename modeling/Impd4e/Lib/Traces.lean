import Mathlib.Data.List.Basic

/-! # Actions that may change places

    Actions with keys are taken one after the other.  Some pairs of keys depend
    on each other; actions whose keys do not may be taken in either order.  Two
    sequences in which the actions of any two dependent keys come in the same
    order then end alike, as the words of one trace do: `foldlM_sameTrace`. -/

namespace Traces

universe u v

variable {α κ : Type*} [DecidableEq κ] {σ : Type u} {m : Type u → Type v} [Monad m]
  [LawfulMonad m]

/-- The actions of two keys, in order. -/
def only (key : α → κ) (a b : κ) (xs : List α) : List α :=
  xs.filter fun x => key x = a ∨ key x = b

/-- **ONE TRACE** — the actions of any two dependent keys come in the same order. -/
def SameTrace (dep : κ → κ → Prop) (key : α → κ) (xs ys : List α) : Prop :=
  ∀ a b, dep a b → only key a b xs = only key a b ys

/-- A key depends on itself, and dependence goes both ways. -/
structure Dependence (dep : κ → κ → Prop) : Prop where
  refl : ∀ a, dep a a
  symm : ∀ a b, dep a b → dep b a

variable {key : α → κ} {dep : κ → κ → Prop} {x : α} {xs ys pre post : List α} {a b : κ}

theorem only_append (key : α → κ) (a b : κ) (xs ys : List α) :
    only key a b (xs ++ ys) = only key a b xs ++ only key a b ys :=
  List.filter_append xs ys

theorem only_cons_of_mem (h : key x = a ∨ key x = b) :
    only key a b (x :: xs) = x :: only key a b xs :=
  List.filter_cons_of_pos (decide_eq_true h)

theorem only_cons_of_not_mem (h : ¬ (key x = a ∨ key x = b)) :
    only key a b (x :: xs) = only key a b xs :=
  List.filter_cons_of_neg (by rwa [decide_eq_true_eq])

theorem only_eq_nil (h : ∀ y ∈ xs, ¬ (key y = a ∨ key y = b)) : only key a b xs = [] := by
  refine List.filter_eq_nil_iff.mpr ?_
  intro y hy
  rw [decide_eq_true_eq]
  exact h y hy

omit [DecidableEq κ] in
/-- Two keys of one dependent pair depend on each other. -/
theorem Dependence.of_pair (hdep : Dependence dep) (hab : dep a b) {k l : κ}
    (hk : k = a ∨ k = b) (hl : l = a ∨ l = b) : dep k l := by
  rcases hk with rfl | rfl
  · rcases hl with rfl | rfl
    · exact hdep.refl _
    · exact hab
  · rcases hl with rfl | rfl
    · exact hdep.symm _ _ hab
    · exact hdep.refl _

/-- Two neighbours that do not depend on each other change places. -/
theorem sameTrace_swap (hdep : Dependence dep) {y : α} (h : ¬ dep (key x) (key y))
    (pre post : List α) : SameTrace dep key (pre ++ x :: y :: post) (pre ++ y :: x :: post) := by
  intro a b hab
  rw [only_append, only_append]
  congr 1
  by_cases hx : key x = a ∨ key x = b
  · have hy : ¬ (key y = a ∨ key y = b) := fun hy => h (hdep.of_pair hab hx hy)
    rw [only_cons_of_mem hx, only_cons_of_not_mem hy, only_cons_of_not_mem hy,
      only_cons_of_mem hx]
  · by_cases hy : key y = a ∨ key y = b
    · rw [only_cons_of_not_mem hx, only_cons_of_mem hy, only_cons_of_mem hy,
        only_cons_of_not_mem hx]
    · rw [only_cons_of_not_mem hx, only_cons_of_not_mem hy, only_cons_of_not_mem hy,
        only_cons_of_not_mem hx]

/-- The first action of one sequence stands in the other behind actions that do not
    depend on it, and without it the two are still one trace. -/
theorem SameTrace.uncons (hdep : Dependence dep) (h : SameTrace dep key (x :: xs) ys) :
    ∃ pre post, ys = pre ++ x :: post ∧ (∀ y ∈ pre, ¬ dep (key x) (key y)) ∧
      SameTrace dep key xs (pre ++ post) := by
  -- the first action of its own key
  have hself := h (key x) (key x) (hdep.refl (key x))
  rw [only_cons_of_mem (Or.inl rfl)] at hself
  obtain ⟨pre, post, rfl, hpre, -, -⟩ := List.filter_eq_cons_iff.mp hself.symm
  have hkey : ∀ y ∈ pre, key y ≠ key x := by
    intro y hy heq
    exact hpre y hy (decide_eq_true (Or.inl heq))
  have hindep : ∀ y ∈ pre, ¬ dep (key x) (key y) := by
    intro y hy hxy
    have hpair := h (key x) (key y) hxy
    rw [only_cons_of_mem (Or.inl rfl), only_append] at hpair
    cases hfront : only key (key x) (key y) pre with
    | nil =>
        have hmem : y ∈ only key (key x) (key y) pre :=
          List.mem_filter.mpr ⟨hy, decide_eq_true (Or.inr rfl)⟩
        rw [hfront] at hmem
        exact absurd hmem List.not_mem_nil
    | cons z zs =>
        rw [hfront] at hpair
        have hz : z ∈ pre := by
          have hmem : z ∈ only key (key x) (key y) pre := by
            rw [hfront]
            exact List.mem_cons_self
          exact (List.mem_filter.mp hmem).1
        have hxz : x = z := (List.cons.inj hpair).1
        exact hkey z hz (congrArg key hxz.symm)
  refine ⟨pre, post, rfl, hindep, ?_⟩
  intro a b hab
  have hpair := h a b hab
  rw [only_append] at hpair ⊢
  by_cases hx : key x = a ∨ key x = b
  · have hnil : only key a b pre = [] :=
      only_eq_nil fun y hy hyab => hindep y hy (hdep.of_pair hab hx hyab)
    rw [only_cons_of_mem hx, hnil, only_cons_of_mem hx] at hpair
    rw [hnil]
    exact (List.cons.inj hpair).2
  · rwa [only_cons_of_not_mem hx, only_cons_of_not_mem hx] at hpair

variable {step : σ → α → m σ}

/-- Two actions that may change places. -/
def Commute (step : σ → α → m σ) (x y : α) : Prop :=
  ∀ s, (step s x >>= fun s => step s y) = step s y >>= fun s => step s x

/-- An action moves to the front of actions it commutes with. -/
theorem foldlM_front (h : ∀ y ∈ pre, Commute step x y) (s : σ) :
    (pre ++ x :: post).foldlM step s = (x :: (pre ++ post)).foldlM step s := by
  induction pre generalizing s with
  | nil => rfl
  | cons y pre ih =>
      have hy := h y List.mem_cons_self
      have hpre : ∀ s, (pre ++ x :: post).foldlM step s = (x :: (pre ++ post)).foldlM step s :=
        ih fun z hz => h z (List.mem_cons_of_mem _ hz)
      calc (y :: pre ++ x :: post).foldlM step s
          = step s y >>= fun s => (pre ++ x :: post).foldlM step s := rfl
        _ = step s y >>= fun s => step s x >>= fun s => (pre ++ post).foldlM step s := by
            simp only [hpre, List.foldlM_cons]
        _ = (step s y >>= fun s => step s x) >>= fun s => (pre ++ post).foldlM step s :=
            (bind_assoc _ _ _).symm
        _ = (step s x >>= fun s => step s y) >>= fun s => (pre ++ post).foldlM step s := by
            rw [hy s]
        _ = (x :: (y :: pre ++ post)).foldlM step s := bind_assoc _ _ _

/-- **ONE TRACE, ONE END** — where actions of independent keys commute. -/
theorem foldlM_sameTrace (hdep : Dependence dep)
    (hcomm : ∀ x y, ¬ dep (key x) (key y) → Commute step x y)
    (h : SameTrace dep key xs ys) (s : σ) : xs.foldlM step s = ys.foldlM step s := by
  induction xs generalizing ys s with
  | nil =>
      have hnil : ys = [] := by
        cases ys with
        | nil => rfl
        | cons y ys =>
            have hy := h (key y) (key y) (hdep.refl (key y))
            rw [only_cons_of_mem (Or.inl rfl)] at hy
            exact absurd hy (List.cons_ne_nil _ _).symm
      rw [hnil]
  | cons x xs ih =>
      obtain ⟨pre, post, rfl, hindep, hrest⟩ := h.uncons hdep
      rw [foldlM_front (fun y hy => hcomm x y (hindep y hy)), List.foldlM_cons, List.foldlM_cons]
      congr 1
      funext s
      exact ih hrest s

/-! ## Parts of a state -/

/-- A state seen in parts: a part that is written leaves the others as they are, and
    different parts may be written in either order. -/
structure Parts (σ : Type*) (ι : Type*) (V : ι → Type*) where
  view : σ → (i : ι) → V i
  put : (i : ι) → V i → σ → σ
  view_put_ne : ∀ {i j : ι} (v : V j) (s : σ), i ≠ j → view (put j v s) i = view s i
  put_comm : ∀ {i j : ι} (v : V i) (w : V j) (s : σ), i ≠ j →
    put i v (put j w s) = put j w (put i v s)

variable {τ ι : Type*} {V : ι → Type*} {P : Parts τ ι V}

/-- A function that may fail reads and writes one part only. -/
def Parts.On (P : Parts τ ι V) (i : ι) (f : τ → Option τ) : Prop :=
  ∃ act : V i → Option (V i), ∀ s, f s = (act (P.view s i)).map fun v => P.put i v s

/-- On different parts they commute. -/
theorem Parts.On.comm {i j : ι} {f g : τ → Option τ} (hf : P.On i f) (hg : P.On j g)
    (hij : i ≠ j) (s : τ) : (f s).bind g = (g s).bind f := by
  obtain ⟨act, hf⟩ := hf
  obtain ⟨act', hg⟩ := hg
  rw [hf s, hg s]
  cases hv : act (P.view s i) with
  | none =>
      cases hw : act' (P.view s j) with
      | none => rfl
      | some w =>
          show none = f (P.put j w s)
          rw [hf, P.view_put_ne w s hij, hv]
          rfl
  | some v =>
      cases hw : act' (P.view s j) with
      | none =>
          show g (P.put i v s) = none
          rw [hg, P.view_put_ne v s hij.symm, hw]
          rfl
      | some w =>
          show g (P.put i v s) = f (P.put j w s)
          rw [hf, hg, P.view_put_ne w s hij, P.view_put_ne v s hij.symm, hv, hw]
          exact congrArg some (P.put_comm w v s hij.symm)

end Traces
