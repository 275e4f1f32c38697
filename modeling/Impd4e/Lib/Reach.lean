import Impd4e.Lib.ReadProg

/-! # How far a program reads

    A program *reaches* `n` when a memory of `n` cells is just enough for it:
    it returns on every list of at least `n` cells and faults on every shorter
    one.  Straight-line programs have a reach, and it is the largest of the
    reaches of their parts. -/

namespace ReadProg

variable {α β γ : Type}

/-- A program that goes on stays inside a list when both of its parts do. -/
theorem bind_inside_iff {l : List β} {p : ReadProg β α} {k : α → ReadProg β γ} :
    run (ofList l) (p.bind k) ≠ .error .unmapped ↔
      run (ofList l) p ≠ .error .unmapped ∧
        ∀ a, run (ofList l) p = .ok a → run (ofList l) (k a) ≠ .error .unmapped := by
  cases hp : run (ofList l) p with
  | error f =>
      rw [run_bind_error _ hp]
      constructor
      · exact fun h => ⟨fun hf => h (congrArg _ (Except.error.inj hf)), fun a ha => nomatch ha⟩
      · exact fun h hf => h.1 (congrArg _ (Except.error.inj hf))
  | ok a =>
      rw [run_bind_ok _ hp]
      constructor
      · intro h
        refine ⟨fun hf => (nomatch hf), fun b hb => ?_⟩
        rwa [← Except.ok.inj hb]
      · exact fun h => h.2 a rfl

/-- Enough cells make it return, fewer make it fault. -/
structure Reaches (p : ReadProg β α) (n : Nat) : Prop where
  returns : ∀ l : List β, n ≤ l.length → ∃ a, run (ofList l) p = .ok a
  faults : ∀ l : List β, l.length < n → run (ofList l) p = .error .unmapped

/-- The reach is what decides whether the program stays inside a list. -/
theorem Reaches.inside_iff {p : ReadProg β α} {n : Nat} (h : Reaches p n) (l : List β) :
    run (ofList l) p ≠ .error .unmapped ↔ n ≤ l.length := by
  constructor
  · intro hin
    by_contra hlt
    exact hin (h.faults l (Nat.lt_of_not_le hlt))
  · intro hle hfault
    obtain ⟨a, ha⟩ := h.returns l hle
    rw [ha] at hfault
    exact nomatch hfault

theorem Reaches.ret (a : α) : Reaches (.ret a : ReadProg β α) 0 :=
  ⟨fun _ _ => ⟨a, rfl⟩, fun _ h => absurd h (Nat.not_lt_zero _)⟩

theorem Reaches.cell (i : Nat) : Reaches (cell i : ReadProg β β) (i + 1) where
  returns l h := ⟨l[i], run_read _ (List.getElem?_eq_getElem h) _⟩
  faults l h := run_read_none _ (List.getElem?_eq_none (by omega)) _

/-- One program after the other reaches as far as the one that reaches farther. -/
theorem Reaches.bind {p : ReadProg β α} {k : α → ReadProg β γ} {n n' : Nat}
    (hp : Reaches p n) (hk : ∀ a, Reaches (k a) n') : Reaches (p.bind k) (max n n') := by
  constructor
  · intro l hl
    obtain ⟨a, ha⟩ := hp.returns l (by omega)
    obtain ⟨c, hc⟩ := (hk a).returns l (by omega)
    exact ⟨c, by rw [run_bind_ok _ ha, hc]⟩
  · intro l hl
    by_cases hshort : l.length < n
    · rw [run_bind_error _ (hp.faults l hshort)]
    · obtain ⟨a, ha⟩ := hp.returns l (by omega)
      rw [run_bind_ok _ ha, (hk a).faults l (by omega)]

theorem Reaches.ite {c : Prop} [Decidable c] {p q : ReadProg β α} {n n' : Nat}
    (hp : Reaches p n) (hq : Reaches q n') :
    Reaches (if c then p else q) (if c then n else n') := by
  by_cases h : c
  · rwa [if_pos h, if_pos h]
  · rwa [if_neg h, if_neg h]

/-- The end of a block; an empty one reads nothing. -/
def blockEnd (p : Nat × Nat) : Nat := if p.2 = 0 then 0 else p.1 + p.2

/-- The last end of a list of blocks. -/
def lastEnd (ps : List (Nat × Nat)) : Nat := ps.foldr (fun p n => max (blockEnd p) n) 0

theorem lastEnd_le_iff {ps : List (Nat × Nat)} {n : Nat} :
    lastEnd ps ≤ n ↔ ∀ p ∈ ps, blockEnd p ≤ n := by
  induction ps with
  | nil => exact iff_of_true (Nat.zero_le n) fun p hp => absurd hp List.not_mem_nil
  | cons p ps ih =>
      rw [List.forall_mem_cons, ← ih]
      exact Nat.max_le

theorem lastEnd_append (ps qs : List (Nat × Nat)) :
    lastEnd (ps ++ qs) = max (lastEnd ps) (lastEnd qs) := by
  induction ps with
  | nil => exact (Nat.zero_max _).symm
  | cons p ps ih =>
      show max (blockEnd p) (lastEnd (ps ++ qs)) = max (max (blockEnd p) (lastEnd ps)) _
      rw [ih, Nat.max_assoc]

theorem Reaches.block (i n : Nat) :
    Reaches (block i n : ReadProg β (List β)) (blockEnd (i, n)) where
  returns l h := by
    by_cases hn : n = 0
    · subst hn
      exact ⟨[], rfl⟩
    · rw [blockEnd, if_neg hn] at h
      exact ⟨_, run_block l n i h⟩
  faults l h := by
    by_cases hn : n = 0
    · rw [blockEnd, if_pos hn] at h
      exact absurd h (Nat.not_lt_zero _)
    · rw [blockEnd, if_neg hn] at h
      exact run_block_error l n i (Nat.pos_of_ne_zero hn) h

theorem Reaches.blocks (ps : List (Nat × Nat)) :
    Reaches (blocks ps : ReadProg β (List β)) (lastEnd ps) := by
  induction ps with
  | nil => exact Reaches.ret []
  | cons p ps ih =>
      refine (Reaches.block p.1 p.2).bind fun bs => ?_
      have h := ih.bind fun cs => Reaches.ret (bs ++ cs)
      rwa [Nat.max_zero] at h

end ReadProg
