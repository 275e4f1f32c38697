import Mathlib.Logic.Function.Basic
import Mathlib.Tactic.TypeStar

/-! # Clearing memory downwards

    A `do … while` loop that clears a cell, steps to the cell below it and goes
    on as long as what it finds there asks for it.  Only the cells bound it. -/

namespace DownScan

variable {α : Type*}

/-- How far the loop came: the memory, the cells written or read in their
    order, and whether the loop has ended. -/
structure Run (α : Type*) where
  mem : Int → α
  touched : List Int
  ended : Bool

/-- The loop from the cell `i`, for at most `fuel` rounds. -/
def run (again : α → Bool) (z : α) : Nat → (Int → α) → Int → Run α
  | 0, m, _ => ⟨m, [], false⟩
  | fuel + 1, m, i =>
      let cut := Function.update m i z
      if again (cut (i - 1)) then
        let rest := run again z fuel cut (i - 1)
        { rest with touched := i :: (i - 1) :: rest.touched }
      else ⟨cut, [i, i - 1], true⟩

variable {again : α → Bool} {z : α} {m : Int → α} {i j k : Int}

/-- Clearing a cell leaves those below it. -/
theorem update_below (h : j < i) : Function.update m i z j = m j :=
  Function.update_of_ne (Int.ne_of_lt h) z m

theorem run_again (fuel : Nat) (h : again (m (i - 1)) = true) :
    run again z (fuel + 1) m i =
      ⟨(run again z fuel (Function.update m i z) (i - 1)).mem,
        i :: (i - 1) :: (run again z fuel (Function.update m i z) (i - 1)).touched,
        (run again z fuel (Function.update m i z) (i - 1)).ended⟩ := by
  rw [run, update_below (by omega), if_pos h]

theorem run_stop (fuel : Nat) (h : again (m (i - 1)) = false) :
    run again z (fuel + 1) m i = ⟨Function.update m i z, [i, i - 1], true⟩ := by
  rw [run, update_below (by omega), if_neg (by rw [h]; exact Bool.false_ne_true)]

/-! ## A cell that stops the loop -/

/-- From `i` downwards, `k` is the first cell that does not ask to go on. -/
structure Stop (again : α → Bool) (m : Int → α) (k i : Int) : Prop where
  below : k < i
  stays : again (m k) = false
  passes : ∀ j, k < j → j < i → again (m j) = true

/-- The cell right below, or the loop goes on towards it. -/
theorem Stop.step (h : Stop again m k i) (z : α) :
    k = i - 1 ∨
      again (m (i - 1)) = true ∧ Stop again (Function.update m i z) k (i - 1) := by
  obtain ⟨hbelow, hstays, hpasses⟩ := h
  by_cases hk : k = i - 1
  · exact Or.inl hk
  · refine Or.inr ⟨hpasses (i - 1) (by omega) (by omega), ⟨by omega, ?_, ?_⟩⟩
    · rw [update_below hbelow]
      exact hstays
    · intro j hj hji
      rw [update_below (by omega)]
      exact hpasses j hj (by omega)

/-- The loop ends there. -/
theorem Stop.ends (h : Stop again m k i) {fuel : Nat} (hfuel : i - k ≤ fuel) :
    (run again z fuel m i).ended = true := by
  induction fuel generalizing m i with
  | zero =>
      have := h.below
      omega
  | succ fuel ih =>
      rcases h.step z with rfl | ⟨hagain, hrest⟩
      · rw [run_stop fuel h.stays]
      · rw [run_again fuel hagain]
        exact ih hrest (by omega)

/-- And nothing below it is touched, however long the loop runs. -/
theorem Stop.touched (h : Stop again m k i) (fuel : Nat) :
    ∀ j ∈ (run again z fuel m i).touched, k ≤ j ∧ j ≤ i := by
  induction fuel generalizing m i with
  | zero =>
      intro j hj
      exact absurd hj List.not_mem_nil
  | succ fuel ih =>
      have hbelow := h.below
      intro j hj
      rcases h.step z with rfl | ⟨hagain, hrest⟩
      · rw [run_stop fuel h.stays] at hj
        rcases List.mem_cons.mp hj with rfl | hj
        · omega
        · obtain rfl := List.mem_singleton.mp hj
          omega
      · rw [run_again fuel hagain] at hj
        rcases List.mem_cons.mp hj with rfl | hj
        · omega
        · rcases List.mem_cons.mp hj with rfl | hj
          · omega
          · have := ih hrest j hj
            omega

/-- The memory with the cells above `lo`, up to `hi`, cleared. -/
def cleared (z : α) (m : Int → α) (lo hi : Int) : Int → α :=
  fun j => if lo < j ∧ j ≤ hi then z else m j

/-- What the loop leaves when it has ended. -/
theorem Stop.mem_eq (h : Stop again m k i) {fuel : Nat}
    (hended : (run again z fuel m i).ended = true) :
    (run again z fuel m i).mem = cleared z m k i := by
  induction fuel generalizing m i with
  | zero => cases hended
  | succ fuel ih =>
      rcases h.step z with rfl | ⟨hagain, hrest⟩
      · rw [run_stop fuel h.stays]
        funext j
        show Function.update m i z j = cleared z m (i - 1) i j
        by_cases hj : j = i
        · rw [hj, Function.update_self, cleared, if_pos (by omega)]
        · rw [cleared, if_neg (by omega), Function.update_of_ne hj]
      · rw [run_again fuel hagain] at hended ⊢
        refine (ih hrest hended).trans ?_
        have hbelow := hrest.below
        funext j
        by_cases hj : j = i
        · rw [hj, cleared, if_neg (by omega), Function.update_self, cleared,
            if_pos (by omega)]
        · by_cases hin : k < j ∧ j ≤ i
          · rw [cleared, if_pos (by omega), cleared, if_pos hin]
          · rw [cleared, if_neg (by omega), Function.update_of_ne hj, cleared, if_neg hin]

/-! ## No such cell -/

/-- Where every cell down to `k` asks to go on, the cell below `k` is read. -/
theorem run_passes (hpasses : ∀ j, k ≤ j → j < i → again (m j) = true) (hki : k ≤ i)
    {fuel : Nat} (hfuel : i - k < fuel) : k - 1 ∈ (run again z fuel m i).touched := by
  induction fuel generalizing m i with
  | zero => omega
  | succ fuel ih =>
      by_cases hk : k = i
      · subst hk
        cases h : again (m (k - 1)) with
        | true =>
            rw [run_again fuel h]
            exact List.mem_cons_of_mem _ List.mem_cons_self
        | false =>
            rw [run_stop fuel h]
            exact List.mem_cons_of_mem _ List.mem_cons_self
      · rw [run_again fuel (hpasses (i - 1) (by omega) (by omega))]
        refine List.mem_cons_of_mem _ (List.mem_cons_of_mem _ (ih ?_ (by omega) (by omega)))
        intro j hj hji
        rw [update_below (by omega)]
        exact hpasses j hj (by omega)

end DownScan
