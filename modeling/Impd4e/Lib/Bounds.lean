import Mathlib.Order.Interval.Basic
import Mathlib.Order.Interval.Finset.Nat

/-! # Intervals whose ends are moved

    An interval of a linear order whose ends are set one at a time: the end that
    is set gets its value, and the other one gives way when the two would cross.
    Setting both, in either order, forgets the interval there was before.

    A window is the interval of a given width below a top: it stands at a base
    where there is room for it, and against the top where there is not. -/

namespace Bounds

section Ends

variable {α : Type} [LinearOrder α]

/-- Set the lower end; the upper end gives way. -/
def setLower (a : α) (r : NonemptyInterval α) : NonemptyInterval α :=
  ⟨(a, max a r.snd), le_max_left _ _⟩

/-- Set the upper end; the lower end gives way. -/
def setUpper (b : α) (r : NonemptyInterval α) : NonemptyInterval α :=
  ⟨(min r.fst b, b), min_le_right _ _⟩

theorem setUpper_setLower {a b : α} (h : a ≤ b) (r : NonemptyInterval α) :
    setUpper b (setLower a r) = ⟨(a, b), h⟩ :=
  NonemptyInterval.ext (Prod.ext (min_eq_left h) rfl)

theorem setLower_setUpper {a b : α} (h : a ≤ b) (r : NonemptyInterval α) :
    setLower a (setUpper b r) = ⟨(a, b), h⟩ :=
  NonemptyInterval.ext (Prod.ext rfl (max_eq_right h))

end Ends

section Windows

variable {base top w w' : ℕ}

/-- The window of `w + 1` numbers. -/
def window (base top w : ℕ) : NonemptyInterval ℕ :=
  if base < top - w then ⟨(base, w + base), Nat.le_add_left _ _⟩
  else ⟨(top - w, top), Nat.sub_le _ _⟩

theorem window_base (hroom : base < top - w) :
    window base top w = ⟨(base, w + base), Nat.le_add_left _ _⟩ :=
  if_pos hroom

theorem window_top (hroom : ¬ base < top - w) :
    window base top w = ⟨(top - w, top), Nat.sub_le _ _⟩ :=
  if_neg hroom

/-- A window has its width wherever it stands. -/
theorem window_card (h : w ≤ top) :
    (Finset.Icc (window base top w).fst (window base top w).snd).card = w + 1 := by
  rw [Nat.card_Icc]
  by_cases hroom : base < top - w
  · rw [window_base hroom]
    show w + base + 1 - base = w + 1
    omega
  · rw [window_top hroom]
    show top + 1 - (top - w) = w + 1
    omega

/-- **MONOTONE WINDOWS** — a wider window holds a narrower one, also when the
    base has room for only one of them. -/
theorem window_mono (hle : w ≤ w') : window base top w ≤ window base top w' := by
  rw [NonemptyInterval.le_def]
  by_cases hroom : base < top - w
  · rw [window_base hroom]
    by_cases hroom' : base < top - w'
    · rw [window_base hroom']
      exact ⟨Nat.le_refl _, Nat.add_le_add_right hle _⟩
    -- the wider one has left the base, downwards
    · rw [window_top hroom']
      refine ⟨Nat.le_of_not_lt hroom', ?_⟩
      show w + base ≤ top
      omega
  · have hroom' : ¬ base < top - w' := by omega
    rw [window_top hroom, window_top hroom']
    exact ⟨Nat.sub_le_sub_left hle _, Nat.le_refl _⟩

end Windows

end Bounds
