import Mathlib.Data.List.DropRight
import Mathlib.Data.List.TakeWhile

/-! # Cutting lists

    Where a list is cut at the first member of a kind, and what is left of a
    list whose ends are trimmed. -/

namespace Cut

variable {α : Type*}

/-- A list holds `P` throughout, or has a first member without it. -/
theorem forall_or_first (P : α → Prop) (l : List α) :
    (∀ a ∈ l, P a) ∨ ∃ pre a post, l = pre ++ a :: post ∧ (∀ b ∈ pre, P b) ∧ ¬ P a := by
  induction l with
  | nil => exact Or.inl fun a ha => absurd ha List.not_mem_nil
  | cons a l ih =>
      by_cases ha : P a
      · rcases ih with hall | ⟨pre, b, post, rfl, hpre, hb⟩
        · exact Or.inl (List.forall_mem_cons.mpr ⟨ha, hall⟩)
        · exact Or.inr ⟨a :: pre, b, post, rfl, List.forall_mem_cons.mpr ⟨ha, hpre⟩, hb⟩
      · exact Or.inr ⟨[], a, l, rfl, fun b hb => absurd hb List.not_mem_nil, ha⟩

/-- A list holds `P` throughout, or has a last member without it. -/
theorem forall_or_last (P : α → Prop) (l : List α) :
    (∀ a ∈ l, P a) ∨ ∃ pre a post, l = pre ++ a :: post ∧ ¬ P a ∧ ∀ b ∈ post, P b := by
  rcases forall_or_first P l.reverse with hall | ⟨post, a, pre, hl, hpost, ha⟩
  · exact Or.inl fun a ha => hall a (List.mem_reverse.mpr ha)
  · refine Or.inr ⟨pre.reverse, a, post.reverse, ?_, ha, ?_⟩
    · rw [← List.reverse_reverse l, hl, List.reverse_append, List.reverse_cons,
        List.append_assoc]
      rfl
    · intro b hb
      exact hpost b (List.mem_reverse.mp hb)

variable {p : α → Bool} {a b : List α} {x : α}

/-- What comes before the first member without `p`. -/
theorem takeWhile_first (ha : ∀ y ∈ a, p y = true) (hx : ¬ p x = true) :
    (a ++ x :: b).takeWhile p = a := by
  rw [List.takeWhile_append_of_pos ha, List.takeWhile_cons_of_neg hx, List.append_nil]

/-- It and what comes behind it. -/
theorem dropWhile_first (ha : ∀ y ∈ a, p y = true) (hx : ¬ p x = true) :
    (a ++ x :: b).dropWhile p = x :: b := by
  rw [List.dropWhile_append_of_pos ha, List.dropWhile_cons_of_neg hx]

/-- A last member with `p` is taken with all before it, or not seen. -/
theorem takeWhile_snoc (l : List α) (hx : p x = true) :
    (l ++ [x]).takeWhile p = l.takeWhile p ∨
      (l ++ [x]).takeWhile p = l.takeWhile p ++ [x] := by
  rcases forall_or_first (fun y => p y = true) l with hall | ⟨pre, y, post, rfl, hpre, hy⟩
  · refine Or.inr ?_
    rw [List.takeWhile_append_of_pos hall, List.takeWhile_eq_self_iff.mpr hall,
      List.takeWhile_cons_of_pos hx, List.takeWhile_nil]
  · refine Or.inl ?_
    rw [List.append_assoc, List.cons_append, takeWhile_first hpre hy, takeWhile_first hpre hy]

/-- Trimming the end stops at a member without `p`. -/
theorem rdropWhile_append_neg (a b : List α) (hx : ¬ p x = true) :
    (a ++ x :: b).rdropWhile p = a ++ x :: b.rdropWhile p := by
  induction b using List.reverseRecOn with
  | nil => rw [List.rdropWhile_nil, List.rdropWhile_concat_neg _ _ _ hx]
  | append_singleton b y ih =>
      have hassoc : a ++ x :: (b ++ [y]) = (a ++ x :: b) ++ [y] := by
        rw [List.append_assoc, List.cons_append]
      by_cases hy : p y = true
      · rw [hassoc, List.rdropWhile_concat_pos _ _ _ hy, ih,
          List.rdropWhile_concat_pos _ _ _ hy]
      · rw [hassoc, List.rdropWhile_concat_neg _ _ _ hy,
          List.rdropWhile_concat_neg _ _ _ hy, ← hassoc]

/-- Trimming the end takes a tail of members with `p` as a whole. -/
theorem rdropWhile_append_pos (a : List α) (hb : ∀ y ∈ b, p y = true) :
    (a ++ b).rdropWhile p = a.rdropWhile p := by
  induction b using List.reverseRecOn with
  | nil => rw [List.append_nil]
  | append_singleton b y ih =>
      have hy : p y = true := hb y (List.mem_append_right b List.mem_cons_self)
      rw [← List.append_assoc, List.rdropWhile_concat_pos _ _ _ hy]
      exact ih fun z hz => hb z (List.mem_append_left _ hz)

/-- Which end is trimmed first does not matter. -/
theorem dropWhile_rdropWhile (p : α → Bool) (l : List α) :
    (l.rdropWhile p).dropWhile p = (l.dropWhile p).rdropWhile p := by
  rcases forall_or_first (fun y => p y = true) l with hall | ⟨a, x, b, rfl, ha, hx⟩
  · rw [List.rdropWhile_eq_nil_iff.mpr hall, List.dropWhile_eq_nil_iff.mpr hall,
      List.dropWhile_nil, List.rdropWhile_nil]
  · rw [rdropWhile_append_neg a b hx, dropWhile_first ha hx, dropWhile_first ha hx]
    exact (rdropWhile_append_neg [] b hx).symm

/-- `l` without the members with `p` at its ends. -/
def trim (p : α → Bool) (l : List α) : List α := (l.dropWhile p).rdropWhile p

theorem trim_eq_nil_iff {l : List α} : trim p l = [] ↔ ∀ y ∈ l, p y = true := by
  constructor
  · intro h
    rcases forall_or_first (fun y => p y = true) l with hall | ⟨a, x, b, rfl, ha, hx⟩
    · exact hall
    · rw [trim, dropWhile_first ha hx] at h
      exact absurd (h.symm.trans (rdropWhile_append_neg [] b hx)) (List.cons_ne_nil _ _).symm
  · intro h
    rw [trim, List.dropWhile_eq_nil_iff.mpr h, List.rdropWhile_nil]

theorem trim_append_pos (a : List α) (hb : ∀ y ∈ b, p y = true) :
    trim p (a ++ b) = trim p a := by
  rw [trim, ← dropWhile_rdropWhile, rdropWhile_append_pos a hb, dropWhile_rdropWhile, trim]

theorem length_trim_le (p : α → Bool) (l : List α) : (trim p l).length ≤ l.length :=
  Nat.le_trans (List.rdropWhile_prefix p _).length_le (List.dropWhile_suffix p).length_le

end Cut
