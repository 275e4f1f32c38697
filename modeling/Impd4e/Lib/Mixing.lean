import Mathlib.Data.FinEnum
import Mathlib.Order.Interval.Finset.Nat
import Mathlib.Data.Set.Card
import Mathlib.Tactic.Common

/-! # Reversible mixing of machine words

    Hash functions are built from steps that lose nothing: a word is xored with a
    shifted copy of itself, has a shifted copy added, or has other words
    subtracted.  Every such step is injective, so a fold of them over a message
    is injective in the state it starts from and, where a block goes in
    injectively, in every single block.  An injective map of a finite type is a
    bijection, and from that follows how many blocks a set of hash values has. -/

namespace Mixing

open Function

variable {w : Nat}

/-! ## Steps on one word -/

section Bits

variable {f : BitVec w → BitVec w} {k : Nat}

/-- Bit `i` of `f x` is read off the bits of `x` above `i`. -/
def FromAbove (f : BitVec w → BitVec w) : Prop :=
  ∀ x y i, (∀ j, i < j → x.getLsbD j = y.getLsbD j) → (f x).getLsbD i = (f y).getLsbD i

/-- Bit `i` of `f x` is read off the bits of `x` below `i`. -/
def FromBelow (f : BitVec w → BitVec w) : Prop :=
  ∀ x y i, (∀ j, j < i → x.getLsbD j = y.getLsbD j) → (f x).getLsbD i = (f y).getLsbD i

theorem fromAbove_ushiftRight (hk : 0 < k) : FromAbove (fun x : BitVec w => x >>> k) := by
  intro x y i h
  simp only [BitVec.getLsbD_ushiftRight]
  exact h (k + i) (by omega)

theorem fromAbove_and_ushiftRight (m : BitVec w) (hk : 0 < k) :
    FromAbove (fun x : BitVec w => (x &&& m) >>> k) := by
  intro x y i h
  simp only [BitVec.getLsbD_ushiftRight, BitVec.getLsbD_and]
  rw [h (k + i) (by omega)]

theorem fromBelow_shiftLeft (hk : 0 < k) : FromBelow (fun x : BitVec w => x <<< k) := by
  intro x y i h
  simp only [BitVec.getLsbD_shiftLeft]
  by_cases hik : i < k
  · simp [hik]
  · rw [h (i - k) (by omega)]

theorem FromBelow.not (h : FromBelow f) : FromBelow (fun x => ~~~(f x)) := by
  intro x y i hxy
  simp only [BitVec.getLsbD_not]
  rw [h x y i hxy]

/-- Xoring a word with what its higher bits give: the bits come back from the
    top down. -/
theorem FromAbove.xor_injective (h : FromAbove f) : Injective (fun x => x ^^^ f x) := by
  intro x y hxy
  have hbits : ∀ d i, w - i = d → x.getLsbD i = y.getLsbD i := by
    intro d
    induction d using Nat.strong_induction_on with
    | _ d ih =>
        intro i hd
        by_cases hi : i < w
        · have hf : (f x).getLsbD i = (f y).getLsbD i :=
            h x y i fun j hj => ih (w - j) (by omega) j rfl
          have hx : (x ^^^ f x).getLsbD i = (y ^^^ f y).getLsbD i :=
            congrArg (fun v => v.getLsbD i) hxy
          rw [BitVec.getLsbD_xor, BitVec.getLsbD_xor, hf] at hx
          exact Bool.xor_left_inj.mp hx
        · rw [BitVec.getLsbD_of_ge x i (by omega), BitVec.getLsbD_of_ge y i (by omega)]
  exact BitVec.eq_of_getLsbD_eq fun i _ => hbits (w - i) i rfl

/-- Xoring a word with what its lower bits give: the bits come back from the
    bottom up. -/
theorem FromBelow.xor_injective (h : FromBelow f) : Injective (fun x => x ^^^ f x) := by
  intro x y hxy
  have hbits : ∀ i, x.getLsbD i = y.getLsbD i := by
    intro i
    induction i using Nat.strong_induction_on with
    | _ i ih =>
        have hf : (f x).getLsbD i = (f y).getLsbD i := h x y i ih
        have hx : (x ^^^ f x).getLsbD i = (y ^^^ f y).getLsbD i :=
          congrArg (fun v => v.getLsbD i) hxy
        rw [BitVec.getLsbD_xor, BitVec.getLsbD_xor, hf] at hx
        exact Bool.xor_left_inj.mp hx
  exact BitVec.eq_of_getLsbD_eq fun i _ => hbits i

/-- The same for addition: the carry into a bit comes from below, too. -/
theorem FromBelow.add_injective (h : FromBelow f) : Injective (fun x => x + f x) := by
  intro x y hxy
  have hlow : ∀ n, n ≤ w → x.setWidth n = y.setWidth n := by
    intro n
    induction n with
    | zero => intro _; exact Subsingleton.elim _ _
    | succ n ih =>
        intro hn
        have hxy' : ∀ j, j < n → x.getLsbD j = y.getLsbD j := by
          intro j hj
          have := congrArg (fun v => v.getLsbD j) (ih (by omega))
          simpa [hj] using this
        -- the sums agree everywhere, the added parts up to bit `n`
        have hf : (f x).setWidth (n + 1) = (f y).setWidth (n + 1) := by
          apply BitVec.eq_of_getLsbD_eq
          intro i hi
          have := h x y i fun j hj => hxy' j (by omega)
          simpa [hi] using this
        have hsum : (x + f x).setWidth (n + 1) = (y + f y).setWidth (n + 1) :=
          congrArg (BitVec.setWidth (n + 1)) hxy
        rw [BitVec.setWidth_add x _ hn, BitVec.setWidth_add y _ hn, hf] at hsum
        exact (BitVec.add_left_inj _).mp hsum
  have := hlow w le_rfl
  rwa [BitVec.setWidth_eq, BitVec.setWidth_eq] at this

/-- One line of a mixing step over several words: the others are subtracted,
    then something made of them is xored in. -/
theorem sub_xor_injective (p q r : BitVec w) : Injective (fun x => (x - p - q) ^^^ r) := by
  intro x y hxy
  have h : x - p - q = y - p - q := by
    have := congrArg (fun v => v ^^^ r) (show (x - p - q) ^^^ r = (y - p - q) ^^^ r from hxy)
    simpa [BitVec.xor_assoc] using this
  have h' : x - p = y - p := by
    have := congrArg (fun v => v + q) h
    simpa [BitVec.sub_add_cancel] using this
  have := congrArg (fun v => v + p) h'
  simpa [BitVec.sub_add_cancel] using this

end Bits

/-! ## Folds over a message -/

section Folds

variable {σ β : Type*} {step : σ → β → σ}

/-- Steps that lose nothing of the state add up to one. -/
theorem foldl_injective (h : ∀ b, Injective fun s => step s b) (l : List β) :
    Injective fun s => l.foldl step s := by
  induction l with
  | nil => exact fun _ _ hs => hs
  | cons b l ih => exact fun s t hst => h b (ih hst)

/-- Where a block goes into the state injectively, two messages that differ in
    that block alone leave different states. -/
theorem foldl_block_injective (h : ∀ b, Injective fun s => step s b)
    (hb : ∀ s, Injective (step s)) (pre suf : List β) (s : σ) :
    Injective fun b => (pre ++ b :: suf).foldl step s := by
  intro b c hbc
  simp only [List.foldl_append, List.foldl_cons] at hbc
  exact hb _ (foldl_injective h suf hbc)

end Folds

/-! ## Counting -/

section Counting

variable {α β γ : Type*}

/-- A bijection has as many arguments for a set of values as the set has
    values. -/
theorem ncard_preimage {f : α → β} (hf : Bijective f) (t : Set β) :
    (Set.preimage f t).ncard = t.ncard :=
  Set.ncard_preimage_of_injective_subset_range hf.1 fun b _ => hf.2 b

theorem card_bitVec : Fintype.card (BitVec w) = 2 ^ w := by
  rw [← FinEnum.card_eq_fintypeCard, FinEnum.card_bitVec]

/-- The words of an interval. -/
theorem ncard_between (lo hi : BitVec w) :
    {x : BitVec w | lo ≤ x ∧ x ≤ hi}.ncard = hi.toNat + 1 - lo.toNat := by
  have himage : {x : BitVec w | lo ≤ x ∧ x ≤ hi}.image BitVec.toNat
      = (Finset.Icc lo.toNat hi.toNat : Set ℕ) := by
    ext n
    simp only [Set.mem_image, Set.mem_ofPred_eq, Finset.coe_Icc, Set.mem_Icc, BitVec.le_def]
    constructor
    · rintro ⟨x, hx, rfl⟩
      exact hx
    · intro hn
      have hlt : n < 2 ^ w := lt_of_le_of_lt hn.2 hi.isLt
      refine ⟨BitVec.ofNat w n, ?_, ?_⟩
      · rwa [BitVec.toNat_ofNat, Nat.mod_eq_of_lt hlt]
      · rw [BitVec.toNat_ofNat, Nat.mod_eq_of_lt hlt]
  rw [← Set.ncard_image_of_injective _ fun _ _ => BitVec.eq_of_toNat_eq, himage,
    Set.ncard_coe_finset, Nat.card_Icc]

/-- The words of a set, with anything beside them. -/
theorem ncard_snd_mem [Fintype α] (t : Set β) :
    {x : α × β | x.2 ∈ t}.ncard = Fintype.card α * t.ncard := by
  have h : {x : α × β | x.2 ∈ t} = Set.univ ×ˢ t := by
    ext x
    simp
  rw [h, Set.ncard_prod, Set.ncard_univ, Nat.card_eq_fintype_card]

end Counting

end Mixing
