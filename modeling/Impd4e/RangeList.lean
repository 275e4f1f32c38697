import Impd4e.RangeParser

/-! # Lists of byte ranges

    The lists the help text of `-S` describes: how they are written, which byte
    positions every item denotes, and the chain `parseRange` makes of them. -/

namespace Impd4e.RangeList

open Impd4e.CString Impd4e.RangeParser

/-! ## Lists as they are written -/

/-- The value of decimal digits. -/
def digitsNat (digits : List (Fin 10)) : Nat :=
  digits.foldl (fun value d => value * 10 + d.val) 0

/-- A number as it is written, leading zeros included, below the largest `int`. -/
structure Numeral where
  digits : List (Fin 10)
  ne_nil : digits ≠ []
  value_lt : digitsNat digits < intMax

def Numeral.value (n : Numeral) : Nat := digitsNat n.digits

def digitChar (d : Fin 10) : UInt8 := UInt8.ofNat (48 + d.val)

def Numeral.text (n : Numeral) : CStr := n.digits.map digitChar

/-- The range modifiers. -/
inductive Modifier where
  /-- `-`: include the borders -/
  | including
  /-- `^`: exclude the borders -/
  | excluding
  /-- `<`: exclude the right border -/
  | excludingRight
  /-- `>`: exclude the left border -/
  | excludingLeft
  /-- `+`: offset and length -/
  | plus
  /-- `:`: offset and length -/
  | colon
  deriving DecidableEq, Repr

def Modifier.char : Modifier → UInt8
  | .including => ch '-'
  | .excluding => ch '^'
  | .excludingRight => ch '<'
  | .excludingLeft => ch '>'
  | .plus => ch '+'
  | .colon => ch ':'

/-- An item of a list. -/
inductive Item where
  | byte (n : Numeral)
  | range (n : Numeral) (modifier : Modifier) (m : Numeral)

def Item.text : Item → CStr
  | .byte n => n.text
  | .range n modifier m => n.text ++ modifier.char :: m.text

/-- A non-empty list of items, separated by commas. -/
def listText (first : Item) : List Item → CStr
  | [] => first.text
  | next :: rest => first.text ++ ch ',' :: listText next rest

/-! ## What the help text says -/

/-- The byte positions an item denotes. -/
def Item.Denotes : Item → Nat → Prop
  | .byte n, p => p = n.value
  | .range n .including m, p => n.value ≤ p ∧ p ≤ m.value
  | .range n .excluding m, p => n.value < p ∧ p < m.value
  | .range n .excludingRight m, p => n.value ≤ p ∧ p < m.value
  | .range n .excludingLeft m, p => n.value < p ∧ p ≤ m.value
  | .range n .plus k, p => n.value ≤ p ∧ p < n.value + k.value
  | .range n .colon k, p => n.value ≤ p ∧ p < n.value + k.value

instance (item : Item) : DecidablePred item.Denotes := fun p => by
  cases item with
  | byte n => exact inferInstanceAs (Decidable (p = n.value))
  | range n modifier m =>
      cases modifier <;> exact inferInstanceAs (Decidable (_ ∧ _))

/-- The positions below `len` a list denotes, in list order. -/
def denoted (len : Nat) (items : List Item) : List Nat :=
  items.flatMap fun item => (List.range len).filter item.Denotes

/-! ## Where an item starts and how many bytes it has -/

def Item.start : Item → Nat
  | .byte n => n.value
  | .range n .including _ => n.value
  | .range n .excluding _ => n.value + 1
  | .range n .excludingRight _ => n.value
  | .range n .excludingLeft _ => n.value + 1
  | .range n .plus _ => n.value
  | .range n .colon _ => n.value

def Item.length : Item → Nat
  | .byte _ => 1
  | .range n .including m => m.value + 1 - n.value
  | .range n .excluding m => m.value - (n.value + 1)
  | .range n .excludingRight m => m.value - n.value
  | .range n .excludingLeft m => m.value - n.value
  | .range _ .plus k => k.value
  | .range _ .colon k => k.value

/-- An item denotes `length` bytes from `start` on. -/
theorem Item.denotes_iff (item : Item) (p : Nat) :
    item.Denotes p ↔ item.start ≤ p ∧ p < item.start + item.length := by
  cases item with
  | byte n =>
      show p = n.value ↔ n.value ≤ p ∧ p < n.value + 1
      omega
  | range n modifier m =>
      cases modifier with
      | including =>
          show n.value ≤ p ∧ p ≤ m.value
            ↔ n.value ≤ p ∧ p < n.value + (m.value + 1 - n.value)
          omega
      | excluding =>
          show n.value < p ∧ p < m.value
            ↔ n.value + 1 ≤ p ∧ p < n.value + 1 + (m.value - (n.value + 1))
          omega
      | excludingRight =>
          show n.value ≤ p ∧ p < m.value
            ↔ n.value ≤ p ∧ p < n.value + (m.value - n.value)
          omega
      | excludingLeft =>
          show n.value < p ∧ p ≤ m.value
            ↔ n.value + 1 ≤ p ∧ p < n.value + 1 + (m.value - n.value)
          omega
      | plus => exact Iff.rfl
      | colon => exact Iff.rfl

/-! ## Reading numbers -/

theorem isdigit_digitChar (d : Fin 10) : isdigit (digitChar d) = true := by
  revert d
  decide

theorem isspace_digitChar (d : Fin 10) : isspace (digitChar d) = false := by
  revert d
  decide

theorem digitChar_value (d : Fin 10) : (digitChar d).toNat - 48 = d.val := by
  revert d
  decide

theorem digitChar_not_sign (d : Fin 10) : digitChar d ≠ ch '-' ∧ digitChar d ≠ ch '+' := by
  revert d
  decide

theorem digitChar_not_separator (d : Fin 10) :
    rangeSeparators.contains (digitChar d) = false := by
  revert d
  decide

theorem isdigit_separator {c : UInt8} (h : c ∈ rangeSeparators) : isdigit c = false := by
  have hall : rangeSeparators.all (fun c => !isdigit c) = true := rfl
  exact (Bool.not_eq_true' _).mp (List.all_eq_true.mp hall c h)

/-- What may stand behind a number: nothing, or a separator. -/
def Stops (rest : CStr) : Prop := ∀ c next, rest = c :: next → c ∈ rangeSeparators

theorem stops_nil : Stops [] := fun _ _ h => nomatch h

theorem stops_cons {c : UInt8} {next : CStr} (h : c ∈ rangeSeparators) : Stops (c :: next) := by
  intro c' next' heq
  obtain ⟨rfl, -⟩ := List.cons.inj heq
  exact h

variable {rest : CStr}

/-- A scan that passes digits and stops at separators takes the number. -/
theorem takeWhile_numeral {p : UInt8 → Bool} (digit : ∀ d, p (digitChar d) = true)
    (separator : ∀ c ∈ rangeSeparators, p c = false) (n : Numeral) (h : Stops rest) :
    (n.text ++ rest).takeWhile p = n.text := by
  have hdigits : ∀ c ∈ n.text, p c = true := by
    intro c hc
    obtain ⟨d, -, rfl⟩ := List.mem_map.mp hc
    exact digit d
  rw [List.takeWhile_append_of_pos hdigits]
  cases rest with
  | nil => exact List.append_nil _
  | cons c next =>
      have hstop : ¬ p c = true := by
        rw [separator c (h c next rfl)]
        exact Bool.false_ne_true
      rw [List.takeWhile_cons_of_neg hstop, List.append_nil]

theorem strcspn_numeral (n : Numeral) (h : Stops rest) :
    strcspn (n.text ++ rest) rangeSeparators = n.text.length := by
  refine congrArg List.length (takeWhile_numeral ?_ ?_ n h)
  · intro d
    rw [digitChar_not_separator]
    rfl
  · intro c hc
    rw [List.contains_iff_mem.mpr hc]
    rfl

theorem digitsValue_numeral (n : Numeral) (h : Stops rest) :
    digitsValue (n.text ++ rest) = n.value := by
  rw [digitsValue, takeWhile_numeral isdigit_digitChar (fun _ => isdigit_separator) n h,
    Numeral.text, List.foldl_map]
  show List.foldl _ _ _ = List.foldl _ _ _
  refine congrArg (fun f => List.foldl f 0 n.digits) ?_
  funext value d
  rw [digitChar_value]

/-- `atoi` reads a number up to the separator behind it. -/
theorem atoi_numeral (n : Numeral) (h : Stops rest) :
    (atoi (n.text ++ rest)).toNat = n.value := by
  have hlt : n.value < 2147483647 := n.value_lt
  obtain ⟨d, ds, hd⟩ := List.exists_cons_of_ne_nil n.ne_nil
  have htext : n.text ++ rest = digitChar d :: (ds.map digitChar ++ rest) := by
    rw [Numeral.text, hd]
    rfl
  -- a number starts with a digit: neither blanks nor a sign to skip
  have hspace : (n.text ++ rest).dropWhile isspace = n.text ++ rest := by
    rw [htext, List.dropWhile_cons_of_neg]
    rw [isspace_digitChar]
    exact Bool.false_ne_true
  have hvalue : strtol (n.text ++ rest) = (n.value : Int) := by
    rw [strtol, hspace, htext]
    dsimp only
    obtain ⟨hminus, hplus⟩ := digitChar_not_sign d
    rw [if_neg hminus, if_neg hplus, ← htext, digitsValue_numeral n h]
    omega
  -- below the largest `int` the conversion keeps the value
  rw [atoi, hvalue, Int.bmod_eq_of_le_mul_two (by omega) (by omega), Int.toNat_natCast]

/-! ## Parsing -/

/-- The node `parseRange` makes of an item. -/
def Item.node (item : Item) : RangeSelect := ⟨item.start, item.length⟩

variable {chain : List RangeSelect} {range range' : RangeSelect} {separator : UInt8}

/-- A piece without separators at the end of the argument closes the chain. -/
theorem parseRangeLoop_end {piece : CStr} (hpiece : strcspn piece rangeSeparators = piece.length)
    (h : applySeparator separator range (atoi piece).toNat piece.length = some range') :
    parseRangeLoop chain range separator piece = some (chain ++ [range']) := by
  rw [parseRangeLoop]
  simp only [hpiece, h]
  split
  · rfl
  · next c next hdrop =>
      rw [hpiece, List.drop_length] at hdrop
      cases hdrop

/-- A piece and a separator: a comma starts the next node, a modifier changes
    this one. -/
theorem parseRangeLoop_piece {piece : CStr} {c : UInt8} {next : CStr}
    (hpiece : strcspn (piece ++ c :: next) rangeSeparators = piece.length)
    (h : applySeparator separator range (atoi (piece ++ c :: next)).toNat piece.length
      = some range') :
    parseRangeLoop chain range separator (piece ++ c :: next) =
      if c = ch ',' then parseRangeLoop (chain ++ [range']) range' c next
      else parseRangeLoop chain range' c next := by
  rw [parseRangeLoop]
  simp only [hpiece, h]
  split
  · next hdrop =>
      rw [hpiece, List.drop_left] at hdrop
      cases hdrop
  · next c' next' hdrop =>
      rw [hpiece, List.drop_left] at hdrop
      obtain ⟨rfl, rfl⟩ := List.cons.inj hdrop
      rfl

/-- A number at the end of the argument closes the chain. -/
theorem parseRangeLoop_last (n : Numeral)
    (h : applySeparator separator range n.value n.text.length = some range') :
    parseRangeLoop chain range separator n.text = some (chain ++ [range']) := by
  have hspan := strcspn_numeral n stops_nil
  have hvalue := atoi_numeral n stops_nil
  rw [List.append_nil] at hspan hvalue
  refine parseRangeLoop_end hspan ?_
  rw [hvalue]
  exact h

/-- A number and a separator. -/
theorem parseRangeLoop_next (n : Numeral) {c : UInt8} {next : CStr}
    (hc : c ∈ rangeSeparators)
    (h : applySeparator separator range n.value n.text.length = some range') :
    parseRangeLoop chain range separator (n.text ++ c :: next) =
      if c = ch ',' then parseRangeLoop (chain ++ [range']) range' c next
      else parseRangeLoop chain range' c next := by
  refine parseRangeLoop_piece (strcspn_numeral n (stops_cons hc)) ?_
  rw [atoi_numeral n (stops_cons hc)]
  exact h

/-- The separators behind which a new node starts. -/
def Fresh (separator : UInt8) : Prop := separator = 0 ∨ separator = ch ','

theorem applySeparator_fresh (range : RangeSelect) (h : Fresh separator) (n : Numeral) :
    applySeparator separator range n.value n.text.length = some ⟨n.value, 1⟩ := by
  have hlen : n.text.length ≠ 0 := by
    rw [Numeral.text, List.length_map]
    exact fun hzero => n.ne_nil (List.length_eq_zero_iff.mp hzero)
  rcases h with rfl | rfl
  · show some (RangeSelect.mk n.value (if n.text.length = 0 then 0 else 1)) = _
    rw [if_neg hlen]
  · show some (RangeSelect.mk n.value (if n.text.length = 0 then 0 else 1)) = _
    rw [if_neg hlen]

/-- A modifier and the number behind it turn the node of the first number into
    the node of the item. -/
theorem applySeparator_modifier (n : Numeral) (modifier : Modifier) (m : Numeral) :
    applySeparator modifier.char ⟨n.value, 1⟩ m.value m.text.length
      = some (Item.range n modifier m).node := by
  have hn : n.value < 2147483647 := n.value_lt
  have hm : m.value < 2147483647 := m.value_lt
  -- the three that add to a number ask for it not to overflow
  cases modifier with
  | including => exact if_pos (show m.value + 1 - n.value ≤ 2147483647 by omega)
  | excluding => exact if_pos (show n.value + 1 ≤ 2147483647 by omega)
  | excludingRight => rfl
  | excludingLeft => exact if_pos (show n.value + 1 ≤ 2147483647 by omega)
  | plus => rfl
  | colon => rfl

theorem modifier_mem (modifier : Modifier) :
    modifier.char ∈ rangeSeparators ∧ modifier.char ≠ ch ',' := by
  cases modifier <;> decide

/-- The parser reads an item up to its end, and goes on at the comma. -/
theorem parseRangeLoop_item (hfresh : Fresh separator) (item : Item) :
    parseRangeLoop chain range separator item.text = some (chain ++ [item.node]) ∧
      ∀ next, parseRangeLoop chain range separator (item.text ++ ch ',' :: next) =
        parseRangeLoop (chain ++ [item.node]) item.node (ch ',') next := by
  have hcomma : ch ',' ∈ rangeSeparators := by decide
  cases item with
  | byte n =>
      have happly := applySeparator_fresh range hfresh n
      constructor
      · exact parseRangeLoop_last n happly
      · intro next
        exact parseRangeLoop_next n hcomma happly
  | range n modifier m =>
      have happly := applySeparator_fresh range hfresh n
      have hmodify := applySeparator_modifier n modifier m
      obtain ⟨hmem, hne⟩ := modifier_mem modifier
      constructor
      · show parseRangeLoop _ _ _ (n.text ++ modifier.char :: m.text) = _
        rw [parseRangeLoop_next n hmem happly, if_neg hne]
        exact parseRangeLoop_last m hmodify
      · intro next
        show parseRangeLoop _ _ _ ((n.text ++ modifier.char :: m.text) ++ _) = _
        rw [List.append_assoc, List.cons_append, parseRangeLoop_next n hmem happly, if_neg hne]
        exact parseRangeLoop_next m hcomma hmodify

theorem parseRangeLoop_list (rest : List Item) :
    ∀ (first : Item) (chain : List RangeSelect) (range : RangeSelect) (separator : UInt8),
      Fresh separator →
      parseRangeLoop chain range separator (listText first rest)
        = some (chain ++ (first :: rest).map Item.node) := by
  induction rest with
  | nil =>
      intro first chain range separator hfresh
      exact (parseRangeLoop_item hfresh first).1
  | cons next rest ih =>
      -- the comma behind the first item makes the next one start fresh
      intro first chain range separator hfresh
      show parseRangeLoop _ _ _ (first.text ++ ch ',' :: listText next rest) = _
      rw [(parseRangeLoop_item hfresh first).2, ih next _ _ _ (Or.inr rfl), List.append_assoc]
      rfl

/-- **THE CHAIN** — `parseRange` makes one node of every item, in order. -/
theorem parseRange_list (first : Item) (rest : List Item) :
    parseRange (listText first rest) = some ((first :: rest).map Item.node) :=
  parseRangeLoop_list rest first [] ⟨0, 0⟩ 0 (Or.inl rfl)

end Impd4e.RangeList
