import Impd4e.RangeCopy
import Impd4e.RangeList
import Impd4e.Settings

/-! # What a byte-selection list means

    The parser turns an item of a list into a node of an offset and a length,
    the copy loop reads the nodes.  Between them the length 0 stands for "no
    byte" and for "to the end of the packet": an item that denotes no byte is
    copied to the end of the packet all the same. -/

namespace Impd4e.ByteSelection

open ReadProg Impd4e.CString Impd4e.RangeParser Impd4e.Hash Impd4e.PacketHandler
  Impd4e.Settings Impd4e.RangeList Impd4e.RangeCopy

variable {len size : Nat} {first item : Item} {rest items before after : List Item}

/-! ## Two readings of a list -/

/-- A list after `RAW` means what the help text says, on packets of `len` bytes
    and for a buffer of `size` bytes: the first bytes it denotes, as many as
    fit. -/
def MeansWhatHelpSays (first : Item) (rest : List Item) (len size : Nat) : Prop :=
  ∀ (packet : List UInt8) (options : Options) (buffer : Buffer) (headerOffset : HeaderOffset)
    (layers : Layers), packet.length = len → buffer.size = size →
    ∃ options' buffer',
      parseSelFunction (str "RAW" ++ listText first rest) options = some options' ∧
      run (ofList packet) (selectionFunction options'.selectionFunction options'.rSel len buffer
        headerOffset layers) = .ok buffer' ∧
      buffer'.contents =
        ((denoted len (first :: rest)).take size).map fun p => packet.getD p 0

/-- The positions of an item that is read as "to the end of the packet" where it
    denotes no byte. -/
def itemToTheEnd (len : Nat) (item : Item) : List Nat :=
  if item.length = 0 then List.range' item.start (len - item.start)
  else (List.range len).filter item.Denotes

def toTheEnd (len : Nat) (items : List Item) : List Nat :=
  items.flatMap (itemToTheEnd len)

/-- No item that denotes no byte starts inside the packet. -/
def NoneInside (len : Nat) (items : List Item) : Prop :=
  ∀ item ∈ items, item.length = 0 → len ≤ item.start

/-- In the places of a buffer of `size` bytes, which the copy loop takes modulo
    2^16, it makes no difference whether items that denote no byte are left out
    or read to the end of the packet. -/
structure ReadingsAgree (len size : Nat) (items : List Item) : Prop where
  room : size < 65536 ∨ (denoted len items).length ≤ u16 size
  agree : (toTheEnd len items).take (u16 size) = (denoted len items).take (u16 size)

/-! ## The positions of an item -/

/-- Filtering an interval out of the positions of a packet. -/
theorem filter_range (start length : Nat) :
    ∀ len, (List.range len).filter (fun p => decide (start ≤ p ∧ p < start + length))
      = List.range' start (min (len - start) length) := by
  intro len
  induction len with
  | zero => rw [Nat.zero_sub, Nat.zero_min]; rfl
  | succ len ih =>
      rw [List.range_succ, List.filter_append, ih]
      by_cases h : start ≤ len ∧ len < start + length
      · have hlast : [len].filter (fun p => decide (start ≤ p ∧ p < start + length)) = [len] :=
          List.filter_cons_of_pos (decide_eq_true h)
        have hgrow : min (len + 1 - start) length = min (len - start) length + 1 := by omega
        have hend : start + min (len - start) length = len := by omega
        rw [hlast, hgrow, List.range'_concat, Nat.one_mul, hend]
      · have hnone : [len].filter (fun p => decide (start ≤ p ∧ p < start + length)) = [] :=
          List.filter_cons_of_neg (by rw [decide_eq_true_iff]; exact h)
        have hsame : min (len + 1 - start) length = min (len - start) length := by omega
        rw [hnone, List.append_nil, hsame]

theorem denotes_below (item : Item) (len : Nat) :
    (List.range len).filter item.Denotes
      = List.range' item.start (min (len - item.start) item.length) := by
  rw [← filter_range]
  refine List.filter_congr ?_
  intro p _
  exact decide_eq_decide.mpr (item.denotes_iff p)

/-- The copy loop reads a list to the end of the packet. -/
theorem copied_nodes (len : Nat) (items : List Item) :
    copied len (items.map Item.node) = toTheEnd len items := by
  rw [copied, List.flatMap_map, toTheEnd]
  refine List.flatMap_congr ?_
  intro item _
  rw [itemToTheEnd, denotes_below, copiedNode]
  show List.range' item.start (if item.length = 0 then _ else _) = _
  by_cases h : item.length = 0
  · rw [if_pos h, if_pos h]
    rfl
  · rw [if_neg h, if_neg h]
    rfl

theorem denoted_lt : ∀ p ∈ denoted len items, p < len := by
  intro p hp
  obtain ⟨item, -, hp⟩ := List.mem_flatMap.mp hp
  exact List.mem_range.mp (List.mem_filter.mp hp).1

theorem toTheEnd_lt : ∀ p ∈ toTheEnd len items, p < len := by
  rw [← copied_nodes]
  exact copied_lt

/-! ## Packets tell positions apart -/

/-- The packet that is 1 at `q` and 0 elsewhere. -/
def mark (len q : Nat) : List UInt8 := (List.range len).map fun p => if p = q then 1 else 0

theorem mark_length (len q : Nat) : (mark len q).length = len := by
  rw [mark, List.length_map, List.length_range]

theorem mark_getD {len p : Nat} (q : Nat) (hp : p < len) :
    (mark len q).getD p 0 = if p = q then 1 else 0 := by
  rw [List.getD_eq_getElem?_getD, mark, List.getElem?_map, List.getElem?_range hp]
  rfl

/-- Lists of positions that pick the same bytes of every packet are equal. -/
theorem eq_of_bytes_eq : ∀ {l l' : List Nat}, (∀ p ∈ l, p < len) → (∀ p ∈ l', p < len) →
    (∀ packet : List UInt8, packet.length = len →
      l.map (fun p => packet.getD p 0) = l'.map fun p => packet.getD p 0) → l = l' := by
  intro l
  induction l with
  | nil =>
      intro l' _ _ h
      cases l' with
      | nil => rfl
      | cons q l' => exact nomatch h (mark len 0) (mark_length _ _)
  | cons p l ih =>
      intro l' hl hl' h
      cases l' with
      | nil => exact nomatch h (mark len 0) (mark_length _ _)
      | cons q l' =>
          have hp : p < len := hl p (List.mem_cons_self ..)
          have hq : q < len := hl' q (List.mem_cons_self ..)
          -- the packet marked at `p` has its mark at `q` too
          have hmark : (mark len p).getD p 0 = (mark len p).getD q 0 :=
            (List.cons.inj (h (mark len p) (mark_length _ _))).1
          rw [mark_getD p hp, mark_getD p hq, if_pos rfl] at hmark
          have heq : q = p := by
            by_contra hne
            rw [if_neg hne] at hmark
            exact absurd hmark (by decide)
          have htail := ih (fun r hr => hl r (List.mem_cons_of_mem _ hr))
            (fun r hr => hl' r (List.mem_cons_of_mem _ hr))
            (fun packet hlen => (List.cons.inj (h packet hlen)).2)
          rw [heq, htail]

/-! ## What the code does -/

/-- **THE CODE'S READING** — the option `-S RAW…` parses, and on every packet
    leaves the bytes of the list read to the end of the packet. -/
theorem selects_toTheEnd (first : Item) (rest : List Item) (packet : List UInt8)
    (hlen : packet.length ≤ 65535) (options : Options) (buffer : Buffer)
    (headerOffset : HeaderOffset) (layers : Layers) :
    ∃ options' buffer',
      parseSelFunction (str "RAW" ++ listText first rest) options = some options' ∧
      run (ofList packet) (selectionFunction options'.selectionFunction options'.rSel
        packet.length buffer headerOffset layers) = .ok buffer' ∧
      buffer'.contents =
        ((toTheEnd packet.length (first :: rest)).take (u16 buffer.size)).map fun p =>
          packet.getD p 0 := by
  have hparse : parseSelFunction (str "RAW" ++ listText first rest) options = some _ :=
    (parseSelFunction_raw _ options).trans (congrArg _ (parseRange_list first rest))
  have hrun := run_copyFieldsRaw packet hlen ((first :: rest).map Item.node) buffer
  refine ⟨_, _, hparse, hrun, ?_⟩
  rw [Buffer.append_contents, Buffer.reset_contents, List.nil_append, copied_nodes]

theorem selects_unique {packet : List UInt8} {options options₁ options₂ : Options}
    {argString : CStr} {buffer buffer₁ buffer₂ : Buffer} {headerOffset : HeaderOffset}
    {layers : Layers} (h₁ : parseSelFunction argString options = some options₁)
    (h₂ : parseSelFunction argString options = some options₂)
    (hrun₁ : run (ofList packet) (selectionFunction options₁.selectionFunction options₁.rSel len
      buffer headerOffset layers) = .ok buffer₁)
    (hrun₂ : run (ofList packet) (selectionFunction options₂.selectionFunction options₂.rSel len
      buffer headerOffset layers) = .ok buffer₂) : buffer₁ = buffer₂ := by
  obtain rfl := Option.some.inj (h₁.symm.trans h₂)
  exact Except.ok.inj (hrun₁.symm.trans hrun₂)

/-! ## Where the readings agree -/

theorem toTheEnd_of_noneInside (h : NoneInside len items) :
    toTheEnd len items = denoted len items := by
  refine List.flatMap_congr ?_
  intro item hitem
  rw [itemToTheEnd]
  by_cases hzero : item.length = 0
  · rw [if_pos hzero, denotes_below, Nat.sub_eq_zero_of_le (h item hitem hzero), Nat.zero_min]
  · rw [if_neg hzero]

/-- An item has at least the bytes it denotes. -/
theorem itemToTheEnd_length (item : Item) :
    ((List.range len).filter item.Denotes).length ≤ (itemToTheEnd len item).length := by
  rw [itemToTheEnd]
  by_cases hzero : item.length = 0
  · rw [denotes_below, hzero, Nat.min_zero]
    exact Nat.zero_le _
  · rw [if_neg hzero]

theorem denoted_length_le (len : Nat) (items : List Item) :
    (denoted len items).length ≤ (toTheEnd len items).length := by
  induction items with
  | nil => exact Nat.le_refl _
  | cons item items ih =>
      show ((List.range len).filter item.Denotes ++ denoted len items).length
        ≤ (itemToTheEnd len item ++ toTheEnd len items).length
      rw [List.length_append, List.length_append]
      exact Nat.add_le_add (itemToTheEnd_length item) ih

/-- An item that denotes no byte and starts inside the packet makes the list
    longer. -/
theorem denoted_length_lt (hitem : item ∈ items) (hzero : item.length = 0)
    (hstart : item.start < len) :
    (denoted len items).length < (toTheEnd len items).length := by
  obtain ⟨before, after, rfl⟩ := List.append_of_mem hitem
  have hbefore := denoted_length_le len before
  have hafter := denoted_length_le len after
  have hnone : (List.range len).filter item.Denotes = [] := by
    rw [denotes_below, hzero, Nat.min_zero]
    rfl
  have hend : itemToTheEnd len item = List.range' item.start (len - item.start) :=
    if_pos hzero
  rw [denoted, toTheEnd, List.flatMap_append, List.flatMap_append, List.flatMap_cons,
    List.flatMap_cons, hnone, hend]
  simp only [List.length_append, List.length_nil, List.length_range']
  show (denoted len before).length + (0 + (denoted len after).length)
    < (toTheEnd len before).length + (len - item.start + (toTheEnd len after).length)
  omega

/-- Where the denoted bytes leave room in the buffer the readings agree exactly
    if no item that denotes no byte starts inside the packet. -/
theorem readingsAgree_iff_noneInside (hroom : (denoted len items).length < u16 size) :
    ReadingsAgree len size items ↔ NoneInside len items := by
  constructor
  · rintro ⟨-, hagree⟩ item hitem hzero
    by_contra hstart
    have hlonger := denoted_length_lt hitem hzero (Nat.lt_of_not_le hstart)
    have hlength := congrArg List.length hagree
    rw [List.length_take, List.length_take] at hlength
    omega
  · intro hnone
    refine ⟨Or.inr (Nat.le_of_lt hroom), ?_⟩
    rw [toTheEnd_of_noneInside hnone]

/-- The code's reading fills the buffer as the help text says. -/
theorem take_eq_iff_readingsAgree :
    (toTheEnd len items).take (u16 size) = (denoted len items).take size
      ↔ ReadingsAgree len size items := by
  by_cases hsize : size < 65536
  · rw [u16_of_lt hsize]
    constructor
    · intro h
      exact ⟨Or.inl hsize, by rw [u16_of_lt hsize]; exact h⟩
    · rintro ⟨-, hagree⟩
      rwa [u16_of_lt hsize] at hagree
  · have hle : u16 size < size := by
      have := u16_lt size
      omega
    constructor
    · intro h
      -- the code writes at most `u16 size` bytes
      have hlength := congrArg List.length h
      rw [List.length_take, List.length_take] at hlength
      have hfew : (denoted len items).length ≤ u16 size := by omega
      refine ⟨Or.inr hfew, ?_⟩
      rw [h, List.take_of_length_le hfew, List.take_of_length_le (by omega)]
    · rintro ⟨hroom, hagree⟩
      have hfew := hroom.resolve_left hsize
      rw [hagree, List.take_of_length_le hfew, List.take_of_length_le (by omega)]

/-! ## The meaning of a list -/

/-- The default options, with any hash function. -/
def someOptions : Options := setDefaultsOptions fun _ => 0

/-- The hash buffer of a device set up for `size` bytes. -/
def someBuffer (size : Nat) : Buffer :=
  (setDefaultsDevice { someOptions with snapLength := size } zeroDevice).hashBuffer

/-- **WHEN A LIST MEANS WHAT THE HELP TEXT SAYS** — exactly when the two readings
    agree in the places of the buffer; and where the denoted bytes leave room in
    it, exactly when no item that denotes no byte starts inside the packet. -/
theorem meansWhatHelpSays_iff (first : Item) (rest : List Item) (size : Nat)
    (hlen : len ≤ 65535) :
    (MeansWhatHelpSays first rest len size ↔ ReadingsAgree len size (first :: rest)) ∧
      ((denoted len (first :: rest)).length < u16 size →
        (MeansWhatHelpSays first rest len size ↔ NoneInside len (first :: rest))) := by
  have hiff : MeansWhatHelpSays first rest len size ↔
      ReadingsAgree len size (first :: rest) := by
    rw [← take_eq_iff_readingsAgree]
    constructor
    · intro hmeans
      refine eq_of_bytes_eq (fun p hp => toTheEnd_lt p (List.mem_of_mem_take hp))
        (fun p hp => denoted_lt p (List.mem_of_mem_take hp)) ?_
      rintro packet rfl
      -- what the code leaves, and what it ought to leave, in one buffer
      obtain ⟨options₁, buffer₁, hparse₁, hrun₁, hcode⟩ :=
        selects_toTheEnd first rest packet hlen someOptions (someBuffer size) zeroOffsets zeroLayers
      obtain ⟨options₂, buffer₂, hparse₂, hrun₂, hhelp⟩ :=
        hmeans packet someOptions (someBuffer size) zeroOffsets zeroLayers rfl rfl
      rw [selects_unique hparse₁ hparse₂ hrun₁ hrun₂] at hcode
      exact hcode.symm.trans hhelp
    · rintro htake packet options buffer headerOffset layers rfl rfl
      obtain ⟨options', buffer', hparse, hrun, hcode⟩ :=
        selects_toTheEnd first rest packet hlen options buffer headerOffset layers
      exact ⟨options', buffer', hparse, hrun, by rw [hcode, htake]⟩
  exact ⟨hiff, fun hroom => hiff.trans (readingsAgree_iff_noneInside hroom)⟩

def numeral (d : Fin 10) : Numeral := ⟨[d], List.cons_ne_nil _ _, by
  show 0 * 10 + d.val < 2147483647
  omega⟩

/-- `RAW1-2` on four bytes. -/
theorem meansWhatHelpSays_range :
    MeansWhatHelpSays (.range (numeral 1) .including (numeral 2)) [] 4 80 := by
  refine ((meansWhatHelpSays_iff _ [] 80 (by decide)).2 (by decide)).mpr ?_
  intro item hitem hzero
  obtain rfl := List.mem_singleton.mp hitem
  exact absurd hzero (by decide)

/-- `RAW2<2` denotes no byte, and copies the last two of four. -/
theorem meansWhatHelpSays_fails :
    ¬ MeansWhatHelpSays (.range (numeral 2) .excludingRight (numeral 2)) [] 4 80 := by
  intro hmeans
  obtain ⟨options₁, buffer₁, hparse₁, hrun₁, hcode⟩ :=
    selects_toTheEnd (.range (numeral 2) .excludingRight (numeral 2)) [] [1, 2, 3, 4] (by decide)
      someOptions (someBuffer 80) zeroOffsets zeroLayers
  obtain ⟨options₂, buffer₂, hparse₂, hrun₂, hhelp⟩ :=
    hmeans [1, 2, 3, 4] someOptions (someBuffer 80) zeroOffsets zeroLayers rfl rfl
  rw [selects_unique hparse₁ hparse₂ hrun₁ hrun₂] at hcode
  exact absurd (hcode.symm.trans hhelp) (by decide)

end Impd4e.ByteSelection
