import Impd4e.HashFunctions
import Impd4e.Lib.Mixing
import Impd4e.Settings

/-! # What share of the traffic a selection range takes

    A hash function is a fold over the blocks of its input, and neither the
    mixing step of `bobhash` nor that of `TWMXHash` loses anything.  So whatever
    stands around it, a full block meets every hash value equally often, and the
    number of blocks a selection range selects is its width times the number of
    blocks to a hash value: exactly, not on the average. -/

namespace Impd4e.HashSampling

open Function Impd4e.HashFunctions Impd4e.PacketHandler Impd4e.Settings

/-! ## Words of four bytes -/

theorem ub4_toNat (k : UInt8) : (ub4 k).toNat = k.toNat := by
  rw [ub4, BitVec.toNat_setWidth]
  exact Nat.mod_eq_of_lt (Nat.lt_of_lt_of_le k.toNat_lt (by decide))

theorem ub4_injective : Injective ub4 := by
  intro k l h
  have hn := congrArg BitVec.toNat h
  rw [ub4_toNat, ub4_toNat] at hn
  exact UInt8.toNat_inj.mp hn

theorem ub4_shiftLeft_toNat (k : UInt8) {n : Nat} (hn : n ≤ 24) :
    (ub4 k <<< n).toNat = k.toNat * 2 ^ n := by
  rw [BitVec.toNat_shiftLeft, ub4_toNat, Nat.shiftLeft_eq]
  refine Nat.mod_eq_of_lt ?_
  calc k.toNat * 2 ^ n ≤ k.toNat * 2 ^ 24 :=
        Nat.mul_le_mul_left _ (Nat.pow_le_pow_right (by decide) hn)
    _ < 2 ^ 8 * 2 ^ 24 := Nat.mul_lt_mul_of_pos_right k.toNat_lt (by decide)
    _ = 2 ^ 32 := by decide

/-- The number four bytes make. -/
theorem word_toNat (k0 k1 k2 k3 : UInt8) :
    (word k0 k1 k2 k3).toNat
      = k0.toNat + k1.toNat * 256 + k2.toNat * 65536 + k3.toNat * 16777216 := by
  have h0 := k0.toNat_lt
  have h1 := k1.toNat_lt
  have h2 := k2.toNat_lt
  have h3 := k3.toNat_lt
  rw [word]
  simp only [BitVec.toNat_add, ub4_toNat, ub4_shiftLeft_toNat _ (show 8 ≤ 24 by decide),
    ub4_shiftLeft_toNat _ (show 16 ≤ 24 by decide), ub4_shiftLeft_toNat _ (le_refl 24)]
  omega

/-- The bytes of a word, lowest first. -/
def bytes (x : Ub4) : List UInt8 :=
  [UInt8.ofNat x.toNat, UInt8.ofNat (x.toNat / 256), UInt8.ofNat (x.toNat / 65536),
    UInt8.ofNat (x.toNat / 16777216)]

/-- The word of a list of four bytes. -/
def ofBytes : List UInt8 → Ub4
  | [k0, k1, k2, k3] => word k0 k1 k2 k3
  | _ => 0

/-- A byte that is stored and read again. -/
theorem toNat_byte (n : Nat) : (UInt8.ofNat n).toNat = n % 256 := UInt8.toNat_ofNat'

theorem byte_eq {n : Nat} {k : UInt8} (h : n % 256 = k.toNat) : UInt8.ofNat n = k :=
  UInt8.toNat_inj.mp (by rwa [toNat_byte])

theorem ofBytes_bytes (x : Ub4) : ofBytes (bytes x) = x := by
  apply BitVec.eq_of_toNat_eq
  have hx : x.toNat < 4294967296 := x.isLt
  generalize hn : x.toNat = n at hx
  rw [bytes, ofBytes, word_toNat, toNat_byte, toNat_byte, toNat_byte, toNat_byte, hn]
  omega

theorem bytes_word (k0 k1 k2 k3 : UInt8) : bytes (word k0 k1 k2 k3) = [k0, k1, k2, k3] := by
  have h0 : k0.toNat < 256 := k0.toNat_lt
  have h1 : k1.toNat < 256 := k1.toNat_lt
  have h2 : k2.toNat < 256 := k2.toNat_lt
  have h3 : k3.toNat < 256 := k3.toNat_lt
  rw [bytes, word_toNat, byte_eq (k := k0) (by omega), byte_eq (k := k1) (by omega),
    byte_eq (k := k2) (by omega), byte_eq (k := k3) (by omega)]

theorem bytes_injective : Injective bytes := fun x y h => by
  rw [← ofBytes_bytes x, h, ofBytes_bytes]

/-- Every list of four bytes is the bytes of a word. -/
theorem exists_bytes {l : List UInt8} (h : l.length = 4) : ∃ x, bytes x = l := by
  match l, h with
  | [k0, k1, k2, k3], _ => exact ⟨word k0 k1 k2 k3, bytes_word k0 k1 k2 k3⟩

/-! ## `bobhash` loses nothing of a block -/

/-- A line of the macro that ends in `a ^= (c>>k)`. -/
def lineA (k : Nat) (s : Registers) : Registers := ⟨(s.a - s.b - s.c) ^^^ (s.c >>> k), s.b, s.c⟩

/-- A line that ends in `b ^= (a<<k)`. -/
def lineB (k : Nat) (s : Registers) : Registers := ⟨s.a, (s.b - s.c - s.a) ^^^ (s.a <<< k), s.c⟩

/-- A line that ends in `c ^= (b>>k)`. -/
def lineC (k : Nat) (s : Registers) : Registers := ⟨s.a, s.b, (s.c - s.a - s.b) ^^^ (s.b >>> k)⟩

theorem mix_eq (s : Registers) :
    mix s = lineC 15 (lineB 10 (lineA 3 (lineC 5 (lineB 16 (lineA 12
      (lineC 13 (lineB 8 (lineA 13 s)))))))) := rfl

theorem lineA_injective (k : Nat) : Injective (lineA k) := by
  rintro ⟨a, b, c⟩ ⟨a', b', c'⟩ h
  simp only [lineA, Registers.mk.injEq] at h
  obtain ⟨ha, rfl, rfl⟩ := h
  rw [Mixing.sub_xor_injective b c _ ha]

theorem lineB_injective (k : Nat) : Injective (lineB k) := by
  rintro ⟨a, b, c⟩ ⟨a', b', c'⟩ h
  simp only [lineB, Registers.mk.injEq] at h
  obtain ⟨rfl, hb, rfl⟩ := h
  rw [Mixing.sub_xor_injective c a _ hb]

theorem lineC_injective (k : Nat) : Injective (lineC k) := by
  rintro ⟨a, b, c⟩ ⟨a', b', c'⟩ h
  simp only [lineC, Registers.mk.injEq] at h
  obtain ⟨rfl, rfl, hc⟩ := h
  rw [Mixing.sub_xor_injective a b _ hc]

/-- `mix` is reversible, as its comment says. -/
theorem mix_injective : Injective mix := by
  intro s t h
  rw [mix_eq, mix_eq] at h
  have h3 := lineA_injective 3 (lineB_injective 10 (lineC_injective 15 h))
  have h2 := lineA_injective 12 (lineB_injective 16 (lineC_injective 5 h3))
  exact lineA_injective 13 (lineB_injective 8 (lineC_injective 13 h2))

/-- One round of the loop: a block is added to the registers, then mixed. -/
def absorb (s x : Registers) : Registers := mix ⟨s.a + x.a, s.b + x.b, s.c + x.c⟩

theorem absorb_injective (x : Registers) : Injective fun s => absorb s x := by
  rintro ⟨a, b, c⟩ ⟨a', b', c'⟩ h
  have h' := mix_injective h
  simp only [Registers.mk.injEq, BitVec.add_left_inj] at h'
  obtain ⟨rfl, rfl, rfl⟩ := h'
  rfl

theorem absorb_block_injective (s : Registers) : Injective (absorb s) := by
  rintro ⟨a, b, c⟩ ⟨a', b', c'⟩ h
  have h' := mix_injective h
  simp only [Registers.mk.injEq, BitVec.add_right_inj] at h'
  obtain ⟨rfl, rfl, rfl⟩ := h'
  rfl

/-- The full blocks of twelve bytes. -/
def blocks : List UInt8 → List Registers
  | k0 :: k1 :: k2 :: k3 :: k4 :: k5 :: k6 :: k7 :: k8 :: k9 :: k10 :: k11 :: k =>
      ⟨word k0 k1 k2 k3, word k4 k5 k6 k7, word k8 k9 k10 k11⟩ :: blocks k
  | _ => []

/-- The bytes behind the full blocks. -/
def lastBytes : List UInt8 → List UInt8
  | _ :: _ :: _ :: _ :: _ :: _ :: _ :: _ :: _ :: _ :: _ :: _ :: k => lastBytes k
  | k => k

/-- The loop is a fold over the full blocks. -/
theorem handleMost_eq (k : List UInt8) :
    ∀ s, handleMost k s = ((blocks k).foldl absorb s, lastBytes k) := by
  induction k using blocks.induct with
  | case1 k0 k1 k2 k3 k4 k5 k6 k7 k8 k9 k10 k11 k ih =>
      intro s
      rw [handleMost, blocks, lastBytes, List.foldl_cons, ih]
      rfl
  | case2 k hk =>
      intro s
      rw [handleMost, blocks, lastBytes]
      · rfl
      · exact hk
      · exact hk
      · exact hk

theorem length_lt_twelve {k : List UInt8}
    (hk : ∀ k0 k1 k2 k3 k4 k5 k6 k7 k8 k9 k10 k11 k', k = k0 :: k1 :: k2 :: k3 :: k4 :: k5
      :: k6 :: k7 :: k8 :: k9 :: k10 :: k11 :: k' → False) : k.length < 12 := by
  by_contra hge
  have h : 12 ≤ k.length := by omega
  match k, h with
  | _ :: _ :: _ :: _ :: _ :: _ :: _ :: _ :: _ :: _ :: _ :: _ :: k', _ =>
      exact hk _ _ _ _ _ _ _ _ _ _ _ _ k' rfl

theorem blocks_append {pre : List UInt8} (h : 12 ∣ pre.length) (k : List UInt8) :
    blocks (pre ++ k) = blocks pre ++ blocks k ∧ lastBytes (pre ++ k) = lastBytes k := by
  induction pre using blocks.induct with
  | case1 k0 k1 k2 k3 k4 k5 k6 k7 k8 k9 k10 k11 pre ih =>
      have h' : 12 ∣ pre.length := by
        simp only [List.length_cons] at h
        omega
      obtain ⟨ihb, ihl⟩ := ih h'
      simp only [List.cons_append, blocks, lastBytes, ihb, ihl, and_self]
  | case2 pre hpre =>
      have hlt := length_lt_twelve hpre
      have hnil : pre = [] := List.length_eq_zero_iff.mp (by omega)
      subst hnil
      exact ⟨rfl, rfl⟩

/-- The registers before the last bytes are added. -/
def start (initval : Ub4) : Registers := ⟨0x9e3779b9, 0x9e3779b9, initval⟩

theorem bobhash_eq (k : List UInt8) (length : Nat) (initval : Ub4) :
    bobhash k length initval
      = (handleLast length ((blocks (k.take length)).foldl absorb (start initval))
          (lastBytes (k.take length))).c := by
  rw [bobhash, handleMost_eq]
  rfl

theorem handleLast_injective (length : Nat) (k : List UInt8) :
    Injective fun s => handleLast length s k := by
  rintro ⟨a, b, c⟩ ⟨a', b', c'⟩ h
  have h' := mix_injective h
  simp only [Registers.mk.injEq, BitVec.add_left_inj] at h'
  obtain ⟨rfl, rfl, rfl⟩ := h'
  rfl

/-! ## Counting inputs -/

/-- Lists of a length are counted by whatever encodes them. -/
theorem ncard_lists {β : Type} {encode : β → List UInt8} (hinj : Injective encode) {n : Nat}
    (hlen : ∀ x, (encode x).length = n)
    (hall : ∀ l : List UInt8, l.length = n → ∃ x, encode x = l) (P : List UInt8 → Prop) :
    {l : List UInt8 | l.length = n ∧ P l}.ncard = {x | P (encode x)}.ncard := by
  rw [← Set.ncard_image_of_injective _ hinj]
  congr 1
  ext l
  constructor
  · rintro ⟨hl, hP⟩
    obtain ⟨x, rfl⟩ := hall l hl
    exact ⟨x, hP, rfl⟩
  · rintro ⟨x, hP, rfl⟩
    exact ⟨hlen x, hP⟩

/-- The range test on a hash that is the word `x`. -/
theorem isSelected_iff {o : Options} {contents : List UInt8} {x : Ub4}
    (hne : contents ≠ []) (hx : o.hashFunction contents = UInt32.ofBitVec x) :
    (rangeTest o contents).isSelected = true ↔
      o.selRangeMin.toBitVec ≤ x ∧ x ≤ o.selRangeMax.toBitVec := by
  have hlen : ¬ contents.length = 0 := fun h => hne (List.length_eq_zero_iff.mp h)
  rw [rangeTest, if_neg hlen]
  show (if o.selRangeMin ≤ o.hashFunction contents ∧ o.hashFunction contents ≤ o.selRangeMax
    then Decision.selected _ else .dropped _).isSelected = true ↔ _
  have hiff : o.selRangeMin ≤ UInt32.ofBitVec x ∧ UInt32.ofBitVec x ≤ o.selRangeMax ↔
      o.selRangeMin.toBitVec ≤ x ∧ x ≤ o.selRangeMax.toBitVec :=
    and_congr UInt32.le_iff_toBitVec_le UInt32.le_iff_toBitVec_le
  rw [hx]
  by_cases h : o.selRangeMin ≤ UInt32.ofBitVec x ∧ UInt32.ofBitVec x ≤ o.selRangeMax
  · exact iff_of_true (by rw [if_pos h]; rfl) (hiff.mp h)
  · exact iff_of_false (by rw [if_neg h]; exact Bool.false_ne_true) fun h' => h (hiff.mpr h')

/-- Three words as the registers they are added to. -/
def ofTriple (x : (Ub4 × Ub4) × Ub4) : Registers := ⟨x.1.1, x.1.2, x.2⟩

def toTriple (s : Registers) : (Ub4 × Ub4) × Ub4 := ((s.a, s.b), s.c)

theorem ofTriple_injective : Injective ofTriple := by
  rintro ⟨⟨a, b⟩, c⟩ ⟨⟨a', b'⟩, c'⟩ h
  simp only [ofTriple, Registers.mk.injEq] at h
  obtain ⟨rfl, rfl, rfl⟩ := h
  rfl

theorem toTriple_injective : Injective toTriple := by
  rintro ⟨a, b, c⟩ ⟨a', b', c'⟩ h
  simp only [toTriple, Prod.mk.injEq] at h
  obtain ⟨⟨rfl, rfl⟩, rfl⟩ := h
  rfl

/-- The twelve bytes of three words. -/
def tripleBytes (x : (Ub4 × Ub4) × Ub4) : List UInt8 := bytes x.1.1 ++ bytes x.1.2 ++ bytes x.2

theorem length_tripleBytes (x : (Ub4 × Ub4) × Ub4) : (tripleBytes x).length = 12 := rfl

theorem tripleBytes_injective : Injective tripleBytes := by
  rintro ⟨⟨a, b⟩, c⟩ ⟨⟨a', b'⟩, c'⟩ h
  obtain ⟨hab, hc⟩ := List.append_inj h rfl
  obtain ⟨ha, hb⟩ := List.append_inj hab rfl
  exact Prod.ext (Prod.ext (bytes_injective ha) (bytes_injective hb)) (bytes_injective hc)

theorem exists_tripleBytes {l : List UInt8} (h : l.length = 12) : ∃ x, tripleBytes x = l := by
  obtain ⟨a, ha⟩ := exists_bytes (l := l.take 4) (by rw [List.length_take]; omega)
  obtain ⟨b, hb⟩ := exists_bytes (l := (l.drop 4).take 4)
    (by rw [List.length_take, List.length_drop]; omega)
  obtain ⟨c, hc⟩ := exists_bytes (l := (l.drop 4).drop 4)
    (by rw [List.length_drop, List.length_drop]; omega)
  refine ⟨((a, b), c), ?_⟩
  rw [tripleBytes, ha, hb, hc, List.append_assoc, List.take_append_drop, List.take_append_drop]

theorem blocks_tripleBytes (x : (Ub4 × Ub4) × Ub4) (k : List UInt8) :
    blocks (tripleBytes x ++ k) = ofTriple x :: blocks k ∧
      lastBytes (tripleBytes x ++ k) = lastBytes k := by
  refine ⟨?_, rfl⟩
  have hword : ∀ y : Ub4, word (UInt8.ofNat y.toNat) (UInt8.ofNat (y.toNat / 256))
      (UInt8.ofNat (y.toNat / 65536)) (UInt8.ofNat (y.toNat / 16777216)) = y := ofBytes_bytes
  show Registers.mk (word _ _ _ _) (word _ _ _ _) (word _ _ _ _) :: blocks k = _
  rw [hword, hword, hword]
  rfl

/-! ## `BOB_Hash` -/

/-- The registers at the end, as a function of one block; `pre` and `suf` are
    the bytes around it that are hashed. -/
def final (initval : Ub4) (length : Nat) (pre suf : List UInt8) (x : Registers) : Registers :=
  handleLast length ((blocks pre ++ x :: blocks suf).foldl absorb (start initval))
    (lastBytes suf)

theorem final_injective (initval : Ub4) (length : Nat) (pre suf : List UInt8) :
    Injective (final initval length pre suf) := by
  intro x y h
  have hfold := handleLast_injective length (lastBytes suf) h
  exact Mixing.foldl_block_injective absorb_injective absorb_block_injective
    (blocks pre) (blocks suf) (start initval) hfold

theorem bobhash_block {pre suf : List UInt8} (hpre : 12 ∣ pre.length) {length : Nat}
    (hlen : pre.length + 12 ≤ length) (initval : Ub4) (x : (Ub4 × Ub4) × Ub4) :
    bobhash (pre ++ tripleBytes x ++ suf) length initval
      = (final initval length pre (suf.take (length - (pre.length + 12))) (ofTriple x)).c := by
  have htake : (pre ++ tripleBytes x ++ suf).take length
      = pre ++ (tripleBytes x ++ suf.take (length - (pre.length + 12))) := by
    have hl : (pre ++ tripleBytes x).length = pre.length + 12 := by
      rw [List.length_append, length_tripleBytes]
    rw [List.take_append, List.take_of_length_le (by omega), hl, List.append_assoc]
  obtain ⟨hblocks, hlast⟩ :=
    blocks_append hpre (tripleBytes x ++ suf.take (length - (pre.length + 12)))
  obtain ⟨hblocks', hlast'⟩ := blocks_tripleBytes x (suf.take (length - (pre.length + 12)))
  rw [bobhash_eq, htake, hblocks, hlast, hblocks', hlast', final]

/-- **EXACT SAMPLING, BOB**: whatever bytes stand around a full block of the
    hash input, a selection range takes its width times `2 ^ 64` of the
    `2 ^ 96` blocks; only the first `uint16_t` of the length counts. -/
theorem bob_selects_share (o : Options) (ho : o.hashFunction = calcHashValueBOB)
    (pre suf : List UInt8) (hpre : 12 ∣ pre.length)
    (hlen : pre.length + 12 ≤ u16 (pre.length + 12 + suf.length)) :
    {block : List UInt8 | block.length = 12 ∧
        (rangeTest o (pre ++ block ++ suf)).isSelected = true}.ncard
      = (o.selRangeMax.toNat + 1 - o.selRangeMin.toNat) * 2 ^ 64 := by
  rw [ncard_lists tripleBytes_injective length_tripleBytes fun _ => exists_tripleBytes]
  let length := u16 (pre.length + 12 + suf.length)
  let rest := suf.take (length - (pre.length + 12))
  let ψ : (Ub4 × Ub4) × Ub4 → (Ub4 × Ub4) × Ub4 :=
    fun x => toTriple (final initval length pre rest (ofTriple x))
  have hψ : Bijective ψ := by
    rw [← Finite.injective_iff_bijective]
    exact fun x y h => ofTriple_injective (final_injective _ _ _ _ (toTriple_injective h))
  let range : Set Ub4 := {y | o.selRangeMin.toBitVec ≤ y ∧ y ≤ o.selRangeMax.toBitVec}
  -- the selected blocks are the ones that end with a hash in the range
  have hset : {x | (rangeTest o (pre ++ tripleBytes x ++ suf)).isSelected = true}
      = Set.preimage ψ {y | y.2 ∈ range} := by
    ext x
    have hhash : o.hashFunction (pre ++ tripleBytes x ++ suf) = UInt32.ofBitVec (ψ x).2 := by
      have hl : (pre ++ tripleBytes x ++ suf).length = pre.length + 12 + suf.length := by
        rw [List.length_append, List.length_append, length_tripleBytes]
      rw [ho, calcHashValueBOB, bobHash, hl, bobhash_block hpre hlen]
      rfl
    refine isSelected_iff (fun hnil => ?_) hhash
    have := congrArg List.length hnil
    rw [List.length_append, List.length_append, length_tripleBytes] at this
    exact absurd this (by simp)
  rw [hset, Mixing.ncard_preimage hψ, Mixing.ncard_snd_mem, Mixing.ncard_between,
    Fintype.card_prod, Mixing.card_bitVec, Nat.mul_comm]
  rfl

/-- The range a probe starts with, on the first block of an input of 15 bytes. -/
theorem bob_selects_share_default :
    {block : List UInt8 | block.length = 12 ∧
        (rangeTest (setDefaultsOptions calcHashValueBOB)
          ([] ++ block ++ [1, 2, 3])).isSelected = true}.ncard
      = (0x33333333 + 1 - 0x19999999) * 2 ^ 64 :=
  bob_selects_share (setDefaultsOptions calcHashValueBOB) rfl [] [1, 2, 3] (by decide)
    (by decide)

/-! ## `TWMXHash` -/

theorem mixKey_injective : Injective mixKey := by
  have h15 := ((Mixing.fromBelow_shiftLeft (w := 32) (k := 15) (by decide)).not).add_injective
  have h10 := (Mixing.fromAbove_and_ushiftRight (0x7FFFFFFF : Ub4) (k := 10)
    (by decide)).xor_injective
  have h3 := (Mixing.fromBelow_shiftLeft (w := 32) (k := 3) (by decide)).add_injective
  have h6 := (Mixing.fromAbove_and_ushiftRight (0x7FFFFFFF : Ub4) (k := 6)
    (by decide)).xor_injective
  have h11 := ((Mixing.fromBelow_shiftLeft (w := 32) (k := 11) (by decide)).not).add_injective
  have h16 := (Mixing.fromAbove_and_ushiftRight (0x7FFFFFFF : Ub4) (k := 16)
    (by decide)).xor_injective
  exact fun x y h => h15 (h10 (h3 (h6 (h11 (h16 h)))))

/-- One round of either loop. -/
def absorbWord (key x : Ub4) : Ub4 := mixKey (key + x)

theorem absorbWord_injective (x : Ub4) : Injective fun key => absorbWord key x :=
  fun _ _ h => (BitVec.add_left_inj x).mp (mixKey_injective h)

theorem absorbWord_block_injective (key : Ub4) : Injective (absorbWord key) :=
  fun _ _ h => (BitVec.add_right_inj key).mp (mixKey_injective h)

/-- The full words, as the loop that runs reads them. -/
def words (p : Placement) : List UInt8 → List Ub4
  | k0 :: k1 :: k2 :: k3 :: k => p.load k0 k1 k2 k3 :: words p k
  | _ => []

/-- The bytes behind the full words. -/
def lastThree : List UInt8 → List UInt8
  | _ :: _ :: _ :: _ :: k => lastThree k
  | k => k

theorem twmxLoop_eq (p : Placement) (k : List UInt8) :
    ∀ key, twmxLoop p k key = ((words p k).foldl absorbWord key, lastThree k) := by
  induction k using lastThree.induct with
  | case1 k0 k1 k2 k3 k ih =>
      intro key
      rw [twmxLoop, words, lastThree, List.foldl_cons, ih]
      rfl
  | case2 k hk =>
      intro key
      rw [twmxLoop, words, lastThree]
      · rfl
      · exact hk
      · exact hk
      · exact hk

theorem length_lt_four {k : List UInt8}
    (hk : ∀ k0 k1 k2 k3 k', k = k0 :: k1 :: k2 :: k3 :: k' → False) : k.length < 4 := by
  by_contra hge
  have h : 4 ≤ k.length := by omega
  match k, h with
  | _ :: _ :: _ :: _ :: k', _ => exact hk _ _ _ _ k' rfl

theorem words_append (p : Placement) {pre : List UInt8} (h : 4 ∣ pre.length) (k : List UInt8) :
    words p (pre ++ k) = words p pre ++ words p k ∧ lastThree (pre ++ k) = lastThree k := by
  induction pre using lastThree.induct with
  | case1 k0 k1 k2 k3 pre ih =>
      have h' : 4 ∣ pre.length := by
        simp only [List.length_cons] at h
        omega
      obtain ⟨ihb, ihl⟩ := ih h'
      simp only [List.cons_append, words, lastThree, ihb, ihl, and_self]
  | case2 pre hpre =>
      have hlt := length_lt_four hpre
      have hnil : pre = [] := List.length_eq_zero_iff.mp (by omega)
      subst hnil
      exact ⟨rfl, rfl⟩

/-- What the `switch` adds for the last bytes. -/
def tailWord (k : List UInt8) : Ub4 := lastByte k 2 16 + lastByte k 1 8 + lastByte k 0 0

theorem twmxHash_eq (p : Placement) (data : List UInt8) (initval : Ub4) :
    twmxHash p data initval
      = absorbWord ((words p data).foldl absorbWord initval) (tailWord (lastThree data)) := by
  rw [twmxHash, twmxLoop_eq, absorbWord, tailWord, ← BitVec.add_assoc, ← BitVec.add_assoc]

/-- The bytes that the loop reads as the word `x`. -/
def loadedBytes (p : Placement) (x : Ub4) : List UInt8 :=
  match p.aligned, p.order with
  | true, .bigEndian => (bytes x).reverse
  | true, .littleEndian => bytes x
  | false, _ => bytes x

theorem length_loadedBytes (p : Placement) (x : Ub4) : (loadedBytes p x).length = 4 := by
  obtain ⟨order, aligned⟩ := p
  cases aligned with
  | false => rfl
  | true =>
      cases order with
      | littleEndian => rfl
      | bigEndian => rfl

theorem words_loadedBytes (p : Placement) (x : Ub4) (k : List UInt8) :
    words p (loadedBytes p x ++ k) = x :: words p k ∧
      lastThree (loadedBytes p x ++ k) = lastThree k := by
  have hword : word (UInt8.ofNat x.toNat) (UInt8.ofNat (x.toNat / 256))
      (UInt8.ofNat (x.toNat / 65536)) (UInt8.ofNat (x.toNat / 16777216)) = x := ofBytes_bytes x
  obtain ⟨order, aligned⟩ := p
  cases aligned with
  | false => exact ⟨congrArg (· :: words _ k) hword, rfl⟩
  | true =>
      cases order with
      | littleEndian => exact ⟨congrArg (· :: words _ k) hword, rfl⟩
      | bigEndian => exact ⟨congrArg (· :: words _ k) hword, rfl⟩

theorem loadedBytes_injective (p : Placement) : Injective (loadedBytes p) := by
  intro x y h
  have hx := (words_loadedBytes p x []).1
  rw [h, (words_loadedBytes p y []).1] at hx
  exact (List.cons.inj hx).1.symm

theorem exists_loadedBytes (p : Placement) {l : List UInt8} (h : l.length = 4) :
    ∃ x, loadedBytes p x = l := by
  obtain ⟨order, aligned⟩ := p
  cases aligned with
  | false => exact exists_bytes h
  | true =>
      cases order with
      | littleEndian => exact exists_bytes h
      | bigEndian =>
          obtain ⟨x, hx⟩ := exists_bytes (l := l.reverse) (by rw [List.length_reverse]; exact h)
          exact ⟨x, by rw [loadedBytes, hx, List.reverse_reverse]⟩

/-- The hash as a function of one full word. -/
def finalKey (p : Placement) (pre suf : List UInt8) (x : Ub4) : Ub4 :=
  absorbWord ((words p pre ++ x :: words p suf).foldl absorbWord initval)
    (tailWord (lastThree suf))

theorem finalKey_injective (p : Placement) (pre suf : List UInt8) :
    Injective (finalKey p pre suf) := by
  intro x y h
  have hfold := absorbWord_injective (tailWord (lastThree suf)) h
  exact Mixing.foldl_block_injective absorbWord_injective absorbWord_block_injective
    (words p pre) (words p suf) initval hfold

theorem twmxHash_word (p : Placement) {pre : List UInt8} (hpre : 4 ∣ pre.length)
    (suf : List UInt8) (x : Ub4) :
    twmxHash p (pre ++ loadedBytes p x ++ suf) initval = finalKey p pre suf x := by
  obtain ⟨hwords, hlast⟩ := words_append p hpre (loadedBytes p x ++ suf)
  obtain ⟨hwords', hlast'⟩ := words_loadedBytes p x suf
  rw [List.append_assoc, twmxHash_eq, hwords, hlast, hwords', hlast', finalKey]

/-- **EXACT SAMPLING, TWMX**: whatever bytes stand around a full word of the
    hash input, on either byte order and however the buffer is aligned, a
    selection range takes as many of the words as it is wide. -/
theorem twmx_selects_share (p : Placement) (o : Options)
    (ho : o.hashFunction = calcHashValueTWMXRSHash p) (pre suf : List UInt8)
    (hpre : 4 ∣ pre.length) :
    {block : List UInt8 | block.length = 4 ∧
        (rangeTest o (pre ++ block ++ suf)).isSelected = true}.ncard
      = o.selRangeMax.toNat + 1 - o.selRangeMin.toNat := by
  rw [ncard_lists (loadedBytes_injective p) (length_loadedBytes p) fun _ => exists_loadedBytes p]
  have hbij : Bijective (finalKey p pre suf) :=
    Finite.injective_iff_bijective.mp (finalKey_injective p pre suf)
  have hset : {x | (rangeTest o (pre ++ loadedBytes p x ++ suf)).isSelected = true}
      = Set.preimage (finalKey p pre suf)
          {y | o.selRangeMin.toBitVec ≤ y ∧ y ≤ o.selRangeMax.toBitVec} := by
    ext x
    have hhash : o.hashFunction (pre ++ loadedBytes p x ++ suf)
        = UInt32.ofBitVec (finalKey p pre suf x) := by
      rw [ho, calcHashValueTWMXRSHash, twmxHash_word p hpre]
    refine isSelected_iff (fun hnil => ?_) hhash
    have := congrArg List.length hnil
    rw [List.length_append, List.length_append, length_loadedBytes] at this
    exact absurd this (by simp)
  rw [hset, Mixing.ncard_preimage hbij, Mixing.ncard_between]
  rfl

theorem twmx_selects_share_default :
    {block : List UInt8 | block.length = 4 ∧
        (rangeTest (setDefaultsOptions (calcHashValueTWMXRSHash ⟨.bigEndian, true⟩))
          ([69, 0, 0, 28] ++ block ++ [7])).isSelected = true}.ncard
      = 0x33333333 + 1 - 0x19999999 :=
  twmx_selects_share ⟨.bigEndian, true⟩ (setDefaultsOptions _) rfl [69, 0, 0, 28] [7]
    (by decide)

/-! ## Inputs that differ in one byte -/

theorem word_injective {k0 k1 k2 k3 l0 l1 l2 l3 : UInt8}
    (h : word k0 k1 k2 k3 = word l0 l1 l2 l3) : [k0, k1, k2, k3] = [l0, l1, l2, l3] := by
  rw [← bytes_word, h, bytes_word]

theorem lastByte_eq (k : List UInt8) (i shift : Nat) :
    lastByte k i shift = ub4 (k[i]?.getD 0) <<< shift := by
  rw [lastByte]
  cases k[i]? with
  | none =>
      show 0#32 = 0#32 <<< shift
      rw [BitVec.zero_shiftLeft]
  | some b => rfl

theorem tailWord_eq (k : List UInt8) :
    tailWord k = word (k[0]?.getD 0) (k[1]?.getD 0) (k[2]?.getD 0) 0 := by
  have h0 : (ub4 0 <<< 24 : Ub4) = 0 := rfl
  have hz : ∀ x : Ub4, x + 0 = x := fun x => BitVec.add_zero x
  rw [tailWord, lastByte_eq, lastByte_eq, lastByte_eq, word, h0, hz, BitVec.shiftLeft_zero,
    BitVec.add_comm, BitVec.add_comm (ub4 (k[2]?.getD 0) <<< 16), ← BitVec.add_assoc]

/-- The last bytes of two inputs of one length go in injectively. -/
theorem tailWord_injective {k l : List UInt8} (hlen : k.length = l.length)
    (hlt : k.length < 4) (h : tailWord k = tailWord l) : k = l := by
  rw [tailWord_eq, tailWord_eq] at h
  have hbytes := word_injective h
  simp only [List.cons.injEq, and_true] at hbytes
  obtain ⟨h0, h1, h2⟩ := hbytes
  have hget : ∀ i, i < 4 → i < k.length → k[i]?.getD 0 = l[i]?.getD 0 := by
    intro i hi hk
    match i with
    | 0 => exact h0
    | 1 => exact h1
    | 2 => exact h2
    | 3 => exact absurd hk (by omega)
  refine List.ext_getElem hlen ?_
  intro i hk hl
  have := hget i (by omega) hk
  rwa [List.getElem?_eq_getElem hk, List.getElem?_eq_getElem hl] at this

theorem lastThree_of_lt {k : List UInt8} (h : k.length < 4) : lastThree k = k := by
  match k, h with
  | [], _ => rfl
  | [_], _ => rfl
  | [_, _], _ => rfl
  | [_, _, _], _ => rfl

theorem words_of_lt (p : Placement) {k : List UInt8} (h : k.length < 4) : words p k = [] := by
  match k, h with
  | [], _ => rfl
  | [_], _ => rfl
  | [_, _], _ => rfl
  | [_, _, _], _ => rfl

theorem ofBitVec_injective : Injective UInt32.ofBitVec := fun x y h => by
  have := congrArg UInt32.toBitVec h
  exact this

/-- A full word of the input can be read off the hash. -/
theorem twmx_word_eq (p : Placement) {pre block block' : List UInt8} (hpre : 4 ∣ pre.length)
    (hb : block.length = 4) (hb' : block'.length = 4) (suf : List UInt8)
    (h : calcHashValueTWMXRSHash p (pre ++ block ++ suf)
      = calcHashValueTWMXRSHash p (pre ++ block' ++ suf)) : block = block' := by
  obtain ⟨x, rfl⟩ := exists_loadedBytes p hb
  obtain ⟨y, rfl⟩ := exists_loadedBytes p hb'
  have hx := ofBitVec_injective h
  rw [twmxHash_word p hpre, twmxHash_word p hpre] at hx
  rw [finalKey_injective p pre suf hx]

/-- So can the incomplete word at the end. -/
theorem twmx_tail_eq (p : Placement) {pre k l : List UInt8} (hpre : 4 ∣ pre.length)
    (hlen : k.length = l.length) (hlt : k.length < 4)
    (h : calcHashValueTWMXRSHash p (pre ++ k) = calcHashValueTWMXRSHash p (pre ++ l)) :
    k = l := by
  have hx := ofBitVec_injective h
  obtain ⟨hwords, hlast⟩ := words_append p hpre k
  obtain ⟨hwords', hlast'⟩ := words_append p hpre l
  have hlt' : l.length < 4 := by omega
  rw [twmxHash_eq, twmxHash_eq, hwords, hlast, hwords', hlast', words_of_lt p hlt,
    words_of_lt p hlt', lastThree_of_lt hlt, lastThree_of_lt hlt'] at hx
  exact tailWord_injective hlen hlt (absorbWord_block_injective _ hx)

theorem twmx_byte_eq (p : Placement) (pre suf : List UInt8) {b b' : UInt8}
    (h : calcHashValueTWMXRSHash p (pre ++ b :: suf)
      = calcHashValueTWMXRSHash p (pre ++ b' :: suf)) : b = b' := by
  -- the full words before the byte, and what stands before it in its own word
  obtain ⟨words, front, rfl, hwords, hfront⟩ :
      ∃ words front : List UInt8, pre = words ++ front ∧ 4 ∣ words.length ∧
        front.length < 4 := by
    refine ⟨pre.take (pre.length / 4 * 4), pre.drop (pre.length / 4 * 4),
      (List.take_append_drop ..).symm, ?_, ?_⟩
    · rw [List.length_take]
      omega
    · rw [List.length_drop]
      omega
  have hsame : ∀ tail : List UInt8, front ++ b :: tail = front ++ b' :: tail → b = b' :=
    fun tail ht => (List.cons.inj (List.append_cancel_left ht)).1
  by_cases hfull : 4 ≤ front.length + 1 + suf.length
  · have hsplit : ∀ c : UInt8, words ++ front ++ c :: suf
        = words ++ (front ++ c :: suf.take (3 - front.length)) ++ suf.drop (3 - front.length) := by
      intro c
      simp only [List.append_assoc, List.cons_append, List.take_append_drop]
    have hlength : ∀ c : UInt8, (front ++ c :: suf.take (3 - front.length)).length = 4 := by
      intro c
      rw [List.length_append, List.length_cons, List.length_take]
      omega
    rw [hsplit b, hsplit b'] at h
    exact hsame _ (twmx_word_eq p hwords (hlength b) (hlength b') _ h)
  · rw [List.append_assoc, List.append_assoc] at h
    refine hsame suf (twmx_tail_eq p hwords ?_ ?_ h)
    · rw [List.length_append, List.length_append, List.length_cons, List.length_cons]
    · rw [List.length_append, List.length_cons]
      omega

theorem oaat_end_injective : Injective oaatEnd := by
  have h3 := (Mixing.fromBelow_shiftLeft (w := 32) (k := 3) (by decide)).add_injective
  have h11 := (Mixing.fromAbove_ushiftRight (w := 32) (k := 11) (by decide)).xor_injective
  have h15 := (Mixing.fromBelow_shiftLeft (w := 32) (k := 15) (by decide)).add_injective
  exact fun x y h => h3 (h11 (h15 h))

/-- What a round does once the byte is added. -/
theorem oaat_mix_injective :
    Injective fun hash : Ub4 => (hash + (hash <<< 10)) ^^^ ((hash + (hash <<< 10)) >>> 6) := by
  have h10 := (Mixing.fromBelow_shiftLeft (w := 32) (k := 10) (by decide)).add_injective
  have h6 := (Mixing.fromAbove_ushiftRight (w := 32) (k := 6) (by decide)).xor_injective
  exact fun x y h => h10 (h6 h)

theorem oaatRound_injective (b : UInt8) : Injective fun hash => oaatRound hash b :=
  fun _ _ h => (BitVec.add_left_inj (ub4 b)).mp (oaat_mix_injective h)

theorem oaatRound_byte_injective (hash : Ub4) : Injective (oaatRound hash) :=
  fun _ _ h => ub4_injective ((BitVec.add_right_inj hash).mp (oaat_mix_injective h))

theorem oaat_byte_eq (pre suf : List UInt8) {b b' : UInt8}
    (h : calcHashValueOAAT (pre ++ b :: suf) = calcHashValueOAAT (pre ++ b' :: suf)) :
    b = b' :=
  Mixing.foldl_block_injective oaatRound_injective oaatRound_byte_injective pre suf 0
    (oaat_end_injective (ofBitVec_injective h))

end Impd4e.HashSampling
