import Impd4e.HashSampling

/-! # What `-F` and `-p` pick

    At most one name of the table of `parseFunction` fits an argument.  What the
    function behind it does with one changed byte, and what it does on another
    machine, is then a property of the argument: TWMX and OAAT never give two
    inputs that differ in one byte the same hash, and two machines compute the
    same hash unless the aligned loop of TWMX runs on a big-endian machine or the
    plain `char` at the end of an input for HSIEH has its high bit set. -/

namespace Impd4e.HashChoice

open Impd4e.CString Impd4e.HashFunctions Impd4e.HashSampling

/-! ## The name that fits -/

/-- The argument begins with the name, in whatever case. -/
def fits (arg hstring : CStr) : Bool := strncasecmpEq arg hstring hstring.length

theorem head_of_fits {arg hstring : CStr} (h : fits arg hstring = true) (hne : hstring ≠ []) :
    (arg.head?).map tolower = (hstring.head?).map tolower := by
  rw [fits, strncasecmpEq, beq_iff_eq, List.take_length] at h
  cases hstring with
  | nil => exact absurd rfl hne
  | cons c hstring =>
      cases arg with
      | nil => exact absurd h (by simp)
      | cons d arg =>
          rw [List.length_cons, List.take_succ_cons, List.map_cons, List.map_cons] at h
          exact congrArg some (List.cons.inj h).1

/-- No two names of the table begin with the same letter. -/
theorem names_pairwise (host : Host) :
    (hashfunctions host).Pairwise fun row row' =>
      (row.1.head?).map tolower ≠ (row'.1.head?).map tolower := by
  have h : ((hashfunctions host).map Prod.fst).Pairwise fun name name' : CStr =>
      (name.head?).map tolower ≠ (name'.head?).map tolower := by
    show [str "BOB", str "TWMX", str "HSIEH", str "OAAT"].Pairwise _
    decide
  rw [List.pairwise_map] at h
  exact h

theorem name_ne_nil {host : Host} {row : CStr × HashFunction} (h : row ∈ hashfunctions host) :
    row.1 ≠ [] := by
  have hall : [str "BOB", str "TWMX", str "HSIEH", str "OAAT"].all (fun name => !name.isEmpty)
      = true := by decide
  have hmem : row.1 ∈ [str "BOB", str "TWMX", str "HSIEH", str "OAAT"] :=
    List.mem_map.mpr ⟨row, h, rfl⟩
  have := List.all_eq_true.mp hall row.1 hmem
  intro hnil
  rw [hnil] at this
  exact Bool.noConfusion this

/-- Rows that do not fit leave the choice alone. -/
theorem hashfunctionLoop_skip {arg : CStr} {table : List (CStr × HashFunction)}
    (h : ∀ row ∈ table, ¬ fits arg row.1 = true) (function : HashFunction) :
    hashfunctionLoop arg table function = function := by
  induction table with
  | nil => rfl
  | cons row table ih =>
      obtain ⟨hstring, function'⟩ := row
      have hrow : ¬ strncasecmpEq arg hstring hstring.length = true :=
        h (hstring, function') (List.mem_cons_self ..)
      rw [hashfunctionLoop, if_neg hrow]
      exact ih fun row hmem => h row (List.mem_cons_of_mem _ hmem)

/-- The one row that fits is the one that counts. -/
theorem hashfunctionLoop_fit {arg : CStr} {table : List (CStr × HashFunction)}
    (hone : table.Pairwise fun row row' => fits arg row.1 = true → ¬ fits arg row'.1 = true)
    {row : CStr × HashFunction} (hmem : row ∈ table) (hfit : fits arg row.1 = true)
    (function : HashFunction) : hashfunctionLoop arg table function = row.2 := by
  induction table generalizing function with
  | nil => exact absurd hmem List.not_mem_nil
  | cons first table ih =>
      obtain ⟨hlater, hrest⟩ := List.pairwise_cons.mp hone
      obtain ⟨hstring, function'⟩ := first
      rcases List.mem_cons.mp hmem with heq | hin
      · subst heq
        have hfit' : strncasecmpEq arg hstring hstring.length = true := hfit
        rw [hashfunctionLoop, if_pos hfit']
        exact hashfunctionLoop_skip (fun row hrow => hlater row hrow hfit) function'
      · exact ih hrest hin _

/-- `parseFunction` returns the function of the name that fits. -/
theorem parseFunction_of_fits {host : Host} {arg : CStr} {row : CStr × HashFunction}
    (hmem : row ∈ hashfunctions host) (hfit : fits arg row.1 = true) :
    parseFunction host arg = row.2 := by
  refine hashfunctionLoop_fit ?_ hmem hfit _
  refine (names_pairwise host).imp_of_mem ?_
  intro row row' hrow hrow' hne hfit hfit'
  exact hne ((head_of_fits hfit (name_ne_nil hrow)).symm.trans
    (head_of_fits hfit' (name_ne_nil hrow')))

/-! ## One changed byte -/

/-- **NO COLLISION OF NEIGHBOURS**: with TWMX or OAAT, changing one byte of a
    hash input always changes the hash. -/
theorem changed_byte_changes_hash (host : Host) (arg : CStr)
    (harg : fits arg (str "TWMX") = true ∨ fits arg (str "OAAT") = true)
    (input : List UInt8) (i : Nat) (hi : i < input.length) (b : UInt8) :
    parseFunction host arg (input.set i b) = parseFunction host arg input ↔ input[i] = b := by
  have hset : input.set i b = input.take i ++ b :: input.drop (i + 1) := by
    rw [List.set_eq_take_append_cons_drop, if_pos hi]
  have hinput : input = input.take i ++ input[i] :: input.drop (i + 1) := by
    rw [List.getElem_cons_drop, List.take_append_drop]
  constructor
  · intro h
    rcases harg with harg | harg
    · have hrow : (str "TWMX", calcHashValueTWMXRSHash host.placement) ∈ hashfunctions host :=
        List.mem_cons_of_mem _ (List.mem_cons_self ..)
      rw [parseFunction_of_fits hrow harg, hset] at h
      conv at h => rhs; rw [hinput]
      exact (twmx_byte_eq host.placement _ _ h).symm
    · have hrow : (str "OAAT", calcHashValueOAAT) ∈ hashfunctions host :=
        List.mem_of_mem_getLast? rfl
      rw [parseFunction_of_fits hrow harg, hset] at h
      conv at h => rhs; rw [hinput]
      exact (oaat_byte_eq _ _ h).symm
  · intro h
    rw [hset, ← h, ← hinput]

theorem changed_byte_changes_hash_twmx :
    parseFunction ⟨⟨.littleEndian, true⟩, true⟩ (str "twmx") ([1, 2, 3, 4, 5].set 4 6)
        = parseFunction ⟨⟨.littleEndian, true⟩, true⟩ (str "twmx") [1, 2, 3, 4, 5] ↔
      ([1, 2, 3, 4, 5] : List UInt8)[4] = 6 :=
  changed_byte_changes_hash _ (str "twmx") (Or.inl (by decide)) [1, 2, 3, 4, 5] 4 (by decide) 6

/-! ## Two machines -/

/-- Does `TWMXHash` read its words with the high byte first? -/
def Reversed (p : Placement) : Bool := p.aligned && p.order = .bigEndian

theorem load_eq {p p' : Placement} (h : Reversed p = Reversed p') (k0 k1 k2 k3 : UInt8) :
    p.load k0 k1 k2 k3 = p'.load k0 k1 k2 k3 := by
  have hload : ∀ q : Placement, q.load k0 k1 k2 k3
      = if Reversed q then word k3 k2 k1 k0 else word k0 k1 k2 k3 := by
    rintro ⟨order, aligned⟩
    rw [Placement.load, Reversed]
    cases order with
    | littleEndian => simp only [load32, reduceCtorEq, decide_false, Bool.and_false,
        Bool.false_eq_true, if_false, ite_self]
    | bigEndian => simp only [load32, decide_true, Bool.and_true]
  rw [hload p, hload p', h]

theorem twmx_eq {p p' : Placement} (h : Reversed p = Reversed p') :
    calcHashValueTWMXRSHash p = calcHashValueTWMXRSHash p' := by
  have hwords : ∀ k, words p k = words p' k := by
    intro k
    induction k using lastThree.induct with
    | case1 k0 k1 k2 k3 k ih => rw [words, words, load_eq h, ih]
    | case2 k hk => rw [words_of_lt p (length_lt_four hk), words_of_lt p' (length_lt_four hk)]
  funext input
  rw [calcHashValueTWMXRSHash, calcHashValueTWMXRSHash, twmxHash_eq, twmxHash_eq, hwords]

/-- A plain `char` below 128 has no sign to lose. -/
theorem charValue_of_lt {b : UInt8} (h : b < 128) (signed : Bool) :
    charValue signed b = ub4 b := by
  cases signed with
  | false => rfl
  | true =>
      have hmsb : b.toBitVec.msb = false := by
        rw [BitVec.msb_eq_false_iff_two_mul_lt]
        have : b.toNat < 128 := UInt8.lt_iff_toNat_lt.mp h
        show 2 * b.toNat < 256
        omega
      exact BitVec.signExtend_eq_setWidth_of_msb_false hmsb

/-- The end of an input on which the sign of a plain `char` does not matter. -/
def Signless (rest : List UInt8) : Prop :=
  rest.length % 2 = 0 ∨ ∃ b, rest.getLast? = some b ∧ b < 128

theorem hsiehEnd_eq {rest : List UInt8} (h : Signless rest) (signed signed' : Bool) (hash : Ub4) :
    hsiehEnd signed hash rest = hsiehEnd signed' hash rest := by
  match rest, h with
  | [], _ => rfl
  | [d0], .inr ⟨b, hb, hlt⟩ =>
      obtain rfl : d0 = b := Option.some.inj hb
      rw [hsiehEnd, hsiehEnd, charValue_of_lt hlt, charValue_of_lt hlt]
  | [_, _], _ => rfl
  | [_, _, _], .inl heven => exact absurd heven (by simp)
  | [d0, d1, d2], .inr ⟨b, hb, hlt⟩ =>
      obtain rfl : d2 = b := Option.some.inj hb
      rw [hsiehEnd, hsiehEnd, charValue_of_lt hlt, charValue_of_lt hlt]
  | _ :: _ :: _ :: _ :: _, _ => rfl

theorem hsiehLoop_rest (data : List UInt8) :
    ∀ hash, (hsiehLoop data hash).2 = lastThree data := by
  induction data using lastThree.induct with
  | case1 d0 d1 d2 d3 data ih =>
      intro hash
      rw [hsiehLoop, lastThree]
      exact ih _
  | case2 data hdata =>
      intro hash
      rw [hsiehLoop, lastThree]
      · exact hdata
      · exact hdata

/-- The bytes behind the full words end as the whole input does. -/
theorem signless_lastThree {data : List UInt8} (h : Signless data) :
    Signless (lastThree data) := by
  induction data using lastThree.induct with
  | case1 d0 d1 d2 d3 data ih =>
      rw [lastThree]
      rcases h with heven | ⟨b, hb, hlt⟩
      · refine ih (Or.inl ?_)
        simp only [List.length_cons] at heven
        omega
      · cases data with
        | nil => exact Or.inl rfl
        | cons d data => exact ih (Or.inr ⟨b, by simpa using hb, hlt⟩)
  | case2 data hdata => rwa [lastThree_of_lt (length_lt_four hdata)]

theorem hsieh_eq {input : List UInt8} (h : Signless (input.take (u16 input.length)))
    (signed signed' : Bool) :
    calcHashValueHsieh signed input = calcHashValueHsieh signed' input := by
  have hrest := signless_lastThree h
  rw [← hsiehLoop_rest _ (BitVec.ofNat 32 (u16 input.length))] at hrest
  rw [calcHashValueHsieh, calcHashValueHsieh, hsiehHash, hsiehHash]
  by_cases hlen : u16 input.length = 0
  · simp only [if_pos hlen]
  · simp only [if_neg hlen]
    rw [hsiehEnd_eq hrest signed signed']

/-- Two tables of the same names whose functions agree on an input. -/
theorem hashfunctionLoop_congr {arg : CStr} {input : List UInt8}
    {table table' : List (CStr × HashFunction)}
    (h : List.Forall₂ (fun row row' => row.1 = row'.1 ∧ row.2 input = row'.2 input)
      table table') {function function' : HashFunction}
    (hf : function input = function' input) :
    hashfunctionLoop arg table function input
      = hashfunctionLoop arg table' function' input := by
  induction h generalizing function function' with
  | nil => exact hf
  | @cons row row' table table' hrow htable ih =>
      obtain ⟨hstring, f⟩ := row
      obtain ⟨hstring', f'⟩ := row'
      obtain ⟨rfl, hff⟩ : hstring = hstring' ∧ f input = f' input := hrow
      rw [hashfunctionLoop, hashfunctionLoop]
      by_cases hfit : strncasecmpEq arg hstring hstring.length = true
      · rw [if_pos hfit, if_pos hfit]
        exact ih hff
      · rw [if_neg hfit, if_neg hfit]
        exact ih hf

/-- **ONE HASH ON EVERY MACHINE**: on two machines the function that `-F` names
    computes the same hash, unless one of them alone runs the aligned loop of
    TWMX with the high byte first, or only one of them has a sign in its plain
    `char` and an input of odd length ends in a byte from 128 on. -/
theorem machines_agree (host host' : Host) (arg : CStr) (input : List UInt8)
    (hplace : Reversed host.placement = Reversed host'.placement)
    (hchar : host.signedChar = host'.signedChar ∨
      Signless (input.take (u16 input.length))) :
    parseFunction host arg input = parseFunction host' arg input := by
  have htwmx := twmx_eq hplace
  have hhsieh : calcHashValueHsieh host.signedChar input
      = calcHashValueHsieh host'.signedChar input := by
    rcases hchar with hchar | hchar
    · rw [hchar]
    · exact hsieh_eq hchar _ _
  refine hashfunctionLoop_congr ?_ rfl
  refine .cons ⟨rfl, rfl⟩ (.cons ⟨rfl, congrFun htwmx input⟩ (.cons ⟨rfl, hhsieh⟩
    (.cons ⟨rfl, rfl⟩ .nil)))

theorem machines_agree_hsieh :
    parseFunction ⟨⟨.littleEndian, true⟩, true⟩ (str "HSIEH") [200, 7]
      = parseFunction ⟨⟨.bigEndian, false⟩, false⟩ (str "HSIEH") [200, 7] :=
  machines_agree _ _ (str "HSIEH") [200, 7] rfl (Or.inr (Or.inl rfl))

end Impd4e.HashChoice
