import Impd4e.RangeList
import Impd4e.Settings

/-! # The selection options on the command line

    Every `-S` and every `-s` runs over the whole keyword table: each keyword that
    fits installs its function and parses what follows it.  The keywords that fit
    one argument are prefixes of each other, and the table lists a shorter one
    before a longer one: the longest keyword of the last argument that has one
    decides.  An earlier fit only matters when its numbers overflow an `int`. -/

namespace Impd4e.SelectionOptions

open Impd4e.CString Impd4e.RangeParser Impd4e.RangeList

/-! ## The options -/

def optS (arg : CStr) (options : Options) : Option Options := parseSelFunction arg options

def optLowerS (arg : CStr) (options : Options) : Option Options := optS arg options

/-- An option `-S` or `-s` with its argument. -/
inductive SelectionOpt where
  | S (arg : CStr)
  | s (arg : CStr)
  deriving DecidableEq, Repr

def SelectionOpt.arg : SelectionOpt → CStr
  | .S arg => arg
  | .s arg => arg

def SelectionOpt.call (options : Options) : SelectionOpt → Option Options
  | .S arg => optS arg options
  | .s arg => optLowerS arg options

/-- A command line of such options; `none` is an overflow of `int` in one of
    them. -/
def selectionOpts (opts : List SelectionOpt) (options : Options) : Option Options :=
  opts.foldlM SelectionOpt.call options

theorem SelectionOpt.call_eq (opt : SelectionOpt) (options : Options) :
    opt.call options = parseSelFunction opt.arg options := by
  cases opt with
  | S arg => rfl
  | s arg => rfl

/-! ## Keywords -/

/-- A row of the table. -/
abbrev Row := CStr × SelectionFunction

/-- The argument begins with the keyword of the row, in whatever case. -/
def fits (arg : CStr) (row : Row) : Bool := strncasecmpEq arg row.1 row.1.length

theorem fits_iff {arg : CStr} {row : Row} :
    fits arg row = true ↔ row.1.map tolower <+: arg.map tolower := by
  rw [fits, strncasecmpEq, beq_iff_eq, List.take_length, List.prefix_iff_eq_take,
    List.length_map, List.map_take, eq_comm]

/-- A row that fits, with a keyword as long as any other that does. -/
structure Longest (arg : CStr) (row : Row) : Prop where
  mem : row ∈ selfunctions
  fits : fits arg row = true
  longest : ∀ row' ∈ selfunctions, SelectionOptions.fits arg row' = true →
    row'.1.length ≤ row.1.length

/-- No keyword fits. -/
def Keywordless (arg : CStr) : Prop := ∀ row ∈ selfunctions, fits arg row = false

/-- A keyword that begins another one stands before it in the table. -/
theorem selfunctions_pairwise :
    selfunctions.Pairwise fun row row' => ¬ row'.1.map tolower <+: row.1.map tolower := by
  decide +kernel

variable {arg : CStr} {options out : Options}

/-- Of two rows that fit, the later one has the longer keyword. -/
theorem length_lt_of_fits {row row' : Row}
    (hpair : ¬ row'.1.map tolower <+: row.1.map tolower) (h : fits arg row = true)
    (h' : fits arg row' = true) : row.1.length < row'.1.length := by
  by_contra hle
  refine hpair (List.prefix_of_prefix_length_le (fits_iff.mp h') (fits_iff.mp h) ?_)
  rw [List.length_map, List.length_map]
  exact Nat.le_of_not_lt hle

/-- What a fitting row does. -/
def install (arg : CStr) (options : Options) (row : Row) : Option Options :=
  (parseRange (arg.drop row.1.length)).map fun chain =>
    { options with selectionFunction := row.2, rSel := chain }

theorem selfunctionLoop_fit {row : Row} (h : fits arg row = true) (table : List Row) :
    selfunctionLoop arg (row :: table) options
      = (install arg options row).bind (selfunctionLoop arg table) := by
  obtain ⟨hstring, selfunction⟩ := row
  have hfit : strncasecmpEq arg hstring hstring.length = true := h
  rw [selfunctionLoop, if_pos hfit, install]
  cases hparse : parseRange (arg.drop hstring.length) with
  | none => rfl
  | some chain => rfl

theorem selfunctionLoop_skip {row : Row} (h : ¬ fits arg row = true) (table : List Row) :
    selfunctionLoop arg (row :: table) options = selfunctionLoop arg table options := by
  obtain ⟨hstring, selfunction⟩ := row
  have hfit : ¬ strncasecmpEq arg hstring hstring.length = true := h
  rw [selfunctionLoop, if_neg hfit]

/-- The loop does one row after the other, of those that fit. -/
theorem selfunctionLoop_eq (arg : CStr) (table : List Row) :
    ∀ options, selfunctionLoop arg table options
      = (table.filter (fits arg)).foldlM (install arg) options := by
  induction table with
  | nil => exact fun _ => rfl
  | cons row table ih =>
      intro options
      by_cases hfit : fits arg row = true
      · rw [List.filter_cons_of_pos hfit, selfunctionLoop_fit hfit, List.foldlM_cons]
        exact congrArg _ (funext ih)
      · rw [List.filter_cons_of_neg hfit, selfunctionLoop_skip hfit]
        exact ih options

/-- A row that follows others which fit keeps nothing of what they did. -/
theorem foldlM_install {rows : List Row} {row : Row}
    (h : (rows ++ [row]).foldlM (install arg) options = some out) :
    ∃ chain, parseRange (arg.drop row.1.length) = some chain ∧
      out = { options with selectionFunction := row.2, rSel := chain } := by
  induction rows generalizing options with
  | nil =>
      rw [List.nil_append, List.foldlM_cons] at h
      obtain ⟨out', hinstall, hout⟩ := Option.bind_eq_some_iff.mp h
      obtain ⟨chain, hparse, rfl⟩ := Option.map_eq_some_iff.mp hinstall
      exact ⟨chain, hparse, (Option.some.inj hout).symm⟩
  | cons row' rows ih =>
      rw [List.cons_append, List.foldlM_cons] at h
      obtain ⟨out', hinstall, hout⟩ := Option.bind_eq_some_iff.mp h
      obtain ⟨chain', -, rfl⟩ := Option.map_eq_some_iff.mp hinstall
      -- the later row overwrites both fields
      have hlast := ih hout
      exact hlast

/-- The rows that fit run into no overflow exactly when none of them does. -/
theorem foldlM_install_isSome {rows : List Row} :
    ∀ options, (rows.foldlM (install arg) options).isSome ↔
      ∀ row ∈ rows, (parseRange (arg.drop row.1.length)).isSome := by
  induction rows with
  | nil => exact fun _ => iff_of_true rfl fun _ h => absurd h List.not_mem_nil
  | cons row rows ih =>
      intro options
      rw [List.foldlM_cons, install, List.forall_mem_cons]
      cases parseRange (arg.drop row.1.length) with
      | none => exact iff_of_false (fun h => Bool.noConfusion h) fun h => Bool.noConfusion h.1
      | some chain =>
          constructor
          · exact fun h => ⟨rfl, (ih _).mp h⟩
          · exact fun h => (ih _).mpr h.2

/-- No keyword that fits the argument makes a number overflow. -/
def Parses (arg : CStr) : Prop :=
  ∀ row ∈ selfunctions, fits arg row = true → (parseRange (arg.drop row.1.length)).isSome

theorem parseSelFunction_isSome (arg : CStr) (options : Options) :
    (parseSelFunction arg options).isSome ↔ Parses arg := by
  rw [parseSelFunction, selfunctionLoop_eq, foldlM_install_isSome, Parses]
  constructor
  · exact fun h row hmem hfit => h row (List.mem_filter.mpr ⟨hmem, hfit⟩)
  · intro h row hrow
    obtain ⟨hmem, hfit⟩ := List.mem_filter.mp hrow
    exact h row hmem hfit

/-- The longest keyword is the last of those that fit. -/
theorem fitting_eq {row : Row} (h : Longest arg row) :
    ∃ rows, selfunctions.filter (fits arg) = rows ++ [row] := by
  obtain ⟨before, after, htable⟩ := List.append_of_mem h.mem
  have hpair := selfunctions_pairwise
  rw [htable, List.pairwise_append] at hpair
  have hnone : after.filter (fits arg) = [] := by
    rw [List.filter_eq_nil_iff]
    intro row' hmem hfit
    have hlt := length_lt_of_fits ((List.pairwise_cons.mp hpair.2.1).1 row' hmem) h.fits hfit
    have hin : row' ∈ selfunctions := by
      rw [htable]
      exact List.mem_append_right _ (List.mem_cons_of_mem _ hmem)
    exact absurd (h.longest row' hin hfit) (Nat.not_le.mpr hlt)
  refine ⟨before.filter (fits arg), ?_⟩
  rw [htable, List.filter_append, List.filter_cons_of_pos h.fits, hnone]

/-- An argument with a keyword: its longest one decides. -/
theorem parseSelFunction_longest {row : Row} (h : Longest arg row)
    (hparse : parseSelFunction arg options = some out) :
    ∃ chain, parseRange (arg.drop row.1.length) = some chain ∧
      out = { options with selectionFunction := row.2, rSel := chain } := by
  obtain ⟨rows, hrows⟩ := fitting_eq h
  rw [parseSelFunction, selfunctionLoop_eq, hrows] at hparse
  exact foldlM_install hparse

/-- An argument without one changes nothing. -/
theorem parseSelFunction_keywordless (h : Keywordless arg) :
    parseSelFunction arg options = some options := by
  have hnone : selfunctions.filter (fits arg) = [] := by
    rw [List.filter_eq_nil_iff]
    intro row hmem
    rw [h row hmem]
    exact Bool.false_ne_true
  rw [parseSelFunction, selfunctionLoop_eq, hnone]
  rfl

/-! ## Command lines -/

theorem selectionOpts_keywordless {opts : List SelectionOpt}
    (h : ∀ opt ∈ opts, Keywordless opt.arg) : selectionOpts opts options = some options := by
  induction opts with
  | nil => rfl
  | cons opt opts ih =>
      rw [selectionOpts, List.foldlM_cons, SelectionOpt.call_eq,
        parseSelFunction_keywordless (h opt (List.mem_cons_self ..))]
      exact ih fun o ho => h o (List.mem_cons_of_mem _ ho)

/-- A selection option changes the function and the chain, and nothing else. -/
theorem parseSelFunction_frame (hparse : parseSelFunction arg options = some out) :
    out = { options with selectionFunction := out.selectionFunction, rSel := out.rSel } := by
  rw [parseSelFunction, selfunctionLoop_eq] at hparse
  rcases List.eq_nil_or_concat' (selfunctions.filter (fits arg)) with hnil | ⟨rows, row, hrows⟩
  · rw [hnil] at hparse
    rw [← Option.some.inj hparse]
  · rw [hrows] at hparse
    obtain ⟨chain, -, hout⟩ := foldlM_install hparse
    rw [hout]

theorem selectionOpts_frame {opts : List SelectionOpt} :
    ∀ {options out : Options}, selectionOpts opts options = some out →
      out = { options with selectionFunction := out.selectionFunction, rSel := out.rSel } := by
  induction opts with
  | nil =>
      intro options out h
      rw [← Option.some.inj h]
  | cons opt opts ih =>
      intro options out h
      rw [selectionOpts, List.foldlM_cons, SelectionOpt.call_eq] at h
      obtain ⟨mid, hmid, hout⟩ := Option.bind_eq_some_iff.mp h
      rw [ih hout, parseSelFunction_frame hmid]

/-- **THE LAST OPTION WINS** — of a command line only the last argument with a
    keyword counts. -/
theorem selectionOpts_last {before after : List SelectionOpt} {opt : SelectionOpt} {row : Row}
    (hlongest : Longest opt.arg row) (hafter : ∀ o ∈ after, Keywordless o.arg)
    (h : selectionOpts (before ++ opt :: after) options = some out) :
    ∃ chain, parseRange (opt.arg.drop row.1.length) = some chain ∧
      out = { options with selectionFunction := row.2, rSel := chain } := by
  rw [selectionOpts, List.foldlM_append] at h
  obtain ⟨mid, hmid, h⟩ := Option.bind_eq_some_iff.mp h
  rw [List.foldlM_cons, SelectionOpt.call_eq] at h
  obtain ⟨last, hlast, h⟩ := Option.bind_eq_some_iff.mp h
  have hout : last = out :=
    Option.some.inj ((selectionOpts_keywordless hafter).symm.trans h)
  obtain ⟨chain, hparse, hrow⟩ := parseSelFunction_longest hlongest hlast
  refine ⟨chain, hparse, ?_⟩
  rw [← hout, hrow, selectionOpts_frame hmid]

/-! ## A keyword and a list behind it -/

/-- `list` is empty or a list of items. -/
inductive OptionList : CStr → List RangeSelect → Prop where
  | empty : OptionList [] [⟨0, 0⟩]
  | items (first : Item) (rest : List Item) :
      OptionList (listText first rest) ((first :: rest).map Item.node)

theorem parseRange_optionList {list : CStr} {chain : List RangeSelect}
    (h : OptionList list chain) : parseRange list = some chain := by
  cases h with
  | empty => exact parseRangeLoop_end rfl rfl
  | items first rest => exact parseRange_list first rest

theorem numeral_cons (n : Numeral) : ∃ d t, n.text = digitChar d :: t := by
  obtain ⟨d, ds, hd⟩ := List.exists_cons_of_ne_nil n.ne_nil
  refine ⟨d, ds.map digitChar, ?_⟩
  rw [Numeral.text, hd]
  rfl

theorem listText_cons (first : Item) (rest : List Item) :
    ∃ d t, listText first rest = digitChar d :: t := by
  have hitem : ∃ d t, first.text = digitChar d :: t := by
    cases first with
    | byte n => exact numeral_cons n
    | range n modifier m =>
        obtain ⟨d, t, ht⟩ := numeral_cons n
        refine ⟨d, t ++ modifier.char :: m.text, ?_⟩
        rw [Item.text, ht]
        rfl
  obtain ⟨d, t, ht⟩ := hitem
  cases rest with
  | nil => exact ⟨d, t, ht⟩
  | cons next rest =>
      refine ⟨d, t ++ ch ',' :: listText next rest, ?_⟩
      rw [listText, ht]
      rfl

/-- The only character that extends a keyword to another one. -/
theorem selfunctions_extension : ∀ row ∈ selfunctions, ∀ row' ∈ selfunctions,
    row.1.map tolower <+: row'.1.map tolower → row.1.length < row'.1.length →
      (row'.1.map tolower)[row.1.length]? = some (ch '+') := by
  decide +kernel

theorem tolower_digitChar (d : Fin 10) : tolower (digitChar d) ≠ ch '+' := by
  revert d
  decide

section Lists

variable {row row' : Row} {kw list : CStr} {chain : List RangeSelect}

theorem length_of_written (hkw : kw.map tolower = row.1.map tolower) :
    kw.length = row.1.length := by
  have hmap := congrArg List.length hkw
  rwa [List.length_map, List.length_map] at hmap

/-- Behind a keyword, a list makes no other keyword fit than those the keyword
    begins with. -/
theorem fits_keyword (hrow : row ∈ selfunctions) (hkw : kw.map tolower = row.1.map tolower)
    (hlist : OptionList list chain) (hrow' : row' ∈ selfunctions) :
    fits (kw ++ list) row' = true ↔ row'.1.map tolower <+: row.1.map tolower := by
  rw [fits_iff, List.map_append, hkw]
  constructor
  · intro h
    rcases Nat.lt_or_ge row.1.length row'.1.length with hlt | hle
    -- a longer keyword would go on with the first character of the list
    · have hpre : row.1.map tolower <+: row'.1.map tolower := by
        refine List.prefix_of_prefix_length_le (List.prefix_append _ _) h ?_
        rw [List.length_map, List.length_map]
        exact Nat.le_of_lt hlt
      have hplus := selfunctions_extension row hrow row' hrow' hpre hlt
      obtain ⟨t, ht⟩ := h
      have hchar : (row.1.map tolower ++ list.map tolower)[row.1.length]? = some (ch '+') := by
        have hlt' : row.1.length < (row'.1.map tolower).length := by
          rw [List.length_map]
          exact hlt
        rw [← ht, List.getElem?_append_left hlt', hplus]
      rw [List.getElem?_append_right (by rw [List.length_map]), List.length_map,
        Nat.sub_self] at hchar
      cases hlist with
      | empty => cases hchar
      | items first rest =>
          obtain ⟨d, t', hd⟩ := listText_cons first rest
          rw [hd] at hchar
          exact absurd (Option.some.inj hchar) (tolower_digitChar d)
    · refine List.prefix_of_prefix_length_le h (List.prefix_append _ _) ?_
      rw [List.length_map, List.length_map]
      exact hle
  · exact fun h => h.trans (List.prefix_append _ _)

theorem longest_keyword (hrow : row ∈ selfunctions)
    (hkw : kw.map tolower = row.1.map tolower) (hlist : OptionList list chain) :
    Longest (kw ++ list) row where
  mem := hrow
  fits := (fits_keyword hrow hkw hlist hrow).mpr (List.prefix_refl _)
  longest row' hrow' hfit := by
    have hle := ((fits_keyword hrow hkw hlist hrow').mp hfit).length_le
    rw [List.length_map, List.length_map] at hle
    exact hle

/-! ### `IP` in front of `+TP`

    The one keyword that begins another one: its row parses `+TP` and the list
    behind it, and must not overflow on the way. -/

theorem selfunctions_begins : ∀ row ∈ selfunctions, ∀ row' ∈ selfunctions,
    row'.1.map tolower <+: row.1.map tolower →
      row' = row ∨ (row'.1.length = 2 ∧ row.1 = str "IP+TP") := by
  decide +kernel

theorem tolower_eq_plus {c : UInt8} (h : tolower c = ch '+') : c = ch '+' := by
  rw [tolower] at h
  split at h
  · next hupper =>
      have hnat := congrArg UInt8.toNat h
      rw [UInt8.toNat_add] at hnat
      change (c.toNat + 32) % 256 = 43 at hnat
      rw [Bool.and_eq_true, decide_eq_true_iff, decide_eq_true_iff] at hupper
      have hge : 65 ≤ c.toNat := UInt8.le_iff_toNat_le.mp hupper.1
      have hle : c.toNat ≤ 90 := UInt8.le_iff_toNat_le.mp hupper.2
      omega
  · exact h

/-- Separators have no case. -/
theorem tolower_separator {c : UInt8} (h : c ∈ rangeSeparators) : tolower c = c := by
  have hall : rangeSeparators.all (fun c => tolower c == c) = true := rfl
  exact eq_of_beq (List.all_eq_true.mp hall c h)

theorem not_separator {c y : UInt8} (h : tolower c = y) (hy : y ∉ rangeSeparators) :
    c ∉ rangeSeparators := by
  intro hc
  rw [tolower_separator hc] at h
  exact hy (h ▸ hc)

/-- Digits have none either. -/
theorem not_digit {c y : UInt8} (h : tolower c = y) (hy : isdigit y = false) :
    isdigit c = false := by
  by_contra hdigit
  rw [Bool.not_eq_false] at hdigit
  have hle : c ≤ 57 := by
    rw [isdigit, Bool.and_eq_true] at hdigit
    exact of_decide_eq_true hdigit.2
  have hsame : tolower c = c := by
    rw [tolower, if_neg]
    rw [Bool.and_eq_true, decide_eq_true_iff]
    intro hupper
    have hge : 65 ≤ c.toNat := UInt8.le_iff_toNat_le.mp hupper.1
    have hle' : c.toNat ≤ 57 := UInt8.le_iff_toNat_le.mp hle
    omega
  rw [← h, hsame, hdigit] at hy
  exact Bool.noConfusion hy

/-- `+TP` as it may be written. -/
theorem plusTP_of_written {kw : CStr} (h : kw.map tolower = (str "IP+TP").map tolower) :
    ∃ c d, kw.drop 2 = [ch '+', c, d] ∧ tolower c = ch 't' ∧ tolower d = ch 'p' := by
  change kw.map tolower = [ch 'i', ch 'p', ch '+', ch 't', ch 'p'] at h
  obtain ⟨a, kw, rfl, -, h⟩ := List.map_eq_cons_iff.mp h
  obtain ⟨b, kw, rfl, -, h⟩ := List.map_eq_cons_iff.mp h
  obtain ⟨p, kw, rfl, hp, h⟩ := List.map_eq_cons_iff.mp h
  obtain ⟨c, kw, rfl, hc, h⟩ := List.map_eq_cons_iff.mp h
  obtain ⟨d, kw, rfl, hd, h⟩ := List.map_eq_cons_iff.mp h
  obtain rfl := List.map_eq_nil_iff.mp h
  obtain rfl := tolower_eq_plus hp
  exact ⟨c, d, rfl, hc, hd⟩

variable {c d : UInt8}

theorem strcspn_cons {c : UInt8} (hc : c ∉ rangeSeparators) (t : CStr) :
    strcspn (c :: t) rangeSeparators = strcspn t rangeSeparators + 1 := by
  have hkeep : (!rangeSeparators.contains c) = true := by
    rw [Bool.not_eq_true', Bool.eq_false_iff, ne_eq, List.contains_iff_mem]
    exact hc
  rw [strcspn, List.takeWhile_cons, hkeep, if_pos rfl]
  rfl

/-- No modifier overflows on a node that starts at 0. -/
theorem applySeparator_zero (modifier : Modifier) (length : Nat) (m : Numeral) :
    ∃ range', applySeparator modifier.char ⟨0, length⟩ m.value m.text.length = some range' := by
  have hm : m.value < 2147483647 := m.value_lt
  cases modifier with
  | including => exact ⟨_, if_pos (show m.value + 1 - 0 ≤ 2147483647 by omega)⟩
  | excluding => exact ⟨_, rfl⟩
  | excludingRight => exact ⟨_, rfl⟩
  | excludingLeft => exact ⟨_, rfl⟩
  | plus => exact ⟨_, rfl⟩
  | colon => exact ⟨_, rfl⟩

/-- The letters of `+TP` and a number are one piece, which sets a length and
    leaves the offset at 0. -/
theorem parseRangeLoop_letters_last (hc : c ∉ rangeSeparators) (hd : d ∉ rangeSeparators)
    (length : Nat) (n : Numeral) :
    ∃ length', parseRangeLoop [] ⟨0, length⟩ (ch '+') (c :: d :: n.text)
      = some [⟨0, length'⟩] := by
  have hspan := strcspn_numeral n stops_nil
  rw [List.append_nil] at hspan
  have hpiece : strcspn (c :: d :: n.text) rangeSeparators = (c :: d :: n.text).length := by
    rw [strcspn_cons hc, strcspn_cons hd, hspan]
    rfl
  exact ⟨_, parseRangeLoop_end hpiece rfl⟩

theorem parseRangeLoop_letters_next (hc : c ∉ rangeSeparators) (hd : d ∉ rangeSeparators)
    (length : Nat) (n : Numeral) {s : UInt8} (hs : s ∈ rangeSeparators) (next : CStr) :
    ∃ length', parseRangeLoop [] ⟨0, length⟩ (ch '+') (c :: d :: (n.text ++ s :: next)) =
      if s = ch ',' then parseRangeLoop [⟨0, length'⟩] ⟨0, length'⟩ s next
      else parseRangeLoop [] ⟨0, length'⟩ s next := by
  have hpiece : strcspn ((c :: d :: n.text) ++ s :: next) rangeSeparators
      = (c :: d :: n.text).length := by
    show strcspn (c :: d :: (n.text ++ s :: next)) rangeSeparators = _
    rw [strcspn_cons hc, strcspn_cons hd, strcspn_numeral n (stops_cons hs)]
    rfl
  exact ⟨_, parseRangeLoop_piece hpiece rfl⟩

/-- The list behind `+TP` is read to its end. -/
theorem parseRangeLoop_letters (hc : c ∉ rangeSeparators) (hd : d ∉ rangeSeparators)
    (length : Nat) (first : Item) (rest : List Item) :
    (parseRangeLoop [] ⟨0, length⟩ (ch '+') (c :: d :: listText first rest)).isSome := by
  have hcomma : ch ',' ∈ rangeSeparators := by decide
  cases first with
  | byte n =>
      cases rest with
      | nil =>
          obtain ⟨length', hlast⟩ := parseRangeLoop_letters_last hc hd length n
          show (parseRangeLoop _ _ _ (c :: d :: n.text)).isSome
          rw [hlast]
          rfl
      | cons next rest =>
          obtain ⟨length', hnext⟩ :=
            parseRangeLoop_letters_next hc hd length n hcomma (listText next rest)
          show (parseRangeLoop _ _ _ (c :: d :: (n.text ++ ch ',' :: listText next rest))).isSome
          rw [hnext, if_pos rfl, parseRangeLoop_list rest next _ _ _ (Or.inr rfl)]
          rfl
  | range n modifier m =>
      obtain ⟨hmem, hne⟩ := modifier_mem modifier
      cases rest with
      | nil =>
          obtain ⟨length', hnext⟩ :=
            parseRangeLoop_letters_next hc hd length n hmem m.text
          obtain ⟨range', hrange⟩ := applySeparator_zero modifier length' m
          show (parseRangeLoop _ _ _ (c :: d :: (n.text ++ modifier.char :: m.text))).isSome
          rw [hnext, if_neg hne, parseRangeLoop_last m hrange]
          rfl
      | cons next rest =>
          obtain ⟨length', hnext⟩ := parseRangeLoop_letters_next hc hd length n hmem
            (m.text ++ ch ',' :: listText next rest)
          obtain ⟨range', hrange⟩ := applySeparator_zero modifier length' m
          show (parseRangeLoop _ _ _
            (c :: d ::
              ((n.text ++ modifier.char :: m.text) ++ ch ',' :: listText next rest))).isSome
          rw [List.append_assoc, List.cons_append, hnext, if_neg hne,
            parseRangeLoop_next m hcomma hrange, if_pos rfl,
            parseRangeLoop_list rest next _ _ _ (Or.inr rfl)]
          rfl

theorem parseRange_plusTP (hc : c ∉ rangeSeparators) (hd : d ∉ rangeSeparators)
    (hdigit : isdigit c = false) (hlist : OptionList list chain) :
    (parseRange (ch '+' :: c :: d :: list)).isSome := by
  -- the empty piece in front of `+` makes the node (0,0)
  have hvalue : (atoi (ch '+' :: c :: d :: list)).toNat = 0 := by
    have hnumber : digitsValue (c :: d :: list) = 0 := by
      rw [digitsValue, List.takeWhile_cons_of_neg (by rw [hdigit]; exact Bool.false_ne_true)]
      rfl
    have hstrtol : strtol (ch '+' :: c :: d :: list) = 0 := by
      show min (digitsValue (c :: d :: list) : Int) 9223372036854775807 = 0
      rw [hnumber]
      rfl
    rw [atoi, hstrtol]
    rfl
  have happly : applySeparator 0 ⟨0, 0⟩ (atoi (([] : CStr) ++ ch '+' :: c :: d :: list)).toNat
      ([] : CStr).length = some ⟨0, 0⟩ := by
    rw [List.nil_append, hvalue]
    rfl
  have hempty : strcspn (([] : CStr) ++ ch '+' :: c :: d :: list) rangeSeparators
      = ([] : CStr).length := rfl
  have hstart : parseRange (ch '+' :: c :: d :: list)
      = parseRangeLoop [] ⟨0, 0⟩ (ch '+') (c :: d :: list) :=
    (parseRangeLoop_piece hempty happly).trans (if_neg (by decide))
  rw [hstart]
  cases hlist with
  | empty =>
      have hpiece : strcspn [c, d] rangeSeparators = [c, d].length := by
        rw [strcspn_cons hc, strcspn_cons hd]
        rfl
      rw [parseRangeLoop_end hpiece rfl]
      rfl
  | items first rest => exact parseRangeLoop_letters hc hd 0 first rest

/-! ### What an option with a list leaves -/

/-- No keyword that fits overflows on the list. -/
theorem parseRange_fitting (hrow : row ∈ selfunctions)
    (hkw : kw.map tolower = row.1.map tolower) (hlist : OptionList list chain)
    (hrow' : row' ∈ selfunctions) (hfit : fits (kw ++ list) row' = true) :
    (parseRange ((kw ++ list).drop row'.1.length)).isSome := by
  have hlen := length_of_written hkw
  rcases selfunctions_begins row hrow row' hrow'
      ((fits_keyword hrow hkw hlist hrow').mp hfit) with rfl | ⟨htwo, hiptp⟩
  · rw [← hlen, List.drop_left, parseRange_optionList hlist]
    rfl
  · rw [hiptp] at hkw
    obtain ⟨c, d, hdrop, hc, hd⟩ := plusTP_of_written hkw
    have hle : 2 ≤ kw.length := by
      rw [hlen, hiptp]
      decide
    rw [htwo, List.drop_append_of_le_length hle, hdrop]
    exact parseRange_plusTP (not_separator hc (by decide)) (not_separator hd (by decide))
      (not_digit hc (by decide)) hlist

/-- **KEYWORD AND LIST** — one node for every item, in order. -/
theorem parseSelFunction_list (hrow : row ∈ selfunctions)
    (hkw : kw.map tolower = row.1.map tolower) (hlist : OptionList list chain)
    (options : Options) :
    parseSelFunction (kw ++ list) options
      = some { options with selectionFunction := row.2, rSel := chain } := by
  have hsome : (parseSelFunction (kw ++ list) options).isSome :=
    (parseSelFunction_isSome _ _).mpr fun row' hrow' hfit =>
      parseRange_fitting hrow hkw hlist hrow' hfit
  obtain ⟨out, hout⟩ := Option.isSome_iff_exists.mp hsome
  obtain ⟨chain', hchain, rfl⟩ := parseSelFunction_longest (longest_keyword hrow hkw hlist) hout
  have hlen := length_of_written hkw
  rw [← hlen, List.drop_left, parseRange_optionList hlist] at hchain
  rw [hout, Option.some.inj hchain]

end Lists

/-! ## The longest keyword -/

/-- An argument has at most one longest keyword. -/
theorem Longest.unique {row row' : Row} (h : Longest arg row) (h' : Longest arg row') :
    row = row' := by
  obtain ⟨rows, hrows⟩ := fitting_eq h
  obtain ⟨rows', hrows'⟩ := fitting_eq h'
  have heq := congrArg List.getLast? (hrows.symm.trans hrows')
  rw [List.getLast?_concat, List.getLast?_concat] at heq
  exact Option.some.inj heq

/-- And it has one as soon as a keyword fits. -/
theorem keywordless_or_longest (arg : CStr) : Keywordless arg ∨ ∃ row, Longest arg row := by
  rcases List.eq_nil_or_concat' (selfunctions.filter (fits arg)) with hnil | ⟨rows, row, hrows⟩
  · refine Or.inl fun row hmem => ?_
    exact Bool.eq_false_iff.mpr (List.filter_eq_nil_iff.mp hnil row hmem)
  · have hlast : row ∈ selfunctions.filter (fits arg) := by
      rw [hrows]
      exact List.mem_append_right _ (List.mem_singleton_self row)
    obtain ⟨hmem, hfit⟩ := List.mem_filter.mp hlast
    refine Or.inr ⟨row, hmem, hfit, ?_⟩
    -- every other row that fits stands before this one
    intro row' hmem' hfit'
    have hin : row' ∈ rows ++ [row] := by
      rw [← hrows]
      exact List.mem_filter.mpr ⟨hmem', hfit'⟩
    have hpair := List.Pairwise.filter (fits arg) selfunctions_pairwise
    rw [hrows, List.pairwise_append] at hpair
    rcases List.mem_append.mp hin with hbefore | hself
    · have hnot := hpair.2.2 row' hbefore row (List.mem_singleton_self row)
      exact Nat.le_of_lt (length_lt_of_fits hnot hfit' hfit)
    · rw [List.mem_singleton.mp hself]

/-! ## The whole command line -/

/-- Whether a command line runs into an overflow is a matter of its arguments,
    not of their order. -/
theorem selectionOpts_isSome {opts : List SelectionOpt} :
    ∀ options, (selectionOpts opts options).isSome ↔ ∀ opt ∈ opts, Parses opt.arg := by
  induction opts with
  | nil => exact fun _ => iff_of_true rfl fun _ h => absurd h List.not_mem_nil
  | cons opt opts ih =>
      intro options
      rw [selectionOpts, List.foldlM_cons, SelectionOpt.call_eq, List.forall_mem_cons,
        ← parseSelFunction_isSome opt.arg options]
      cases parseSelFunction opt.arg options with
      | none => exact iff_of_false (fun h => Bool.noConfusion h) fun h => Bool.noConfusion h.1
      | some out =>
          constructor
          · exact fun h => ⟨rfl, (ih out).mp h⟩
          · exact fun h => (ih out).mpr h.2

/-- A keyword in any case, with a list of items or nothing behind it. -/
def KeywordAndList (arg : CStr) (row : Row) (chain : List RangeSelect) : Prop :=
  row ∈ selfunctions ∧ ∃ kw list, arg = kw ++ list ∧ kw.map tolower = row.1.map tolower ∧
    OptionList list chain

/-- **SELECTION OPTIONS** — the last argument with a keyword decides, by its
    longest one; of a keyword and a list it makes one node for every item, with
    no overflow in any of the rows that fit. -/
theorem selection_options (opts : List SelectionOpt) (options : Options) :
    (∀ arg, Keywordless arg ∨ ∃ row, Longest arg row ∧ ∀ row', Longest arg row' → row' = row) ∧
    ((selectionOpts opts options).isSome ↔ ∀ opt ∈ opts, Parses opt.arg) ∧
    (∀ out, selectionOpts opts options = some out →
      ((∀ opt ∈ opts, Keywordless opt.arg) → out = options) ∧
      ∀ before opt after row, opts = before ++ opt :: after → Longest opt.arg row →
        (∀ o ∈ after, Keywordless o.arg) →
        ∃ chain, parseRange (opt.arg.drop row.1.length) = some chain ∧
          out = { options with selectionFunction := row.2, rSel := chain }) ∧
    ∀ arg row chain, KeywordAndList arg row chain →
      Longest arg row ∧ Parses arg ∧ parseRange (arg.drop row.1.length) = some chain := by
  refine ⟨?_, selectionOpts_isSome options, ?_, ?_⟩
  · intro arg
    rcases keywordless_or_longest arg with hnone | ⟨row, hrow⟩
    · exact Or.inl hnone
    · exact Or.inr ⟨row, hrow, fun row' hrow' => hrow'.unique hrow⟩
  · intro out hout
    constructor
    · intro hnone
      exact Option.some.inj (hout.symm.trans (selectionOpts_keywordless hnone))
    · rintro before opt after row rfl hlongest hafter
      exact selectionOpts_last hlongest hafter hout
  · rintro arg row chain ⟨hrow, kw, list, rfl, hkw, hlist⟩
    have hlongest := longest_keyword hrow hkw hlist
    have hparse := parseSelFunction_list hrow hkw hlist options
    refine ⟨hlongest, ?_, ?_⟩
    · rw [← parseSelFunction_isSome _ options, hparse]
      rfl
    · rw [← length_of_written hkw, List.drop_left, parseRange_optionList hlist]

/-- A preset, a keyword that begins with another one, in mixed case and with a list,
    and an argument without a keyword. -/
def iptpOpts : List SelectionOpt := [.s (str "RAW4"), .S (str "Ip+tP20,34-45"), .s (str "20")]

/-- The second of them decides. -/
theorem selection_options_iptp :
    Longest (str "Ip+tP20,34-45") (str "IP+TP", .uTcpAndNet) ∧
      selectionOpts iptpOpts Settings.selectAll = some { Settings.selectAll with
        selectionFunction := .uTcpAndNet, rSel := [⟨20, 1⟩, ⟨34, 12⟩] } := by
  obtain ⟨-, hsome, hout, hlist⟩ := selection_options iptpOpts Settings.selectAll
  obtain ⟨-, hraw, -⟩ := hlist (str "RAW4") (str "RAW", .raw) _
    ⟨by decide, str "RAW", str "4", rfl, rfl, .items (.byte ⟨[4], by decide, by decide⟩) []⟩
  obtain ⟨hlongest, hiptp, hchain⟩ := hlist (str "Ip+tP20,34-45") (str "IP+TP", .uTcpAndNet) _
    ⟨by decide, str "Ip+tP", str "20,34-45", rfl, rfl, .items (.byte ⟨[2, 0], by decide, by decide⟩)
      [.range ⟨[3, 4], by decide, by decide⟩ .including ⟨[4, 5], by decide, by decide⟩]⟩
  have hnone : Keywordless (str "20") := by
    unfold Keywordless
    decide +kernel
  have hparses : ∀ opt ∈ iptpOpts, Parses opt.arg := by
    intro opt hopt
    rcases List.mem_cons.mp hopt with rfl | hopt
    · exact hraw
    · rcases List.mem_cons.mp hopt with rfl | hopt
      · exact hiptp
      · obtain rfl := List.mem_singleton.mp hopt
        exact fun row hrow hfit => Bool.noConfusion (hfit.symm.trans (hnone row hrow))
  obtain ⟨out, hrun⟩ := Option.isSome_iff_exists.mp (hsome.mpr hparses)
  obtain ⟨chain, hparse, hlast⟩ := (hout out hrun).2 [.s (str "RAW4")] (.S (str "Ip+tP20,34-45"))
    [.s (str "20")] _ rfl hlongest fun o ho => List.mem_singleton.mp ho ▸ hnone
  obtain rfl := Option.some.inj (hparse.symm.trans hchain)
  exact ⟨hlongest, hrun.trans (congrArg some hlast)⟩

end Impd4e.SelectionOptions
