import Impd4e.ConfigFile

/-! # The words of the command line

    `parse_cmdline_v2` writes the option string out of `cfg_opt_list`, lets
    `getopt` take the words of the command line apart, and calls the option
    function of every letter it returns.  `getopt` is the one of the C library: it
    passes over words that are no options, and a word may hold several letters.

    `Spells` is the form of a command line as `print_help` and the manual page
    have it; `getopt_spells_iff` says that exactly these are accepted, and
    taken for what they spell. -/

namespace Impd4e.CommandLine

open Impd4e.CString Impd4e.ConfigFile

/-! ## The option string -/

/-- `opt_need_param`, of the entry of a letter. -/
def optNeedParam (optLetter : UInt8) : CStr :=
  if optLetter = ch 'v' then str "::"
  else if optLetter ∈ [ch 'V', ch 'h', ch '4', ch '6', ch 'u', ch 'n', ch 'y'] then str ""
  else str ":"

/-- `sprintf(tmp, "%c%s", …)` -/
def sprintfOption (entry : ConfigMap) : CStr :=
  entry.optLetter :: optNeedParam entry.optLetter

/-- The array `par`. -/
def par : CStr := cfgOptList.flatMap sprintfOption

/-- What `getopt` knows of the argument of a letter. -/
inductive Need where
  | no
  | required
  | optional
  deriving DecidableEq, Repr

/-- The colons behind a letter. -/
def need : CStr → Need
  | [] => .no
  | c :: rest =>
      if c = ch ':' then if rest.head? = some (ch ':') then .optional else .required else .no

/-- The letter looked up in an option string; `none` where it is not there. -/
def lookup (optstring : CStr) (c : UInt8) : Option Need :=
  if c = ch ':' ∨ c = ch ';' then none
  else
    match optstring.dropWhile (· ≠ c) with
    | [] => none
    | _ :: rest => some (need rest)

/-- `find_opt_function_char`: the letter of the function; `none` is
    `opt_unknown_parameter`. -/
def findOptFunctionChar (c : UInt8) : Option UInt8 :=
  (cfgOptList.find? fun entry => c = entry.optLetter).map ConfigMap.optLetter

/-! ## `getopt` -/

/-- What one call of `getopt` returns, with `optarg`. -/
structure Found where
  c : UInt8
  optarg : Option CStr
  deriving DecidableEq, Repr

/-- A letter that is not there, or whose argument is missing. -/
def unknown : Found := ⟨ch '?', none⟩

/-- The letters of one word, and the letter whose argument is the next word. -/
def letters : CStr → List Found × Option UInt8
  | [] => ([], none)
  | c :: rest =>
      match lookup par c with
      | none => (unknown :: (letters rest).1, (letters rest).2)
      | some .no => (⟨c, none⟩ :: (letters rest).1, (letters rest).2)
      | some .optional => ([⟨c, if rest = [] then none else some rest⟩], none)
      | some .required => if rest = [] then ([], some c) else ([⟨c, some rest⟩], none)

/-- A word without a hyphen in front, or nothing but one. -/
def Operand (word : CStr) : Prop := word.head? ≠ some (ch '-') ∨ word = [ch '-']

instance (word : CStr) : Decidable (Operand word) := by
  unfold Operand
  infer_instance

/-- All calls of `getopt` on the words; the first argument is a letter that still
    has to have its argument. -/
def getopt : Option UInt8 → List CStr → List Found
  | none, [] => []
  | some _, [] => [unknown]
  | some c, word :: words => ⟨c, some word⟩ :: getopt none words
  | none, word :: words =>
      if Operand word then getopt none words
      else if word = str "--" then []
      else (letters word.tail).1 ++ getopt (letters word.tail).2 words

/-! ## `parse_cmdline_v2` -/

variable {σ : Type}

/-- The option functions; `none` is a function that ends the program. -/
abbrev OptFunctions (σ : Type) := UInt8 → Option CStr → σ → Option σ

/-- The loop of `parse_cmdline_v2`: an unknown option ends the program. -/
def callOptFunctions (fct : OptFunctions σ) : List Found → σ → Option σ
  | [], s => some s
  | found :: rest, s =>
      match findOptFunctionChar found.c with
      | none => none
      | some c =>
          match fct c found.optarg s with
          | none => none
          | some s' => callOptFunctions fct rest s'

def parseCmdlineV2 (fct : OptFunctions σ) (words : List CStr) (s : σ) : Option σ :=
  callOptFunctions fct (getopt none words) s

/-! ### What `getopt` knows of the table -/

theorem need_append {colons rest : CStr} (hcolons : colons ∈ [str "", str ":", str "::"])
    (hrest : rest.head? ≠ some (ch ':')) : need (colons ++ rest) = need colons := by
  have hbare : need rest = .no := by
    cases rest with
    | nil => rfl
    | cons c rest => exact if_neg fun hc => hrest (congrArg some hc)
  rcases List.mem_cons.mp hcolons with rfl | hcolons
  · exact hbare
  · rcases List.mem_cons.mp hcolons with rfl | hcolons
    · change (if rest.head? = some (ch ':') then Need.optional else Need.required) = .required
      exact if_neg hrest
    · obtain rfl := List.mem_singleton.mp hcolons
      rfl

theorem optNeedParam_mem (c : UInt8) : optNeedParam c ∈ [str "", str ":", str "::"] := by
  rw [optNeedParam]
  split
  · exact List.mem_cons_of_mem _ (List.mem_cons_of_mem _ List.mem_cons_self)
  · split
    · exact List.mem_cons_self
    · exact List.mem_cons_of_mem _ List.mem_cons_self

/-- The colons of the table are no letters. -/
theorem optNeedParam_colons {c d : UInt8} (hd : d ∈ optNeedParam c) : d = ch ':' := by
  have h := optNeedParam_mem c
  rcases List.mem_cons.mp h with h | h
  · rw [h] at hd
    cases hd
  · rcases List.mem_cons.mp h with h | h
    · rw [h] at hd
      exact List.mem_singleton.mp hd
    · rw [List.mem_singleton.mp h] at hd
      rcases List.mem_cons.mp hd with hd | hd
      · exact hd
      · exact List.mem_singleton.mp hd

/-- The first letter of a table is a letter, and no colon. -/
theorem head_flatMap_ne {table : List ConfigMap}
    (hletters : ∀ entry ∈ table, entry.optLetter ≠ ch ':') :
    (table.flatMap sprintfOption).head? ≠ some (ch ':') := by
  cases table with
  | nil => exact (Option.some_ne_none _).symm
  | cons entry table =>
      intro h
      exact hletters entry List.mem_cons_self (Option.some.inj h)

/-- A letter is found where its entry stands, and its own colons follow it. -/
theorem dropWhile_flatMap {c : UInt8} (hc : c ≠ ch ':') {table : List ConfigMap}
    (hletters : ∀ entry ∈ table, entry.optLetter ≠ ch ':') :
    (match (table.flatMap sprintfOption).dropWhile (· ≠ c) with
      | [] => none
      | _ :: rest => some (need rest)) =
    (table.find? fun entry => c = entry.optLetter).map fun entry =>
      need (optNeedParam entry.optLetter) := by
  induction table with
  | nil => rfl
  | cons entry table ih =>
      have hrest : ∀ entry ∈ table, entry.optLetter ≠ ch ':' :=
        fun e he => hletters e (List.mem_cons_of_mem _ he)
      by_cases h : c = entry.optLetter
      · rw [List.find?_cons_of_pos (by exact decide_eq_true h), List.flatMap_cons, sprintfOption,
          List.cons_append, List.dropWhile_cons_of_neg (by simp [h])]
        exact congrArg some (need_append (optNeedParam_mem _) (head_flatMap_ne hrest))
      · have hskip : ∀ d ∈ sprintfOption entry, decide (d ≠ c) = true := by
          intro d hd
          refine decide_eq_true ?_
          rcases List.mem_cons.mp hd with rfl | hd
          · exact Ne.symm h
          · rw [optNeedParam_colons hd]
            exact Ne.symm hc
        rw [List.find?_cons_of_neg (by simpa using h), List.flatMap_cons,
          List.dropWhile_append_of_pos hskip]
        exact ih hrest

theorem cfgOptList_letters :
    ∀ entry ∈ cfgOptList, entry.optLetter ≠ ch ':' ∧ entry.optLetter ≠ ch ';' ∧
      entry.optLetter ≠ ch '?' ∧ entry.optLetter ≠ ch '-' := by decide +kernel

/-- **`getopt` and the table agree**: a letter is known to `getopt` where it has a
    function, and takes the argument its entry says. -/
theorem lookup_par (c : UInt8) :
    lookup par c = (findOptFunctionChar c).map fun letter => need (optNeedParam letter) := by
  rw [lookup, findOptFunctionChar, Option.map_map]
  split
  · rename_i h
    have hnone : (cfgOptList.find? fun entry => c = entry.optLetter) = none := by
      rw [List.find?_eq_none]
      intro entry hentry heq
      obtain ⟨hcolon, hsemi, -, -⟩ := cfgOptList_letters entry hentry
      have hc := of_decide_eq_true heq
      exact h.elim (fun h => hcolon (hc.symm.trans h)) fun h => hsemi (hc.symm.trans h)
    rw [hnone]
    rfl
  · rename_i h
    exact dropWhile_flatMap (fun hc => h (Or.inl hc)) fun entry hentry =>
      (cfgOptList_letters entry hentry).1

theorem findOptFunctionChar_eq {c c' : UInt8} (h : findOptFunctionChar c = some c') : c' = c := by
  obtain ⟨entry, hfind, rfl⟩ := Option.map_eq_some_iff.mp h
  have heq := List.find?_some hfind
  exact (of_decide_eq_true heq).symm

/-- The characters that are no letters of options. -/
theorem findOptFunctionChar_none {c : UInt8} (hc : c = ch '?' ∨ c = ch '-') :
    findOptFunctionChar c = none := by
  rw [findOptFunctionChar, Option.map_eq_none_iff, List.find?_eq_none]
  intro entry hentry heq
  obtain ⟨-, -, hq, hhyphen⟩ := cfgOptList_letters entry hentry
  have heq := of_decide_eq_true heq
  exact hc.elim (fun hc => hq (heq.symm.trans hc)) fun hc => hhyphen (heq.symm.trans hc)

/-- The letter has an option function. -/
def Known (found : Found) : Prop := (findOptFunctionChar found.c).isSome

theorem not_known_unknown : ¬ Known unknown := by
  have hnone : findOptFunctionChar unknown.c = none := findOptFunctionChar_none (Or.inl rfl)
  rw [Known, hnone]
  exact Bool.false_ne_true

theorem known_of_lookup {c : UInt8} {n : Need} (h : lookup par c = some n)
    (optarg : Option CStr) : Known ⟨c, optarg⟩ := by
  rw [lookup_par] at h
  obtain ⟨letter, hfind, -⟩ := Option.map_eq_some_iff.mp h
  rw [Known, hfind]
  rfl

/-! ## Command lines as they are meant -/

/-- A letter of the table without an argument. -/
def Flag (c : UInt8) : Prop := lookup par c = some .no

/-- A letter of the table that takes one. -/
def Takes (c : UInt8) : Prop := lookup par c = some .required ∨ lookup par c = some .optional

def flag (c : UInt8) : Found := ⟨c, none⟩

/-- `Spells words found`: the words give the options `found`, in order. -/
inductive Spells : List CStr → List Found → Prop where
  | nil : Spells [] []
  /-- `--` ends the options -/
  | stop (words : List CStr) : Spells (str "--" :: words) []
  | operand {word : CStr} {words : List CStr} {found : List Found} :
      Operand word → Spells words found → Spells (word :: words) found
  /-- `-Vhn` -/
  | flags {cs : CStr} {words : List CStr} {found : List Found} :
      cs ≠ [] → (∀ c ∈ cs, Flag c) → Spells words found →
      Spells ((ch '-' :: cs) :: words) (cs.map flag ++ found)
  /-- `-n4ieth0` -/
  | attached {cs arg : CStr} {c : UInt8} {words : List CStr} {found : List Found} :
      (∀ c ∈ cs, Flag c) → Takes c → arg ≠ [] → Spells words found →
      Spells ((ch '-' :: (cs ++ c :: arg)) :: words) (cs.map flag ++ ⟨c, some arg⟩ :: found)
  /-- `-i eth0` -/
  | separate {cs arg : CStr} {c : UInt8} {words : List CStr} {found : List Found} :
      (∀ c ∈ cs, Flag c) → lookup par c = some .required → Spells words found →
      Spells ((ch '-' :: (cs ++ [c])) :: arg :: words)
        (cs.map flag ++ ⟨c, some arg⟩ :: found)
  /-- `-v` -/
  | bare {cs : CStr} {c : UInt8} {words : List CStr} {found : List Found} :
      (∀ c ∈ cs, Flag c) → lookup par c = some .optional → Spells words found →
      Spells ((ch '-' :: (cs ++ [c])) :: words) (cs.map flag ++ ⟨c, none⟩ :: found)

/-- `Word cs found pending`: the letters `cs` behind a hyphen give `found`, and
    `pending` has its argument in the next word. -/
inductive Word : CStr → List Found → Option UInt8 → Prop where
  | flags {cs : CStr} : (∀ c ∈ cs, Flag c) → Word cs (cs.map flag) none
  | attached {cs arg : CStr} {c : UInt8} : (∀ c ∈ cs, Flag c) → Takes c → arg ≠ [] →
      Word (cs ++ c :: arg) (cs.map flag ++ [⟨c, some arg⟩]) none
  | separate {cs : CStr} {c : UInt8} : (∀ c ∈ cs, Flag c) → lookup par c = some .required →
      Word (cs ++ [c]) (cs.map flag) (some c)
  | bare {cs : CStr} {c : UInt8} : (∀ c ∈ cs, Flag c) → lookup par c = some .optional →
      Word (cs ++ [c]) (cs.map flag ++ [⟨c, none⟩]) none

variable {cs arg : CStr} {c : UInt8} {words : List CStr} {found : List Found}

theorem Word.cons {pending : Option UInt8} (hc : Flag c) (h : Word cs found pending) :
    Word (c :: cs) (flag c :: found) pending := by
  have hcons : ∀ {cs : CStr}, (∀ d ∈ cs, Flag d) → ∀ d ∈ c :: cs, Flag d := by
    intro cs hcs d hd
    rcases List.mem_cons.mp hd with rfl | hd
    · exact hc
    · exact hcs d hd
  cases h with
  | flags hcs => exact .flags (hcons hcs)
  | attached hcs htakes harg => exact .attached (hcons hcs) htakes harg
  | separate hcs hreq => exact .separate (hcons hcs) hreq
  | bare hcs hopt => exact .bare (hcons hcs) hopt

/-- A word whose letters are all known is one of the four. -/
theorem word_letters (cs : CStr) (h : ∀ f ∈ (letters cs).1, Known f) :
    Word cs (letters cs).1 (letters cs).2 := by
  induction cs with
  | nil => exact .flags fun c hc => absurd hc List.not_mem_nil
  | cons c rest ih =>
      have hnil : ∀ d ∈ ([] : CStr), Flag d := fun d hd => absurd hd List.not_mem_nil
      rw [letters] at h ⊢
      cases hlookup : lookup par c with
      | none =>
          rw [hlookup] at h
          exact absurd (h unknown List.mem_cons_self) not_known_unknown
      | some n =>
          rw [hlookup] at h
          cases n with
          | no => exact (ih fun f hf => h f (List.mem_cons_of_mem _ hf)).cons hlookup
          | optional =>
              by_cases hrest : rest = []
              · subst hrest
                exact .bare hnil hlookup
              · simp only [if_neg hrest]
                exact .attached hnil (Or.inr hlookup) hrest
          | required =>
              by_cases hrest : rest = []
              · subst hrest
                exact .separate hnil hlookup
              · simp only [if_neg hrest]
                exact .attached hnil (Or.inl hlookup) hrest

theorem letters_flags (hcs : ∀ c ∈ cs, Flag c) (rest : CStr) :
    letters (cs ++ rest) = (cs.map flag ++ (letters rest).1, (letters rest).2) := by
  induction cs with
  | nil => rfl
  | cons c cs ih =>
      have hc : lookup par c = some .no := hcs c List.mem_cons_self
      rw [List.cons_append, letters, hc, ih fun d hd => hcs d (List.mem_cons_of_mem _ hd)]
      rfl

/-- The letters of such a word are what it gives. -/
theorem letters_word {pending : Option UInt8} (h : Word cs found pending) :
    letters cs = (found, pending) := by
  cases h with
  | flags hcs =>
      have h := letters_flags hcs []
      rwa [List.append_nil, letters, List.append_nil] at h
  | attached hcs htakes harg =>
      rw [letters_flags hcs, letters]
      rcases htakes with hc | hc
      · rw [hc]
        simp only [if_neg harg]
      · rw [hc]
        simp only [if_neg harg]
  | separate hcs hreq =>
      rw [letters_flags hcs, letters, hreq]
      simp only [if_pos, List.append_nil]
  | bare hcs hopt =>
      rw [letters_flags hcs, letters, hopt]
      simp only [if_pos]

theorem not_flag_hyphen : ¬ Flag (ch '-') := by
  rw [Flag, lookup_par, findOptFunctionChar_none (Or.inr rfl)]
  exact (Option.some_ne_none _).symm

theorem not_takes_hyphen : ¬ Takes (ch '-') := by
  rw [Takes, lookup_par, findOptFunctionChar_none (Or.inr rfl)]
  exact fun h => h.elim (Option.some_ne_none _).symm (Option.some_ne_none _).symm

/-- A word of letters starts with one that is no hyphen. -/
theorem Word.head_ne {pending : Option UInt8} (h : Word cs found pending) :
    cs.head? ≠ some (ch '-') := by
  have hfront : ∀ {cs rest : CStr}, (∀ d ∈ cs, Flag d) → rest.head? ≠ some (ch '-') →
      (cs ++ rest).head? ≠ some (ch '-') := by
    intro cs rest hcs hrest
    cases cs with
    | nil => exact hrest
    | cons d cs =>
        intro hd
        exact not_flag_hyphen (Option.some.inj hd ▸ hcs d List.mem_cons_self)
  cases h with
  | flags hcs =>
      have h := @hfront _ [] hcs (Option.some_ne_none _).symm
      rwa [List.append_nil] at h
  | attached hcs htakes _ =>
      exact hfront hcs fun hc => not_takes_hyphen (Option.some.inj hc ▸ htakes)
  | separate hcs hreq =>
      exact hfront hcs fun hc => not_takes_hyphen (Option.some.inj hc ▸ Or.inl hreq)
  | bare hcs hopt =>
      exact hfront hcs fun hc => not_takes_hyphen (Option.some.inj hc ▸ Or.inr hopt)

theorem not_operand (hcs : cs ≠ []) : ¬ Operand (ch '-' :: cs) := by
  rintro (h | h)
  · exact h rfl
  · exact hcs (List.tail_eq_of_cons_eq h)

/-- One word of letters, and the words behind it. -/
theorem getopt_word {pending : Option UInt8} (h : Word cs found pending) (hcs : cs ≠ []) :
    getopt none ((ch '-' :: cs) :: words) = found ++ getopt pending words := by
  have hstop : ch '-' :: cs ≠ str "--" := by
    intro heq
    have htail : cs = [ch '-'] := List.tail_eq_of_cons_eq heq
    exact h.head_ne (congrArg List.head? htail)
  rw [getopt, if_neg (not_operand hcs), if_neg hstop, List.tail_cons, letters_word h]

/-! ### What is spelled is accepted, and what is accepted is spelled -/

theorem known_flags (hcs : ∀ c ∈ cs, Flag c) : ∀ f ∈ cs.map flag, Known f := by
  intro f hf
  obtain ⟨c, hc, rfl⟩ := List.mem_map.mp hf
  exact known_of_lookup (hcs c hc) none

theorem known_of_takes (hc : Takes c) (optarg : Option CStr) : Known ⟨c, optarg⟩ :=
  hc.elim (known_of_lookup · optarg) (known_of_lookup · optarg)

theorem known_cons {f : Found} (hf : Known f) (h : ∀ f ∈ found, Known f) :
    ∀ g ∈ f :: found, Known g := by
  intro g hg
  rcases List.mem_cons.mp hg with rfl | hg
  · exact hf
  · exact h g hg

theorem known_append {found' : List Found} (h : ∀ f ∈ found, Known f)
    (h' : ∀ f ∈ found', Known f) : ∀ f ∈ found ++ found', Known f := by
  intro f hf
  rcases List.mem_append.mp hf with hf | hf
  · exact h f hf
  · exact h' f hf

theorem getopt_of_spells (h : Spells words found) :
    getopt none words = found ∧ ∀ f ∈ found, Known f := by
  induction h with
  | nil => exact ⟨rfl, fun f hf => absurd hf List.not_mem_nil⟩
  | stop words =>
      have hword : ¬ Operand (str "--") := by decide
      refine ⟨?_, fun f hf => absurd hf List.not_mem_nil⟩
      rw [getopt, if_neg hword, if_pos rfl]
  | operand hword _ ih =>
      refine ⟨?_, ih.2⟩
      rw [getopt, if_pos hword]
      exact ih.1
  | flags hne hcs _ ih =>
      refine ⟨?_, known_append (known_flags hcs) ih.2⟩
      rw [getopt_word (.flags hcs) hne, ih.1]
  | attached hcs htakes harg _ ih =>
      refine ⟨?_, known_append (known_flags hcs) (known_cons (known_of_takes htakes _) ih.2)⟩
      rw [getopt_word (.attached hcs htakes harg) (List.append_ne_nil_of_right_ne_nil _
        (List.cons_ne_nil _ _)), ih.1, List.append_assoc]
      rfl
  | separate hcs hreq _ ih =>
      refine ⟨?_, known_append (known_flags hcs) (known_cons (known_of_lookup hreq _) ih.2)⟩
      rw [getopt_word (.separate hcs hreq) (List.append_ne_nil_of_right_ne_nil _
        (List.cons_ne_nil _ _)), getopt, ih.1]
  | bare hcs hopt _ ih =>
      refine ⟨?_, known_append (known_flags hcs) (known_cons (known_of_lookup hopt _) ih.2)⟩
      rw [getopt_word (.bare hcs hopt) (List.append_ne_nil_of_right_ne_nil _
        (List.cons_ne_nil _ _)), ih.1, List.append_assoc]
      rfl

/-- Behind a word: the words that follow it spell the rest, where the first of them
    is the argument of a letter that waits for it. -/
theorem spells_getopt_from (words : List CStr) :
    ((∀ f ∈ getopt none words, Known f) → Spells words (getopt none words)) ∧
    ∀ c, (∀ f ∈ getopt (some c) words, Known f) →
      ∃ arg rest, words = arg :: rest ∧ Spells rest (getopt none rest) := by
  induction words with
  | nil =>
      refine ⟨fun _ => .nil, fun c h => ?_⟩
      exact absurd (h unknown List.mem_cons_self) not_known_unknown
  | cons word words ih =>
      refine ⟨fun h => ?_, fun c h => ?_⟩
      · by_cases hword : Operand word
        · rw [getopt, if_pos hword] at h ⊢
          exact .operand hword (ih.1 h)
        · by_cases hstop : word = str "--"
          · subst hstop
            rw [getopt, if_neg hword, if_pos rfl]
            exact .stop words
          · -- a hyphen, and letters behind it
            obtain ⟨cs, rfl⟩ : ∃ cs, word = ch '-' :: cs := by
              have hhead : word.head? = some (ch '-') :=
                not_not.mp fun hne => hword (Or.inl hne)
              exact ⟨word.tail, List.eq_cons_of_mem_head? hhead⟩
            have hcs : cs ≠ [] := fun hnil => hword (Or.inr (by rw [hnil]))
            have heq : getopt none ((ch '-' :: cs) :: words) =
                (letters cs).1 ++ getopt (letters cs).2 words := by
              rw [getopt, if_neg hword, if_neg hstop, List.tail_cons]
            rw [heq] at h ⊢
            have hw := word_letters cs fun f hf => h f (List.mem_append_left _ hf)
            have hrest : ∀ f ∈ getopt (letters cs).2 words, Known f :=
              fun f hf => h f (List.mem_append_right _ hf)
            clear h heq
            generalize (letters cs).1 = found at hw ⊢
            generalize (letters cs).2 = pending at hw hrest ⊢
            cases hw with
            | flags hflags => exact .flags hcs hflags (ih.1 hrest)
            | attached hflags htakes harg =>
                rw [List.append_assoc]
                exact .attached hflags htakes harg (ih.1 hrest)
            | @separate cs c hflags hreq =>
                obtain ⟨arg, rest, rfl, hspells⟩ := ih.2 c hrest
                exact .separate hflags hreq hspells
            | bare hflags hopt =>
                rw [List.append_assoc]
                exact .bare hflags hopt (ih.1 hrest)
      · exact ⟨word, words, rfl, ih.1 fun f hf => h f (List.mem_cons_of_mem _ hf)⟩

theorem spells_getopt (h : ∀ f ∈ getopt none words, Known f) :
    Spells words (getopt none words) :=
  (spells_getopt_from words).1 h

/-! ### The functions called -/

variable {σ : Type} {fct : OptFunctions σ} {s s' : σ}

/-- Every option with its function. -/
def callAll (fct : OptFunctions σ) (s : σ) (found : List Found) : Option σ :=
  found.foldlM (fun s f => fct f.c f.optarg s) s

/-- An option with the argument its entry of the table declares, or without one. -/
def Found.Declared (f : Found) : Prop :=
  match lookup par f.c with
  | none => False
  | some .no => f.optarg = none
  | some .required => f.optarg ≠ none
  | some .optional => f.optarg ≠ some []

instance (f : Found) : Decidable f.Declared :=
  match h : lookup par f.c with
  | none => isFalse (by rw [Found.Declared, h]; exact id)
  | some .no => decidable_of_iff (f.optarg = none) (by rw [Found.Declared, h])
  | some .required => decidable_of_iff (f.optarg ≠ none) (by rw [Found.Declared, h])
  | some .optional => decidable_of_iff (f.optarg ≠ some []) (by rw [Found.Declared, h])

theorem declared_no (h : lookup par c = some .no) {optarg : Option CStr} :
    (Found.mk c optarg).Declared ↔ optarg = none := by
  rw [Found.Declared, h]

theorem declared_required (h : lookup par c = some .required) {optarg : Option CStr} :
    (Found.mk c optarg).Declared ↔ optarg ≠ none := by
  rw [Found.Declared, h]

theorem declared_optional (h : lookup par c = some .optional) {optarg : Option CStr} :
    (Found.mk c optarg).Declared ↔ optarg ≠ some [] := by
  rw [Found.Declared, h]

theorem declared_flags (hcs : ∀ c ∈ cs, Flag c) : ∀ f ∈ cs.map flag, f.Declared := by
  intro f hf
  obtain ⟨c, hc, rfl⟩ := List.mem_map.mp hf
  exact (declared_no (hcs c hc)).mpr rfl

theorem declared_append {f : Found} (hcs : ∀ c ∈ cs, Flag c) (hf : f.Declared)
    (h : ∀ f ∈ found, f.Declared) : ∀ g ∈ cs.map flag ++ f :: found, g.Declared := by
  intro g hg
  rcases List.mem_append.mp hg with hg | hg
  · exact declared_flags hcs g hg
  · rcases List.mem_cons.mp hg with rfl | hg
    · exact hf
    · exact h g hg

theorem spells_declared (h : Spells words found) : ∀ f ∈ found, f.Declared := by
  induction h with
  | nil => exact fun f hf => absurd hf List.not_mem_nil
  | stop => exact fun f hf => absurd hf List.not_mem_nil
  | operand _ _ ih => exact ih
  | flags _ hcs _ ih =>
      intro f hf
      rcases List.mem_append.mp hf with hf | hf
      · exact declared_flags hcs f hf
      · exact ih f hf
  | attached hcs htakes harg _ ih =>
      refine declared_append hcs ?_ ih
      rcases htakes with hc | hc
      · exact (declared_required hc).mpr (Option.some_ne_none _)
      · exact (declared_optional hc).mpr fun h => harg (Option.some.inj h)
  | separate hcs hreq _ ih =>
      exact declared_append hcs ((declared_required hreq).mpr (Option.some_ne_none _)) ih
  | bare hcs hopt _ ih =>
      exact declared_append hcs ((declared_optional hopt).mpr (Option.some_ne_none _).symm) ih

theorem callOptFunctions_append (fct : OptFunctions σ) (before after : List Found) (s : σ) :
    callOptFunctions fct (before ++ after) s =
      (callOptFunctions fct before s).bind fun s => callOptFunctions fct after s := by
  induction before generalizing s with
  | nil => rfl
  | cons f before ih =>
      rw [List.cons_append, callOptFunctions, callOptFunctions]
      cases findOptFunctionChar f.c with
      | none => rfl
      | some c =>
          dsimp only
          cases fct c f.optarg s with
          | none => rfl
          | some s' => exact ih s'

theorem callOptFunctions_cons (fct : OptFunctions σ) {f : Found} (hf : Known f)
    (found : List Found) (s : σ) : callOptFunctions fct (f :: found) s =
      (fct f.c f.optarg s).bind fun s => callOptFunctions fct found s := by
  obtain ⟨c, hc⟩ := Option.isSome_iff_exists.mp hf
  obtain rfl := findOptFunctionChar_eq hc
  rw [callOptFunctions, hc]
  dsimp only
  cases fct f.c f.optarg s with
  | none => rfl
  | some s' => rfl

theorem callOptFunctions_known (h : ∀ f ∈ found, Known f) :
    callOptFunctions fct found s = callAll fct s found := by
  induction found generalizing s with
  | nil => rfl
  | cons f found ih =>
      rw [callOptFunctions_cons fct (h f List.mem_cons_self), callAll, List.foldlM_cons]
      congr 1
      funext s'
      exact ih fun g hg => h g (List.mem_cons_of_mem _ hg)

/-- An unknown option ends the program. -/
theorem known_of_callOptFunctions (h : callOptFunctions fct found s = some s') :
    ∀ f ∈ found, Known f := by
  induction found generalizing s with
  | nil => exact fun f hf => absurd hf List.not_mem_nil
  | cons f found ih =>
      rw [callOptFunctions] at h
      cases hc : findOptFunctionChar f.c with
      | none => rw [hc] at h; cases h
      | some c =>
          rw [hc] at h
          cases hcall : fct c f.optarg s with
          | none => simp only [hcall] at h; cases h
          | some s₁ =>
              simp only [hcall] at h
              exact known_cons (by rw [Known, hc]; rfl) (ih h)

/-- **The command line**: the program goes on with exactly those command lines that
    spell options of the table, and then every option function was called once, in
    the order of the words, with the argument its entry declares. -/
theorem command_line_accepted_iff (fct : OptFunctions σ) (words : List CStr) (s s' : σ) :
    parseCmdlineV2 fct words s = some s' ↔
      ∃ found, Spells words found ∧ (∀ f ∈ found, f.Declared) ∧ callAll fct s found = some s' := by
  rw [parseCmdlineV2]
  constructor
  · intro h
    have hknown := known_of_callOptFunctions h
    have hspells := spells_getopt hknown
    refine ⟨getopt none words, hspells, spells_declared hspells, ?_⟩
    rw [← callOptFunctions_known hknown]
    exact h
  · rintro ⟨found, hspells, -, hcall⟩
    obtain ⟨rfl, hknown⟩ := getopt_of_spells hspells
    rw [callOptFunctions_known hknown]
    exact hcall

/-! ## Writing a command line -/

/-- The words for one option, its argument in a word of its own where that can be. -/
def render (f : Found) : List CStr :=
  match lookup par f.c, f.optarg with
  | some .required, some arg => [[ch '-', f.c], arg]
  | some .optional, some arg => [ch '-' :: f.c :: arg]
  | _, _ => [[ch '-', f.c]]

theorem getopt_render {f : Found} (hf : f.Declared) (words : List CStr) :
    getopt none (render f ++ words) = f :: getopt none words := by
  have hnil : ∀ d ∈ ([] : CStr), Flag d := fun d hd => absurd hd List.not_mem_nil
  obtain ⟨c, optarg⟩ := f
  rw [render]
  cases hc : lookup par c with
  | none =>
      rw [Found.Declared, hc] at hf
      exact hf.elim
  | some n =>
      cases n with
      | no =>
          obtain rfl := (declared_no hc).mp hf
          have hflag : ∀ d ∈ [c], Flag d := by
            intro d hd
            rw [List.mem_singleton.mp hd]
            exact hc
          exact getopt_word (.flags hflag) (List.cons_ne_nil _ _)
      | required =>
          obtain ⟨arg, rfl⟩ := Option.ne_none_iff_exists'.mp ((declared_required hc).mp hf)
          exact getopt_word (.separate hnil hc) (List.cons_ne_nil _ _)
      | optional =>
          cases optarg with
          | none => exact getopt_word (.bare hnil hc) (List.cons_ne_nil _ _)
          | some arg =>
              have harg : arg ≠ [] :=
                fun hnil => (declared_optional hc).mp hf (congrArg some hnil)
              exact getopt_word (.attached hnil (Or.inr hc) harg) (List.cons_ne_nil _ _)

theorem getopt_renders (h : ∀ f ∈ found, f.Declared) (words : List CStr) :
    getopt none (found.flatMap render ++ words) = found ++ getopt none words := by
  induction found with
  | nil => rfl
  | cons f found ih =>
      rw [List.flatMap_cons, List.append_assoc, getopt_render (h f List.mem_cons_self),
        ih fun g hg => h g (List.mem_cons_of_mem _ hg), List.cons_append]

theorem known_of_declared {f : Found} (hf : f.Declared) : Known f := by
  rw [Found.Declared] at hf
  cases hc : lookup par f.c with
  | none =>
      rw [hc] at hf
      exact hf.elim
  | some n => exact known_of_lookup hc f.optarg

/-- **Round trip**: the known options of a list are what `getopt` reads back from
    the words written for them exactly where each has the argument it declares. -/
theorem options_round_trip (found : List Found) :
    (getopt none (found.flatMap render) = found ∧ ∀ f ∈ found, Known f) ↔
      ∀ f ∈ found, f.Declared := by
  constructor
  · rintro ⟨hget, hknown⟩
    have hspells : Spells (found.flatMap render) found := by
      have h := @spells_getopt (found.flatMap render)
      rw [hget] at h
      exact h hknown
    exact spells_declared hspells
  · intro h
    have hget := getopt_renders h []
    rw [List.append_nil, getopt, List.append_nil] at hget
    exact ⟨hget, fun f hf => known_of_declared (h f hf)⟩

end Impd4e.CommandLine
