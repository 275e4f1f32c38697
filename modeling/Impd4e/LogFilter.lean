import Mathlib.Data.List.Infix
import Mathlib.Data.List.TakeWhile
import Impd4e.CString

/-! # The log filter

    `logger_set_filter` and `is_logging` of logger.c: the option `-v` gives
    comma-separated expressions, and the logger asks for every message whether
    the function it comes from is wanted.  The two lists point into the filter
    strings, which stay as `strtok` leaves them; they are read as the expressions
    they point to.

    `isLogging_iff` is the meaning print_help gives the expressions, over any
    sequence of filter strings. -/

namespace Impd4e.LogFilter

open Impd4e.CString

/-! ## Setting filters -/

/-- `include_list` and `exclude_list`, NULL being the empty list. -/
structure Filters where
  includeList : List CStr
  excludeList : List CStr
  deriving DecidableEq, Repr

def initialFilters : Filters := ⟨[], []⟩

/-- `push_filter`. -/
def pushFilter : List CStr → CStr → List CStr
  | [], value => [value]
  | x :: next, value => x :: pushFilter next value

/-- `strtok` on what is left of a string, with a delimiter: the next token and
    what is left behind it, or `none` for NULL. -/
def strtok (rest : CStr) (delim : UInt8) : Option (CStr × CStr) :=
  match rest.dropWhile (· == delim) with
  | [] => none
  | c :: t =>
      some (c :: t.takeWhile (· != delim), (t.dropWhile (· != delim)).drop 1)

/-- One token, into the list its first character chooses. -/
def addToken (filters : Filters) (token : CStr) : Filters :=
  match token with
  | [] => { filters with includeList := pushFilter filters.includeList [] }
  | c :: t =>
      if c = ch '-' then { filters with excludeList := pushFilter filters.excludeList t }
      else { filters with includeList := pushFilter filters.includeList (c :: t) }

/-- What `strtok` leaves is shorter. -/
theorem strtok_shorter {rest token rest' : CStr} {delim : UInt8}
    (h : strtok rest delim = some (token, rest')) : rest'.length < rest.length := by
  unfold strtok at h
  cases hdrop : rest.dropWhile (· == delim) with
  | nil =>
      rw [hdrop] at h
      cases h
  | cons c t =>
      rw [hdrop] at h
      obtain ⟨-, rfl⟩ := Prod.mk.inj (Option.some.inj h)
      have hle := (List.dropWhile_suffix (l := rest) (· == delim)).length_le
      have hrest := (List.dropWhile_suffix (l := t) (· != delim)).length_le
      rw [hdrop] at hle
      rw [List.length_drop]
      simp only [List.length_cons] at hle
      omega

/-- The loop of `logger_set_filter`. -/
def setFilterLoop (rest : CStr) (filters : Filters) : Filters :=
  match h : strtok rest (ch ',') with
  | none => filters
  | some (token, rest') =>
      have := strtok_shorter h
      setFilterLoop rest' (addToken filters token)
termination_by rest.length

/-- `logger_set_filter`; `none` is NULL. -/
def loggerSetFilter (filters : Filters) (sFilter : Option CStr) : Filters :=
  setFilterLoop (sFilter.getD []) filters

/-! ## Asking the filters -/

/-- The inner loop of `is_filter`: what is left of both strings behind the
    characters they share. -/
def passCommon : CStr → CStr → CStr × CStr
  | a :: f, b :: s => if a = b then passCommon f s else (a :: f, b :: s)
  | f, s => (f, s)

/-- Does an expression match at a position?  Past the end is the NUL. -/
def matchAt (f s : CStr) : Bool :=
  (passCommon f s).1.head? == some (ch '*') ||
    (passCommon f s).2.head? == (passCommon f s).1.head?

/-- The outer loop; `none` is a look behind the NUL of `s`. -/
def findStart (startWithAsterix : Bool) (f : CStr) : CStr → Option Bool
  | [] => if matchAt f [] then some true else none
  | c :: s =>
      if matchAt f (c :: s) then some true
      else if !s.isEmpty && startWithAsterix then findStart startWithAsterix f s
      else some false

/-- One expression of a list. -/
def matchFilter (value s : CStr) : Option Bool :=
  if value = [ch '*'] then some true
  else
    let startWithAsterix := value.head? == some (ch '*')
    findStart startWithAsterix (if startWithAsterix then value.drop 1 else value) s

/-- `is_filter`. -/
def isFilter : List CStr → CStr → Option Bool
  | [], _ => some false
  | value :: next, s =>
      match matchFilter value s with
      | none => none
      | some true => some true
      | some false => isFilter next s

/-- A list that may be NULL, and what holds then. -/
def askList (whenNull : Bool) (list : List CStr) (s : CStr) : Option Bool :=
  if list.isEmpty then some whenNull else isFilter list s

/-- `is_logging`. -/
def isLogging (filters : Filters) (s : CStr) : Option Bool :=
  match askList true filters.includeList s with
  | none => none
  | some false => some false
  | some true => (askList false filters.excludeList s).map (!·)

/-! ## What the expressions mean -/

/-- The expressions of a filter string. -/
def expressions (s : CStr) : List CStr :=
  (s.splitOn (ch ',')).filter (!·.isEmpty)

/-- The expressions of a sequence of filter strings. -/
def given (calls : List (Option CStr)) : List CStr :=
  calls.flatMap fun sFilter => expressions (sFilter.getD [])

/-- An expression written with a leading hyphen excludes. -/
def Excludes (e : CStr) : Bool := e.head? == some (ch '-')

def included (calls : List (Option CStr)) : List CStr :=
  (given calls).filter (!Excludes ·)

def excluded (calls : List (Option CStr)) : List CStr :=
  ((given calls).filter Excludes).map List.tail

/-- The names an expression stands for: an asterisk at an end is any text there. -/
def Matches (e name : CStr) : Prop :=
  if e.head? = some (ch '*') then
    if e.getLast? = some (ch '*') then e.tail.dropLast <:+: name else e.tail <:+ name
  else
    if e.getLast? = some (ch '*') then e.dropLast <+: name else name = e

/-- Asterisks stand first or last only. -/
def StarsAtEnds (e : CStr) : Prop := ch '*' ∉ e.tail.dropLast

instance : DecidablePred StarsAtEnds := fun e =>
  inferInstanceAs (Decidable (ch '*' ∉ e.tail.dropLast))

instance (e name : CStr) : Decidable (Matches e name) :=
  inferInstanceAs (Decidable
    (if e.head? = some (ch '*') then
      if e.getLast? = some (ch '*') then e.tail.dropLast <:+: name else e.tail <:+ name
    else
      if e.getLast? = some (ch '*') then e.dropLast <+: name else name = e))

/-- The name of a function, as the logger gets it: a C identifier is not empty and
    has no asterisk. -/
structure FunctionName where
  text : CStr
  nonempty : text ≠ []
  plain : ch '*' ∉ text

/-! ## Tokens and expressions -/

theorem pushFilter_eq (list : List CStr) (value : CStr) :
    pushFilter list value = list ++ [value] := by
  induction list with
  | nil => rfl
  | cons x next ih => rw [pushFilter, ih, List.cons_append]

@[simp] theorem expressions_nil : expressions [] = [] := by
  simp [expressions, List.splitOn_eq_singleton]

theorem expressions_comma (s : CStr) : expressions (ch ',' :: s) = expressions s := by
  have hsplit := List.splitOn_append_cons_self_of_not_mem (a := ch ',') List.not_mem_nil s
  rw [List.nil_append] at hsplit
  rw [expressions, hsplit, expressions, List.filter_cons_of_neg (by simp)]

theorem expressions_commas (s : CStr) :
    expressions (s.dropWhile (· == ch ',')) = expressions s := by
  induction s with
  | nil => rfl
  | cons c s ih =>
      by_cases hc : c = ch ','
      · rw [hc, List.dropWhile_cons_of_pos (by simp), expressions_comma, ih]
      · rw [List.dropWhile_cons_of_neg (by simpa using hc)]

/-- A first expression and what is behind its comma. -/
theorem expressions_token {c : UInt8} (t : CStr) (hc : c ≠ ch ',') :
    expressions (c :: t) =
      (c :: t.takeWhile (· != ch ',')) ::
        expressions ((t.dropWhile (· != ch ',')).drop 1) := by
  have hfree : ch ',' ∉ c :: t.takeWhile (· != ch ',') := by
    intro hmem
    rcases List.mem_cons.mp hmem with heq | htail
    · exact hc heq.symm
    · simpa using List.mem_takeWhile_imp htail
  have hwhole : c :: t = (c :: t.takeWhile (· != ch ',')) ++ t.dropWhile (· != ch ',') := by
    rw [List.cons_append, List.takeWhile_append_dropWhile]
  cases hrest : t.dropWhile (· != ch ',') with
  | nil =>
      rw [hrest, List.append_nil] at hwhole
      rw [← hwhole] at hfree ⊢
      simp [expressions, List.splitOn_eq_singleton hfree]
  | cons d r =>
      have hd : d = ch ',' := by
        have hhead := List.head?_dropWhile_not (· != ch ',') t
        rw [hrest] at hhead
        simpa using hhead
      rw [hrest, hd] at hwhole
      rw [hwhole, expressions, List.splitOn_append_cons_self_of_not_mem hfree,
        List.filter_cons_of_pos (by simp)]
      rfl

/-- `strtok` takes the first expression. -/
theorem expressions_strtok (rest : CStr) :
    match strtok rest (ch ',') with
    | none => expressions rest = []
    | some (token, rest') => expressions rest = token :: expressions rest' := by
  rw [← expressions_commas rest]
  unfold strtok
  cases hdrop : rest.dropWhile (· == ch ',') with
  | nil => exact expressions_nil
  | cons c t =>
      have hc : c ≠ ch ',' := by
        have hhead := List.head?_dropWhile_not (· == ch ',') rest
        rw [hdrop] at hhead
        simpa using hhead
      exact expressions_token t hc

/-- The loop takes the expressions in their order. -/
theorem setFilterLoop_eq (rest : CStr) (filters : Filters) :
    setFilterLoop rest filters = (expressions rest).foldl addToken filters := by
  induction rest, filters using setFilterLoop.induct with
  | case1 rest filters h =>
      have hexp := expressions_strtok rest
      rw [h] at hexp
      rw [setFilterLoop, hexp, List.foldl_nil]
      split
      · rfl
      · next h' => simp [h] at h'
  | case2 rest filters token rest' h _ ih =>
      have hexp := expressions_strtok rest
      rw [h] at hexp
      rw [setFilterLoop, hexp, List.foldl_cons, ← ih]
      split
      · next h' => simp [h] at h'
      · next h' =>
          obtain ⟨rfl, rfl⟩ := Prod.mk.inj (Option.some.inj (h.symm.trans h'))
          rfl

theorem nonempty_of_mem_expressions {s e : CStr} (h : e ∈ expressions s) : e ≠ [] := by
  simpa using (List.mem_filter.mp h).2

/-- Every token goes to the end of the list its hyphen chooses. -/
theorem foldl_addToken (tokens : List CStr) (hne : ∀ e ∈ tokens, e ≠ []) (filters : Filters) :
    tokens.foldl addToken filters =
      ⟨filters.includeList ++ tokens.filter (!Excludes ·),
        filters.excludeList ++ (tokens.filter Excludes).map List.tail⟩ := by
  induction tokens generalizing filters with
  | nil => simp
  | cons e tokens ih =>
      have htokens : ∀ e' ∈ tokens, e' ≠ [] := fun e' h => hne e' (List.mem_cons_of_mem e h)
      rw [List.foldl_cons, ih htokens]
      cases e with
      | nil => exact absurd rfl (hne [] List.mem_cons_self)
      | cons c t =>
          by_cases hc : c = ch '-'
          · subst hc
            have hex : Excludes (ch '-' :: t) = true := by simp [Excludes]
            simp [addToken, hex, pushFilter_eq]
          · have hex : Excludes (c :: t) = false := by simp [Excludes, hc]
            simp [addToken, hc, hex, pushFilter_eq]

/-- The lists after a sequence of calls. -/
theorem foldl_loggerSetFilter (calls : List (Option CStr)) (filters : Filters) :
    calls.foldl loggerSetFilter filters =
      ⟨filters.includeList ++ included calls, filters.excludeList ++ excluded calls⟩ := by
  induction calls generalizing filters with
  | nil => simp [included, excluded, given]
  | cons sFilter calls ih =>
      have hstep := foldl_addToken (expressions (sFilter.getD []))
        (fun _ => nonempty_of_mem_expressions) filters
      rw [List.foldl_cons, ih, loggerSetFilter, setFilterLoop_eq, hstep]
      simp [included, excluded, given]

/-! ## One expression -/

/-- Text without asterisks. -/
def Plain (x : CStr) : Prop := ch '*' ∉ x

theorem plain_append {x y : CStr} : Plain (x ++ y) ↔ Plain x ∧ Plain y := by
  simp [Plain, not_or]

theorem plain_cons {c : UInt8} {x : CStr} : Plain (c :: x) ↔ ch '*' ≠ c ∧ Plain x := by
  simp [Plain, not_or]

theorem plain_singleton {c : UInt8} : Plain [c] ↔ ch '*' ≠ c := by
  simp [Plain]

/-- An expression by its plain text and the asterisks at its ends. -/
theorem starsAtEnds_shape {e : CStr} (h : StarsAtEnds e) :
    ∃ x, Plain x ∧
      (e = x ∨ e = x ++ [ch '*'] ∨ e = ch '*' :: x ∨ e = ch '*' :: (x ++ [ch '*'])) := by
  cases e with
  | nil => exact ⟨[], List.not_mem_nil, .inl rfl⟩
  | cons c t =>
      rcases List.eq_nil_or_concat t with rfl | ⟨m, d, rfl⟩
      · by_cases hc : ch '*' = c
        · exact ⟨[], List.not_mem_nil, .inr (.inl (by rw [hc]; rfl))⟩
        · exact ⟨[c], plain_singleton.mpr hc, .inl rfl⟩
      · rw [List.concat_eq_append] at h ⊢
        have hm : Plain m := by rwa [StarsAtEnds, List.tail_cons, List.dropLast_concat] at h
        by_cases hc : ch '*' = c
        · by_cases hd : ch '*' = d
          · exact ⟨m, hm, .inr (.inr (.inr (by rw [← hc, ← hd])))⟩
          · exact ⟨m ++ [d], plain_append.mpr ⟨hm, plain_singleton.mpr hd⟩,
              .inr (.inr (.inl (by rw [← hc])))⟩
        · have hcm : Plain (c :: m) := plain_cons.mpr ⟨hc, hm⟩
          by_cases hd : ch '*' = d
          · exact ⟨c :: m, hcm, .inr (.inl (by rw [← hd]; rfl))⟩
          · exact ⟨c :: (m ++ [d]), plain_append.mpr ⟨hcm, plain_singleton.mpr hd⟩, .inl rfl⟩

theorem head?_ne_of_plain {x : CStr} (h : Plain x) : x.head? ≠ some (ch '*') :=
  fun hx => h (List.mem_of_head? hx)

theorem getLast?_ne_of_plain {x : CStr} (h : Plain x) : x.getLast? ≠ some (ch '*') :=
  fun hx => h (List.mem_of_getLast? hx)

theorem matches_plain {x : CStr} (name : CStr) (h : Plain x) : Matches x name ↔ name = x := by
  rw [Matches, if_neg (head?_ne_of_plain h), if_neg (getLast?_ne_of_plain h)]

theorem matches_startsWith {x : CStr} (name : CStr) (h : Plain x) :
    Matches (x ++ [ch '*']) name ↔ x <+: name := by
  cases x with
  | nil => simp [Matches]
  | cons c t =>
      have hhead : ((c :: t) ++ [ch '*']).head? ≠ some (ch '*') := by
        rw [List.cons_append, List.head?_cons, ← List.head?_cons]
        exact head?_ne_of_plain h
      rw [Matches, if_neg hhead, if_pos List.getLast?_concat, List.dropLast_concat]

theorem matches_endsWith {x : CStr} (name : CStr) (h : Plain x) :
    Matches (ch '*' :: x) name ↔ x <:+ name := by
  cases x with
  | nil => simp [Matches]
  | cons c t =>
      have hlast : (ch '*' :: c :: t).getLast? ≠ some (ch '*') := by
        rw [List.getLast?_cons_cons]
        exact getLast?_ne_of_plain h
      rw [Matches, if_pos List.head?_cons, if_neg hlast, List.tail_cons]

theorem matches_contains (x name : CStr) :
    Matches (ch '*' :: (x ++ [ch '*'])) name ↔ x <:+: name := by
  have hlast : (ch '*' :: (x ++ [ch '*'])).getLast? = some (ch '*') := by
    rw [← List.cons_append, List.getLast?_concat]
  rw [Matches, if_pos List.head?_cons, if_pos hlast, List.tail_cons, List.dropLast_concat]

/-! ## The matcher -/

@[simp] theorem matchAt_cons_self (a : UInt8) (f s : CStr) :
    matchAt (a :: f) (a :: s) = matchAt f s := by
  simp [matchAt, passCommon]

/-- Two characters that differ end the common part. -/
theorem matchAt_cons_ne {a b : UInt8} (f s : CStr) (h : a ≠ b) :
    matchAt (a :: f) (b :: s) = (a == ch '*') := by
  simp [matchAt, passCommon, h, Ne.symm h]

/-- Plain text matches at a position when it is all that is left. -/
theorem matchAt_plain {x : CStr} (s : CStr) (h : Plain x) : matchAt x s = true ↔ s = x := by
  induction x generalizing s with
  | nil => cases s <;> simp [matchAt, passCommon]
  | cons a x ih =>
      obtain ⟨ha, hx⟩ := plain_cons.mp h
      have hstar : ¬ a = ch '*' := Ne.symm ha
      cases s with
      | nil => simp [matchAt, passCommon, hstar]
      | cons b s =>
          by_cases hab : a = b
          · subst hab
            rw [matchAt_cons_self, ih s hx, List.cons_eq_cons, eq_self, true_and]
          · rw [matchAt_cons_ne x s hab, beq_iff_eq, List.cons_eq_cons]
            exact iff_of_false hstar fun hs => hab hs.1.symm

/-- With an asterisk behind it, it matches what begins with it. -/
theorem matchAt_asterisk {x s : CStr} (h : Plain x) (hs : Plain s) :
    matchAt (x ++ [ch '*']) s = true ↔ x <+: s := by
  induction x generalizing s with
  | nil =>
      cases s with
      | nil => simp [matchAt, passCommon]
      | cons b s =>
          have hb : ch '*' ≠ b := (plain_cons.mp hs).1
          simp [matchAt_cons_ne, hb]
  | cons a x ih =>
      obtain ⟨ha, hx⟩ := plain_cons.mp h
      have hstar : ¬ a = ch '*' := Ne.symm ha
      cases s with
      | nil => simp [matchAt, passCommon, hstar]
      | cons b s =>
          obtain ⟨-, hs'⟩ := plain_cons.mp hs
          rw [List.cons_append]
          by_cases hab : a = b
          · subst hab
            rw [matchAt_cons_self, ih hx hs', List.cons_prefix_cons, eq_self, true_and]
          · rw [matchAt_cons_ne _ s hab, beq_iff_eq, List.cons_prefix_cons]
            exact iff_of_false hstar fun hp => hab hp.1

/-- An answer, reached without a look behind the NUL. -/
def Answers (answer : Option Bool) (question : Prop) : Prop :=
  ∃ b, answer = some b ∧ (b = true ↔ question)

theorem findStart_once {s : CStr} (f : CStr) (hs : s ≠ []) :
    findStart false f s = some (matchAt f s) := by
  cases s with
  | nil => exact absurd rfl hs
  | cons c s =>
      cases hmatch : matchAt f (c :: s) with
      | true => simp [findStart, hmatch]
      | false => simp [findStart, hmatch]

/-- With a leading asterisk the outer loop tries every position before the NUL. -/
theorem findStart_answers {s : CStr} (f : CStr) (hs : s ≠ []) :
    Answers (findStart true f s) (∃ t, t ≠ [] ∧ t <:+ s ∧ matchAt f t = true) := by
  induction s with
  | nil => exact absurd rfl hs
  | cons c s ih =>
      by_cases hmatch : matchAt f (c :: s) = true
      · refine ⟨true, by simp [findStart, hmatch], ?_⟩
        simp only [true_iff]
        exact ⟨c :: s, List.cons_ne_nil c s, List.suffix_rfl, hmatch⟩
      · have hlater : (∃ t, t ≠ [] ∧ t <:+ c :: s ∧ matchAt f t = true) ↔
            ∃ t, t ≠ [] ∧ t <:+ s ∧ matchAt f t = true := by
          constructor
          · rintro ⟨t, ht, hsuffix, hm⟩
            rcases List.suffix_cons_iff.mp hsuffix with rfl | hsuffix
            · exact absurd hm hmatch
            · exact ⟨t, ht, hsuffix, hm⟩
          · rintro ⟨t, ht, hsuffix, hm⟩
            exact ⟨t, ht, hsuffix.trans (List.suffix_cons c s), hm⟩
        rw [hlater]
        cases s with
        | nil =>
            refine ⟨false, by simp [findStart, hmatch], ?_⟩
            simp
        | cons d s =>
            obtain ⟨b, hb, hiff⟩ := ih (List.cons_ne_nil d s)
            refine ⟨b, ?_, hiff⟩
            rw [findStart, if_neg hmatch, if_pos (by simp), hb]

theorem matchFilter_any (s : CStr) : matchFilter [ch '*'] s = some true :=
  if_pos rfl

theorem matchFilter_once {e s : CStr} (hhead : e.head? ≠ some (ch '*')) (hs : s ≠ []) :
    matchFilter e s = some (matchAt e s) := by
  have hany : e ≠ [ch '*'] := by
    rintro rfl
    exact hhead rfl
  have hstart : (e.head? == some (ch '*')) = false := beq_eq_false_iff_ne.mpr hhead
  simp only [matchFilter, if_neg hany, hstart]
  exact findStart_once e hs

theorem matchFilter_asterisk {x : CStr} (s : CStr) (hx : x ≠ []) :
    matchFilter (ch '*' :: x) s = findStart true x s := by
  simp [matchFilter, hx]

/-- A suffix of the name, tried against what an expression asks there. -/
theorem suffix_and_eq {x name : CStr} (hx : x ≠ []) :
    (∃ t, t ≠ [] ∧ t <:+ name ∧ t = x) ↔ x <:+ name := by
  constructor
  · rintro ⟨t, -, hsuffix, rfl⟩
    exact hsuffix
  · intro hsuffix
    exact ⟨x, hx, hsuffix, rfl⟩

theorem suffix_and_begins {x name : CStr} (hname : name ≠ []) :
    (∃ t, t ≠ [] ∧ t <:+ name ∧ x <+: t) ↔ x <:+: name := by
  constructor
  · rintro ⟨t, -, hsuffix, hbegins⟩
    exact List.infix_iff_prefix_suffix.mpr ⟨t, hbegins, hsuffix⟩
  · intro hinside
    by_cases hx : x = []
    · exact ⟨name, hname, List.suffix_rfl, hx ▸ List.nil_prefix⟩
    · obtain ⟨t, hbegins, hsuffix⟩ := List.infix_iff_prefix_suffix.mp hinside
      refine ⟨t, ?_, hsuffix, hbegins⟩
      rintro rfl
      exact hx (List.prefix_nil.mp hbegins)

/-- One expression is matched as it is meant. -/
theorem matchFilter_answers {e : CStr} (h : StarsAtEnds e) (f : FunctionName) :
    Answers (matchFilter e f.text) (Matches e f.text) := by
  obtain ⟨x, hx, rfl | rfl | rfl | rfl⟩ := starsAtEnds_shape h
  · rw [matches_plain f.text hx, matchFilter_once (head?_ne_of_plain hx) f.nonempty]
    exact ⟨_, rfl, matchAt_plain f.text hx⟩
  · rw [matches_startsWith f.text hx]
    by_cases hnil : x = []
    · subst hnil
      exact ⟨true, matchFilter_any f.text, by simp⟩
    · have hhead : (x ++ [ch '*']).head? ≠ some (ch '*') := by
        rw [List.head?_append_of_ne_nil x hnil]
        exact head?_ne_of_plain hx
      rw [matchFilter_once hhead f.nonempty]
      exact ⟨_, rfl, matchAt_asterisk hx f.plain⟩
  · rw [matches_endsWith f.text hx]
    by_cases hnil : x = []
    · subst hnil
      exact ⟨true, matchFilter_any f.text, by simp⟩
    · obtain ⟨b, hb, hiff⟩ := findStart_answers x f.nonempty
      refine ⟨b, by rw [matchFilter_asterisk f.text hnil, hb], ?_⟩
      rw [hiff, ← suffix_and_eq hnil]
      simp only [matchAt_plain _ hx]
  · obtain ⟨b, hb, hiff⟩ := findStart_answers (x ++ [ch '*']) f.nonempty
    refine ⟨b, by rw [matchFilter_asterisk f.text (by simp), hb], ?_⟩
    rw [hiff, matches_contains, ← suffix_and_begins f.nonempty]
    refine exists_congr fun t => and_congr_right fun _ => and_congr_right fun hsuffix => ?_
    exact matchAt_asterisk hx fun hmem => f.plain (hsuffix.mem hmem)

/-! ## The lists -/

/-- A list answers whether one of its expressions matches. -/
theorem isFilter_answers (list : List CStr) (f : FunctionName)
    (h : ∀ e ∈ list, StarsAtEnds e) :
    Answers (isFilter list f.text) (∃ e ∈ list, Matches e f.text) := by
  induction list with
  | nil => exact ⟨false, rfl, by simp⟩
  | cons e next ih =>
      obtain ⟨b, hb, hiff⟩ := matchFilter_answers (h e List.mem_cons_self) f
      obtain ⟨rest, hrest, hnext⟩ := ih fun e' he' => h e' (List.mem_cons_of_mem e he')
      cases b with
      | true =>
          refine ⟨true, by rw [isFilter, hb], ?_⟩
          simp only [true_iff]
          exact ⟨e, List.mem_cons_self, hiff.mp rfl⟩
      | false =>
          refine ⟨rest, by rw [isFilter, hb, hrest], ?_⟩
          have hnot : ¬ Matches e f.text := fun hm => absurd (hiff.mpr hm) (by decide)
          rw [hnext, List.exists_mem_cons_iff, or_iff_right hnot]

/-- `is_logging` over two lists of expressions. -/
theorem isLogging_answers (filters : Filters) (f : FunctionName)
    (hinclude : ∀ e ∈ filters.includeList, StarsAtEnds e)
    (hexclude : ∀ e ∈ filters.excludeList, StarsAtEnds e) :
    Answers (isLogging filters f.text)
      ((filters.includeList = [] ∨ ∃ e ∈ filters.includeList, Matches e f.text) ∧
        ∀ e ∈ filters.excludeList, ¬ Matches e f.text) := by
  have hwanted : Answers (askList true filters.includeList f.text)
      (filters.includeList = [] ∨ ∃ e ∈ filters.includeList, Matches e f.text) := by
    by_cases hnil : filters.includeList = []
    · exact ⟨true, by simp [askList, hnil], by simp [hnil]⟩
    · rw [askList, if_neg (by simpa using hnil), or_iff_right hnil]
      exact isFilter_answers filters.includeList f hinclude
  have hunwanted : Answers (askList false filters.excludeList f.text)
      (∃ e ∈ filters.excludeList, Matches e f.text) := by
    by_cases hnil : filters.excludeList = []
    · exact ⟨false, by simp [askList, hnil], by simp [hnil]⟩
    · rw [askList, if_neg (by simpa using hnil)]
      exact isFilter_answers filters.excludeList f hexclude
  obtain ⟨wanted, hw, hwiff⟩ := hwanted
  obtain ⟨unwanted, hu, huiff⟩ := hunwanted
  refine ⟨wanted && !unwanted, ?_, ?_⟩
  · rw [isLogging, hw, hu]
    cases wanted <;> rfl
  · have hnone : (∀ e ∈ filters.excludeList, ¬ Matches e f.text) ↔
        ¬ ∃ e ∈ filters.excludeList, Matches e f.text := by
      simp only [not_exists, not_and]
    rw [Bool.and_eq_true, hwiff, hnone, ← huiff, Bool.not_eq_true', Bool.not_eq_true]

/-- The part of an expression that is matched. -/
def matched (e : CStr) : CStr := if Excludes e then e.tail else e

/-- **LOG FILTER SEMANTICS.**  After any sequence of filter strings with asterisks at
    the ends of their expressions only, a function is logged exactly when it matches
    an include expression, if there is one, and no exclude expression. -/
theorem isLogging_iff (calls : List (Option CStr)) (f : FunctionName)
    (h : ∀ e ∈ given calls, StarsAtEnds (matched e)) :
    ∃ logged, isLogging (calls.foldl loggerSetFilter initialFilters) f.text = some logged ∧
      (logged = true ↔
        (included calls = [] ∨ ∃ e ∈ included calls, Matches e f.text) ∧
          ∀ e ∈ excluded calls, ¬ Matches e f.text) := by
  have hlists : calls.foldl loggerSetFilter initialFilters =
      ⟨included calls, excluded calls⟩ := by
    rw [foldl_loggerSetFilter]
    rfl
  have hinclude : ∀ e ∈ included calls, StarsAtEnds e := by
    intro e he
    obtain ⟨hgiven, hex⟩ := List.mem_filter.mp he
    have hstars := h e hgiven
    rwa [matched, if_neg (by simpa using hex)] at hstars
  have hexclude : ∀ e ∈ excluded calls, StarsAtEnds e := by
    intro e he
    obtain ⟨e', he', rfl⟩ := List.mem_map.mp he
    obtain ⟨hgiven, hex⟩ := List.mem_filter.mp he'
    have hstars := h e' hgiven
    rwa [matched, if_pos hex] at hstars
  rw [hlists]
  exact isLogging_answers ⟨included calls, excluded calls⟩ f hinclude hexclude

/-- The function of the export module that print_help's example leaves out. -/
def exportFlush : FunctionName where
  text := str "export_flush"
  nonempty := by decide +kernel
  plain := by decide +kernel

theorem isLogging_iff_exportFlush :
    ∃ logged,
      isLogging ([some (str "*export*,-*flush")].foldl loggerSetFilter initialFilters)
        exportFlush.text = some logged ∧
      (logged = true ↔
        (included [some (str "*export*,-*flush")] = [] ∨
          ∃ e ∈ included [some (str "*export*,-*flush")], Matches e exportFlush.text) ∧
          ∀ e ∈ excluded [some (str "*export*,-*flush")], ¬ Matches e exportFlush.text) :=
  isLogging_iff [some (str "*export*,-*flush")] exportFlush (by decide +kernel)

/-- It contains `export`, and it ends in `flush`. -/
example : included [some (str "*export*,-*flush")] = [str "*export*"] ∧
    excluded [some (str "*export*,-*flush")] = [str "*flush"] ∧
    Matches (str "*export*") exportFlush.text ∧ Matches (str "*flush") exportFlush.text := by
  decide +kernel

end Impd4e.LogFilter
