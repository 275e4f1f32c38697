import Impd4e.ConfigReading

/-! # The calls a configuration file stands for

    A file stands for one call of an option function for each setting.  The
    loop of `read_options_file_v2` makes these calls exactly where the array
    that is to carry the heading from line to line does carry it. -/

namespace Impd4e.ConfigFile

open Impd4e.CString Cut

/-! ## What a file stands for -/

/-- A call of an option function. -/
structure Call where
  letter : UInt8
  value : CStr
  deriving DecidableEq, Repr

/-- The lines of a file, its last one perhaps without a newline, as `line` and
    what follows it. -/
def splitLines (line : List UInt8) : List UInt8 → List (List UInt8)
  | [] => [line]
  | c :: file => if c = 10 then line :: splitLines [] file else splitLines (line ++ [c]) file

/-- All lines are shorter than the buffer of the loop. -/
def Short (file : List UInt8) : Prop := ∀ line ∈ splitLines [] file, line.length < 2000

/-- The lines of a file, read. -/
def readFile (file : List UInt8) : List Line :=
  (splitLines [] file).map fun line => readLine (cstr line)

/-- **WHAT LINES STAND FOR** — the calls behind a heading, if there is one yet.
    Every key is in the table, neither `help` nor `verbosity`; a `configfile`
    line stands for what the named file stands for.  `linesOf` reads a file. -/
inductive Stands (fopen : CStr → Option (List UInt8)) (linesOf : List UInt8 → List Line) :
    Option CStr → List Line → List Call → Prop where
  | nil (heading : Option CStr) : Stands fopen linesOf heading [] []
  | blank {heading : Option CStr} {lines : List Line} {calls : List Call} :
      Stands fopen linesOf heading lines calls →
        Stands fopen linesOf heading (.blank :: lines) calls
  | heading {heading : Option CStr} {name : CStr} {lines : List Line} {calls : List Call} :
      name.length ≤ 100 → Stands fopen linesOf (some name) lines calls →
        Stands fopen linesOf heading (.heading name :: lines) calls
  | setting {heading key value : CStr} {letter : UInt8} {lines : List Line}
      {calls : List Call} :
      findOptFunctionKey (qualified heading key) = some letter →
      letter ≠ ch 'h' → letter ≠ ch 'v' → letter ≠ ch 'c' →
      Stands fopen linesOf (some heading) lines calls →
        Stands fopen linesOf (some heading) (.setting key value :: lines)
          (⟨letter, value⟩ :: calls)
  | configfile {heading key value : CStr} {file : List UInt8} {lines : List Line}
      {included calls : List Call} :
      findOptFunctionKey (qualified heading key) = some (ch 'c') →
      fopen value = some file → Short file →
      Stands fopen linesOf none (linesOf file) included →
      Stands fopen linesOf (some heading) lines calls →
        Stands fopen linesOf (some heading) (.setting key value :: lines) (included ++ calls)

/-- The calls a file stands for. -/
def StandsFor (fopen : CStr → Option (List UInt8)) (file : List UInt8)
    (calls : List Call) : Prop :=
  Short file ∧ Stands fopen readFile none (readFile file) calls

/-! ## The lines of the loop -/

/-- The lines that say something. -/
def spoken (lines : List Line) : List Line := lines.filter (· ≠ .blank)

/-- The loop's lines, read. -/
def loopFile (file : List UInt8) : List Line := (loopLines file).map readLine

theorem spoken_cons {lines lines' : List Line} (h : spoken lines = spoken lines')
    (line : Line) : spoken (line :: lines) = spoken (line :: lines') := by
  rw [spoken, spoken, List.filter_cons, List.filter_cons]
  show (if _ then line :: spoken lines else spoken lines) =
    (if _ then line :: spoken lines' else spoken lines')
  rw [h]

/-- A line grows until its newline. -/
theorem splitLines_grows : ∀ (file line : List UInt8),
    ∃ l ∈ splitLines line file, line.length ≤ l.length := by
  intro file
  induction file with
  | nil =>
      intro line
      exact ⟨line, List.mem_cons_self, Nat.le_refl _⟩
  | cons c file ih =>
      intro line
      rw [splitLines]
      by_cases hc : c = 10
      · rw [if_pos hc]
        exact ⟨line, List.mem_cons_self, Nat.le_refl _⟩
      · rw [if_neg hc]
        obtain ⟨l, hl, hlen⟩ := ih (line ++ [c])
        rw [List.length_append] at hlen
        exact ⟨l, hl, Nat.le_trans (Nat.le_add_right _ _) hlen⟩

/-- Where the lines are short, the loop's lines say what the lines say. -/
theorem spoken_fgets : ∀ (file line : List UInt8), line.length ≤ 1998 →
    (∀ l ∈ splitLines line file, l.length < 2000) →
      spoken ((fgets 2000 line file).map fun l => readLine (cstr l)) =
        spoken ((splitLines line file).map fun l => readLine (cstr l)) := by
  intro file
  induction file with
  | nil =>
      intro line _ _
      rw [fgets, splitLines]
      by_cases hempty : line = []
      · rw [if_pos hempty, hempty]
        rfl
      · rw [if_neg hempty]
  | cons c file ih =>
      intro line hline hshort
      rw [fgets, splitLines]
      rw [splitLines] at hshort
      by_cases hc : c = 10
      · rw [if_pos hc] at hshort
        obtain ⟨-, hrest⟩ := List.forall_mem_cons.mp hshort
        rw [if_pos (Or.inl hc), if_pos hc, hc, List.map_cons, List.map_cons, readLine_newline]
        exact spoken_cons (ih [] (Nat.zero_le _) hrest) _
      · rw [if_neg hc] at hshort
        by_cases hfull : line.length + 2 = 2000
        · -- the buffer is full, so the line ends here
          rw [if_pos (Or.inr hfull), if_neg hc]
          have hlen : (line ++ [c]).length = 1999 := by
            rw [List.length_append, List.length_singleton]
            omega
          cases file with
          | nil => rfl
          | cons d file =>
              rw [splitLines] at hshort
              by_cases hd : d = 10
              · rw [if_pos hd] at hshort
                obtain ⟨-, hrest⟩ := List.forall_mem_cons.mp hshort
                have hshort' : ∀ l ∈ splitLines [] (d :: file), l.length < 2000 := by
                  rw [splitLines, if_pos hd]
                  exact List.forall_mem_cons.mpr ⟨by decide, hrest⟩
                rw [splitLines, if_pos hd, List.map_cons, List.map_cons]
                refine spoken_cons ((ih [] (Nat.zero_le _) hshort').trans ?_) _
                -- the newline that was left over is a blank line
                rw [splitLines, if_pos hd]
                rfl
              · rw [if_neg hd] at hshort
                obtain ⟨l, hl, hgrown⟩ := splitLines_grows file (line ++ [c] ++ [d])
                rw [List.length_append, hlen, List.length_singleton] at hgrown
                exact absurd (hshort l hl) (Nat.not_lt.mpr hgrown)
        · rw [if_neg (not_or.mpr ⟨hc, hfull⟩), if_neg hc]
          refine ih (line ++ [c]) ?_ hshort
          rw [List.length_append, List.length_singleton]
          omega

theorem spoken_loopFile {file : List UInt8} (h : Short file) :
    spoken (loopFile file) = spoken (readFile file) := by
  rw [loopFile, loopLines, List.map_map, readFile]
  exact spoken_fgets file [] (Nat.zero_le _) h

variable {fopen : CStr → Option (List UInt8)} {linesOf linesOf' : List UInt8 → List Line}
  {heading : Option CStr} {lines lines' blanks : List Line} {calls : List Call}

theorem stands_blanks (hblanks : ∀ line ∈ blanks, line = .blank)
    (h : Stands fopen linesOf heading lines calls) :
    Stands fopen linesOf heading (blanks ++ lines) calls := by
  induction blanks with
  | nil => exact h
  | cons line blanks ih =>
      obtain ⟨rfl, hrest⟩ := List.forall_mem_cons.mp hblanks
      exact .blank (ih hrest)

/-- The first line that says something. -/
theorem spoken_eq_cons {line : Line} (h : spoken lines' = line :: lines) :
    ∃ blanks rest, lines' = blanks ++ line :: rest ∧ (∀ l ∈ blanks, l = .blank) ∧
      spoken rest = lines := by
  obtain ⟨blanks, rest, hsplit, hblanks, -, hrest⟩ := List.filter_eq_cons_iff.mp h
  refine ⟨blanks, rest, hsplit, ?_, hrest⟩
  intro l hl
  have := hblanks l hl
  exact not_not.mp fun hne => this (decide_eq_true hne)

/-- Blank lines may come and go. -/
theorem stands_spoken (h : Stands fopen linesOf heading lines calls)
    (hfile : ∀ file, Short file → spoken (linesOf' file) = spoken (linesOf file))
    (hlines : spoken lines' = spoken lines) :
    Stands fopen linesOf' heading lines' calls := by
  induction h generalizing lines' with
  | nil heading =>
      have hall : ∀ line ∈ lines', line = .blank := by
        intro line hline
        have := List.filter_eq_nil_iff.mp hlines line hline
        exact not_not.mp fun hne => this (decide_eq_true hne)
      have hnil : Stands fopen linesOf' heading [] [] := .nil heading
      have := stands_blanks hall hnil
      rwa [List.append_nil] at this
  | blank _ ih => exact ih hlines
  | heading hlen _ ih =>
      obtain ⟨blanks, rest, rfl, hblanks, hrest⟩ := spoken_eq_cons hlines
      exact stands_blanks hblanks (.heading hlen (ih hrest))
  | setting hkey hh hv hc _ ih =>
      obtain ⟨blanks, rest, rfl, hblanks, hrest⟩ := spoken_eq_cons hlines
      exact stands_blanks hblanks (.setting hkey hh hv hc (ih hrest))
  | configfile hkey hopen hshort _ _ ihfile ih =>
      obtain ⟨blanks, rest, rfl, hblanks, hrest⟩ := spoken_eq_cons hlines
      exact stands_blanks hblanks
        (.configfile hkey hopen hshort (ihfile (hfile _ hshort)) (ih hrest))

/-! ## Reading a file is making its calls -/

/-- The calls, one after the other. -/
def applyCalls {σ : Type} (fct : OptFct σ) : List Call → σ → Except Stop σ
  | [], options => .ok options
  | call :: calls, options =>
      match fct call.letter call.value options with
      | none => .error .exit
      | some options => applyCalls fct calls options

/-- **THE FILE MEANS ITS CALLS**, for every meaning of the option functions. -/
def MeansCalls (left : List Nat → CStr → CStr) (fopen : CStr → Option (List UInt8))
    (file : List UInt8) (calls : List Call) : Prop :=
  ∀ (σ : Type) (fct : OptFct σ) (options : σ), ∃ n, ∀ depth, n ≤ depth →
    readOptionsFile left fct fopen depth [] file options = applyCalls fct calls options

/-- At every setting that stands for a call, the array `heading` still holds the
    nearest heading; behind a wrong one, nothing may stand for no call either
    that does not fit `fullkey`. -/
inductive Kept (left : List Nat → CStr → CStr) (fopen : CStr → Option (List UInt8)) :
    List Nat → Nat → CStr → CStr → List Line → Prop where
  | nil (place : List Nat) (k : Nat) (old nearest : CStr) :
      Kept left fopen place k old nearest []
  | blank {place : List Nat} {k : Nat} {old nearest : CStr} {lines : List Line} :
      Kept left fopen place (k + 1) (left (k :: place) old) nearest lines →
        Kept left fopen place k old nearest (.blank :: lines)
  | heading {place : List Nat} {k : Nat} {old nearest name : CStr} {lines : List Line} :
      Kept left fopen place (k + 1) name name lines →
        Kept left fopen place k old nearest (.heading name :: lines)
  | setting {place : List Nat} {k : Nat} {old nearest key value : CStr}
      {lines : List Line} :
      left (k :: place) old = nearest →
      findOptFunctionKey (qualified nearest key) ≠ some (ch 'c') →
      Kept left fopen place (k + 1) nearest nearest lines →
        Kept left fopen place k old nearest (.setting key value :: lines)
  | configfile {place : List Nat} {k : Nat} {old nearest key value : CStr}
      {file : List UInt8} {lines : List Line} :
      left (k :: place) old = nearest →
      findOptFunctionKey (qualified nearest key) = some (ch 'c') →
      fopen value = some file →
      Kept left fopen (k :: place) 0 [] [] (loopFile file) →
      Kept left fopen place (k + 1) nearest nearest lines →
        Kept left fopen place k old nearest (.setting key value :: lines)
  | idle {place : List Nat} {k : Nat} {old nearest key value : CStr} {file : List UInt8}
      {lines : List Line} :
      left (k :: place) old ≠ nearest →
      (qualified (left (k :: place) old) key).length ≤ 199 →
      findOptFunctionKey (qualified nearest key) = some (ch 'c') →
      fopen value = some file →
      Stands fopen loopFile none (loopFile file) [] →
      Kept left fopen place (k + 1) (left (k :: place) old) nearest lines →
        Kept left fopen place k old nearest (.setting key value :: lines)

/-- **THE HEADING CARRIES OVER** — along the loop of the file and of all it
    includes. -/
def HeadingsKept (left : List Nat → CStr → CStr) (fopen : CStr → Option (List UInt8))
    (file : List UInt8) : Prop :=
  Kept left fopen [] 0 [] [] (loopFile file)

section Loop

variable {σ : Type} {left : List Nat → CStr → CStr} {fct : OptFct σ}
  {readC : List Nat → CStr → σ → Except Stop σ} {place : List Nat} {k : Nat} {old : CStr}
  {line : CStr} {rest : List CStr} {options : σ}

theorem readLoop_blank (h : readLine line = .blank) :
    readLoop left fct readC place k old (line :: rest) options =
      readLoop left fct readC place (k + 1) (left (k :: place) old) rest options := by
  rw [readLoop, if_neg (loop_blank h)]

theorem readLoop_heading {name : CStr} (h : readLine line = .heading name)
    (hlen : name.length ≤ 100) :
    readLoop left fct readC place k old (line :: rest) options =
      readLoop left fct readC place (k + 1) name rest options := by
  obtain ⟨hlong, heading, hscan, hsame, rfl⟩ := loop_heading h
  rw [readLoop, if_pos hlong, hscan]
  dsimp only
  rw [if_neg (by omega)]

/-- A setting in the loop, whatever the array holds. -/
theorem readLoop_setting {key value nearest : CStr} {letter : UInt8}
    (h : readLine line = .setting key value)
    (hkey : findOptFunctionKey (qualified nearest key) = some letter) :
    readLoop left fct readC place k old (line :: rest) options =
      if 199 < (qualified (left (k :: place) old) key).length then .error .overflow
      else
        match callOptFunction fct (readC (k :: place)) (qualified (left (k :: place) old) key)
          value options with
        | .error stop => .error stop
        | .ok options =>
            readLoop left fct readC place (k + 1) (left (k :: place) old) rest options := by
  obtain ⟨hlen, hbracket, -⟩ := found_key hkey
  obtain ⟨hlong, hscan, hsplit⟩ := loop_setting h hlen hbracket
  rw [readLoop, if_pos hlong, hscan]
  cases hcall : callOptFunction fct (readC (k :: place))
      (qualified (left (k :: place) old) key) value options with
  | error stop => simp only [hsplit, hcall]
  | ok options' => simp only [hsplit, hcall]

/-- With the nearest heading in the array, the function is called. -/
theorem readLoop_kept {key value nearest : CStr} {letter : UInt8}
    (h : readLine line = .setting key value)
    (hkey : findOptFunctionKey (qualified nearest key) = some letter)
    (hheld : left (k :: place) old = nearest) :
    readLoop left fct readC place k old (line :: rest) options =
      match (if letter = ch 'c' then readC (k :: place) value options
        else
          match fct letter value options with
          | none => .error .exit
          | some options => .ok options) with
      | .error stop => .error stop
      | .ok options => readLoop left fct readC place (k + 1) nearest rest options := by
  obtain ⟨-, -, hfits⟩ := found_key hkey
  rw [readLoop_setting h hkey, hheld, if_neg (Nat.not_lt.mpr hfits), callOptFunction]
  by_cases hc : letter = ch 'c'
  · simp only [hkey, if_pos hc]
  · cases hfct : fct letter value options with
    | none => simp only [hkey, if_neg hc, hfct]
    | some options' => simp only [hkey, if_neg hc, hfct]

/-- With another one, nothing is called. -/
theorem readLoop_lost {key value nearest : CStr} {letter : UInt8}
    (h : readLine line = .setting key value)
    (hkey : findOptFunctionKey (qualified nearest key) = some letter)
    (hheld : left (k :: place) old ≠ nearest) :
    readLoop left fct readC place k old (line :: rest) options =
      if 199 < (qualified (left (k :: place) old) key).length then .error .overflow
      else readLoop left fct readC place (k + 1) (left (k :: place) old) rest options := by
  have hnone : findOptFunctionKey (qualified (left (k :: place) old) key) = none := by
    cases hfound : findOptFunctionKey (qualified (left (k :: place) old) key) with
    | none => rfl
    | some letter' => exact absurd (found_once hkey hfound) hheld
  rw [readLoop_setting h hkey, callOptFunction, hnone]

end Loop

theorem applyCalls_append {σ : Type} (fct : OptFct σ) (calls calls' : List Call) (options : σ) :
    applyCalls fct (calls ++ calls') options =
      match applyCalls fct calls options with
      | .error stop => .error stop
      | .ok options => applyCalls fct calls' options := by
  induction calls generalizing options with
  | nil => rfl
  | cons call calls ih =>
      rw [List.cons_append, applyCalls, applyCalls]
      cases fct call.letter call.value options with
      | none => rfl
      | some options' => exact ih options'

/-- Lines stand for one list of calls only. -/
theorem stands_unique {calls' : List Call} (h : Stands fopen linesOf heading lines calls)
    (h' : Stands fopen linesOf heading lines calls') : calls' = calls := by
  induction h generalizing calls' with
  | nil heading => cases h'; rfl
  | blank _ ih => cases h' with | blank h' => exact ih h'
  | heading _ _ ih => cases h' with | heading _ h' => exact ih h'
  | setting hkey _ _ hc _ ih =>
      cases h' with
      | setting hkey' _ _ _ h' =>
          rw [hkey] at hkey'
          rw [ih h', Option.some.inj hkey']
      | configfile hkey' _ _ _ _ =>
          rw [hkey] at hkey'
          exact absurd (Option.some.inj hkey') hc
  | configfile hkey hopen _ _ _ ihfile ih =>
      cases h' with
      | setting hkey' _ _ hc _ =>
          rw [hkey] at hkey'
          exact absurd (Option.some.inj hkey').symm hc
      | configfile hkey' hopen' _ hfile' h' =>
          rw [hopen] at hopen'
          obtain rfl := Option.some.inj hopen'
          rw [ihfile hfile', ih h']

/-- Where the heading carries over, the loop makes the calls. -/
theorem readLoop_applies (left : List Nat → CStr → CStr)
    (h : Stands fopen loopFile heading lines calls) :
    ∃ n, ∀ depth, n ≤ depth → ∀ {σ : Type} (fct : OptFct σ) (place : List Nat) (k : Nat)
      (old : CStr) (raw : List CStr) (options : σ), raw.map readLine = lines →
      Kept left fopen place k old (heading.getD []) lines →
        readLoop left fct
            (fun place => optC fopen (readOptionsFile left fct fopen depth place))
            place k old raw options =
          applyCalls fct calls options := by
  induction h with
  | nil heading =>
      refine ⟨0, ?_⟩
      intro depth _ σ fct place k old raw options hraw _
      obtain rfl := List.map_eq_nil_iff.mp hraw
      rfl
  | blank _ ih =>
      obtain ⟨n, ih⟩ := ih
      refine ⟨n, ?_⟩
      intro depth hn σ fct place k old raw options hraw hkept
      obtain ⟨line, rest, rfl, hline, hrest⟩ := List.map_eq_cons_iff.mp hraw
      cases hkept with
      | blank hkept =>
          rw [readLoop_blank hline]
          exact ih depth hn fct place _ _ rest options hrest hkept
  | heading hlen _ ih =>
      obtain ⟨n, ih⟩ := ih
      refine ⟨n, ?_⟩
      intro depth hn σ fct place k old raw options hraw hkept
      obtain ⟨line, rest, rfl, hline, hrest⟩ := List.map_eq_cons_iff.mp hraw
      cases hkept with
      | heading hkept =>
          rw [readLoop_heading hline hlen]
          exact ih depth hn fct place _ _ rest options hrest hkept
  | @setting heading key value letter lines calls hkey _ _ hc _ ih =>
      obtain ⟨n, ih⟩ := ih
      refine ⟨n, ?_⟩
      intro depth hn σ fct place k old raw options hraw hkept
      obtain ⟨line, rest, rfl, hline, hrest⟩ := List.map_eq_cons_iff.mp hraw
      cases hkept with
      | setting hheld _ hkept =>
          rw [readLoop_kept hline hkey hheld, if_neg hc, applyCalls]
          cases fct letter value options with
          | none => rfl
          | some options' => exact ih depth hn fct place _ _ rest options' hrest hkept
      | configfile _ hkey' _ _ _ =>
          rw [Option.getD_some, hkey] at hkey'
          exact absurd (Option.some.inj hkey') hc
      | idle _ _ hkey' _ _ _ =>
          rw [Option.getD_some, hkey] at hkey'
          exact absurd (Option.some.inj hkey') hc
  | @configfile heading key value file lines included calls hkey hopen _ hfile _ ihfile ih =>
      obtain ⟨n, ih⟩ := ih
      obtain ⟨m, ihfile⟩ := ihfile
      refine ⟨max n (m + 1), ?_⟩
      intro depth hdepth σ fct place k old raw options hraw hkept
      obtain ⟨line, rest, rfl, hline, hrest⟩ := List.map_eq_cons_iff.mp hraw
      have hn : n ≤ depth := Nat.le_trans (Nat.le_max_left _ _) hdepth
      cases hkept with
      | setting _ hkey' _ => exact absurd hkey hkey'
      | configfile hheld _ hopen' hkeptFile hkept =>
          rw [hopen] at hopen'
          obtain rfl := Option.some.inj hopen'
          obtain ⟨depth', rfl⟩ : ∃ depth', depth = depth' + 1 :=
            Nat.exists_eq_succ_of_ne_zero (by omega)
          -- the named file, one file deeper
          have hread : optC fopen (readOptionsFile left fct fopen (depth' + 1) (k :: place))
              value options = applyCalls fct included options := by
            rw [optC, hopen]
            exact ihfile depth' (by omega) fct (k :: place) 0 [] (loopLines file) options rfl
              hkeptFile
          rw [readLoop_kept hline hkey hheld, if_pos rfl, hread, applyCalls_append]
          cases applyCalls fct included options with
          | error stop => rfl
          | ok options' => exact ih (depth' + 1) hn fct place _ _ rest options' hrest hkept
      | idle hheld hfits _ hopen' hnone hkept =>
          rw [hopen] at hopen'
          obtain rfl := Option.some.inj hopen'
          obtain rfl := stands_unique hnone hfile
          rw [readLoop_lost hline hkey hheld, if_neg (Nat.not_lt.mpr hfits)]
          exact ih depth hn fct place _ _ rest options hrest hkept

/-- The option functions that only take down their calls. -/
def takeDown : OptFct (List Call) := fun letter value calls => some (calls ++ [⟨letter, value⟩])

theorem applyCalls_takeDown (calls before : List Call) :
    applyCalls takeDown calls before = .ok (before ++ calls) := by
  induction calls generalizing before with
  | nil => rw [applyCalls, List.append_nil]
  | cons call calls ih =>
      rw [applyCalls, takeDown]
      dsimp only
      rw [ih, List.append_assoc, List.singleton_append]

/-- What the loop's result says when only the calls are taken down: it stops,
    or makes no more calls than the lines stand for, and as many only where
    the heading carries over. -/
def Counts (calls before : List Call) (kept : Prop) (r : Except Stop (List Call)) : Prop :=
  (∃ stop, r = .error stop) ∨
    ∃ made, r = .ok (before ++ made) ∧ made.length ≤ calls.length ∧
      (made.length = calls.length → kept)

/-- The calls made of some lines, then those of the rest: those that are not
    made are missed in the end. -/
theorem Counts.after {calls before made : List Call} {kept kept' : Prop}
    {r : Except Stop (List Call)} (h : Counts calls (before ++ made) kept r)
    (included : List Call) (hmade : made.length ≤ included.length)
    (hkept : made.length = included.length → kept → kept') :
    Counts (included ++ calls) before kept' r := by
  rcases h with hstop | ⟨made', hr, hle, heq⟩
  · exact Or.inl hstop
  · refine Or.inr ⟨made ++ made', ?_, ?_, ?_⟩
    · rw [hr, List.append_assoc]
    · rw [List.length_append, List.length_append]
      omega
    · intro hall
      rw [List.length_append, List.length_append] at hall
      exact hkept (by omega) (heq (by omega))

/-- No call at all is made of some lines. -/
theorem Counts.skip {calls before : List Call} {kept kept' : Prop}
    {r : Except Stop (List Call)} (h : Counts calls before kept r) (included : List Call)
    (hkept : included = [] → kept → kept') : Counts (included ++ calls) before kept' r := by
  have hnone : Counts calls (before ++ []) kept r := by
    rw [List.append_nil]
    exact h
  exact hnone.after included (Nat.zero_le _)
    fun hlen => hkept (List.length_eq_zero_iff.mp hlen.symm)

/-- A setting under a heading the array has lost. -/
theorem counts_lost {left : List Nat → CStr → CStr} {calls before : List Call} {kept : Prop}
    {readC : List Nat → CStr → List Call → Except Stop (List Call)} {place : List Nat} {k : Nat}
    {old line key value nearest : CStr} {rest : List CStr} {letter : UInt8}
    (h : readLine line = .setting key value)
    (hkey : findOptFunctionKey (qualified nearest key) = some letter)
    (hheld : left (k :: place) old ≠ nearest)
    (hrest : (qualified (left (k :: place) old) key).length ≤ 199 → Counts calls before kept
      (readLoop left takeDown readC place (k + 1) (left (k :: place) old) rest before)) :
    Counts calls before kept (readLoop left takeDown readC place k old (line :: rest) before) := by
  rw [readLoop_lost h hkey hheld]
  by_cases hlong : 199 < (qualified (left (k :: place) old) key).length
  · rw [if_pos hlong]
    exact Or.inl ⟨.overflow, rfl⟩
  · rw [if_neg hlong]
    exact hrest (Nat.not_lt.mp hlong)

theorem readLoop_counts (left : List Nat → CStr → CStr)
    (h : Stands fopen loopFile heading lines calls) :
    ∃ n, ∀ depth, n ≤ depth → ∀ (place : List Nat) (k : Nat) (old : CStr)
      (raw : List CStr) (before : List Call), raw.map readLine = lines →
      Counts calls before (Kept left fopen place k old (heading.getD []) lines)
        (readLoop left takeDown
          (fun place => optC fopen (readOptionsFile left takeDown fopen depth place))
          place k old raw before) := by
  induction h with
  | nil heading =>
      refine ⟨0, ?_⟩
      intro depth _ place k old raw before hraw
      obtain rfl := List.map_eq_nil_iff.mp hraw
      refine Or.inr ⟨[], ?_, Nat.le_refl _, fun _ => .nil place k old _⟩
      rw [readLoop, List.append_nil]
  | blank _ ih =>
      obtain ⟨n, ih⟩ := ih
      refine ⟨n, ?_⟩
      intro depth hn place k old raw before hraw
      obtain ⟨line, rest, rfl, hline, hrest⟩ := List.map_eq_cons_iff.mp hraw
      rw [readLoop_blank hline]
      exact (ih depth hn place _ _ rest before hrest).skip [] fun _ => .blank
  | heading hlen _ ih =>
      obtain ⟨n, ih⟩ := ih
      refine ⟨n, ?_⟩
      intro depth hn place k old raw before hraw
      obtain ⟨line, rest, rfl, hline, hrest⟩ := List.map_eq_cons_iff.mp hraw
      rw [readLoop_heading hline hlen]
      exact (ih depth hn place _ _ rest before hrest).skip [] fun _ => .heading
  | @setting heading key value letter lines calls hkey _ _ hc _ ih =>
      obtain ⟨n, ih⟩ := ih
      refine ⟨n, ?_⟩
      intro depth hn place k old raw before hraw
      obtain ⟨line, rest, rfl, hline, hrest⟩ := List.map_eq_cons_iff.mp hraw
      by_cases hheld : left (k :: place) old = heading
      · rw [readLoop_kept hline hkey hheld, if_neg hc]
        have hnot : findOptFunctionKey (qualified heading key) ≠ some (ch 'c') := by
          rw [hkey]
          exact fun h => hc (Option.some.inj h)
        refine (ih depth hn place (k + 1) heading rest (before ++ [⟨letter, value⟩]) hrest).after
          [⟨letter, value⟩] (Nat.le_refl _) ?_
        exact fun _ => .setting hheld hnot
      · refine counts_lost hline hkey hheld fun _ => ?_
        exact (ih depth hn place _ _ rest before hrest).skip [⟨letter, value⟩]
          fun hnil _ => absurd hnil (List.cons_ne_nil _ _)
  | @configfile heading key value file lines included calls hkey hopen _ hfile _ ihfile ih =>
      obtain ⟨n, ih⟩ := ih
      obtain ⟨m, ihfile⟩ := ihfile
      refine ⟨max n (m + 1), ?_⟩
      intro depth hdepth place k old raw before hraw
      obtain ⟨line, rest, rfl, hline, hrest⟩ := List.map_eq_cons_iff.mp hraw
      have hn : n ≤ depth := Nat.le_trans (Nat.le_max_left _ _) hdepth
      by_cases hheld : left (k :: place) old = heading
      · obtain ⟨depth', rfl⟩ : ∃ depth', depth = depth' + 1 :=
          Nat.exists_eq_succ_of_ne_zero (by omega)
        have hread : optC fopen (readOptionsFile left takeDown fopen (depth' + 1) (k :: place))
            value before = readLoop left takeDown
              (fun place => optC fopen (readOptionsFile left takeDown fopen depth' place))
              (k :: place) 0 [] (loopLines file) before := by
          rw [optC, hopen]
          rfl
        rw [readLoop_kept hline hkey hheld, if_pos rfl, hread]
        rcases ihfile depth' (by omega) (k :: place) 0 [] (loopLines file) before rfl with
          ⟨stop, hstop⟩ | ⟨made, hmade, hle, heq⟩
        · rw [hstop]
          exact Or.inl ⟨stop, rfl⟩
        · rw [hmade]
          refine (ih (depth' + 1) hn place (k + 1) heading rest (before ++ made) hrest).after
            included hle ?_
          exact fun hall => .configfile hheld hkey hopen (heq hall)
      · refine counts_lost hline hkey hheld fun hfits => ?_
        refine (ih depth hn place _ _ rest before hrest).skip included fun hnil hkept => ?_
        exact .idle hheld hfits hkey hopen (hnil ▸ hfile) hkept

/-- An array that keeps its contents carries the heading over. -/
theorem keeps_kept {left : List Nat → CStr → CStr} (hkeeps : ∀ place old, left place old = old)
    (h : Stands fopen loopFile heading lines calls) :
    ∀ (place : List Nat) (k : Nat),
      Kept left fopen place k (heading.getD []) (heading.getD []) lines := by
  induction h with
  | nil heading => exact fun place k => .nil place k _ _
  | blank _ ih =>
      intro place k
      refine .blank ?_
      rw [hkeeps]
      exact ih place (k + 1)
  | heading _ _ ih => exact fun place k => .heading (ih place (k + 1))
  | setting hkey _ _ hc _ ih =>
      intro place k
      refine .setting (hkeeps _ _) ?_ (ih place (k + 1))
      rw [Option.getD_some, hkey]
      exact fun h => hc (Option.some.inj h)
  | configfile hkey hopen _ _ _ ihfile ih =>
      exact fun place k =>
        .configfile (hkeeps _ _) hkey hopen (ihfile (k :: place) 0) (ih place (k + 1))

section Files

variable {left : List Nat → CStr → CStr} {file : List UInt8}

/-- A file of the format, along the lines of the loop. -/
theorem standsFor_loop (h : StandsFor fopen file calls) :
    Stands fopen loopFile none (loopFile file) calls :=
  stands_spoken h.2 (fun _ hshort => spoken_loopFile hshort) (spoken_loopFile h.1)

theorem kept_means (h : StandsFor fopen file calls) (hkept : HeadingsKept left fopen file) :
    MeansCalls left fopen file calls := by
  obtain ⟨n, happlies⟩ := readLoop_applies left (standsFor_loop h)
  intro σ fct options
  refine ⟨n + 1, ?_⟩
  intro depth hdepth
  obtain ⟨depth', rfl⟩ : ∃ depth', depth = depth' + 1 :=
    Nat.exists_eq_succ_of_ne_zero (by omega)
  exact happlies depth' (by omega) fct [] 0 [] (loopLines file) options rfl hkept

theorem means_kept (h : StandsFor fopen file calls) (hmeans : MeansCalls left fopen file calls) :
    HeadingsKept left fopen file := by
  obtain ⟨n, hcounts⟩ := readLoop_counts left (standsFor_loop h)
  obtain ⟨m, hread⟩ := hmeans (List Call) takeDown []
  have hloop := hread (max n m + 1) (by omega)
  rw [applyCalls_takeDown, List.nil_append] at hloop
  rcases hcounts (max n m) (Nat.le_max_left n m) [] 0 [] (loopLines file) [] rfl with
    ⟨stop, hstop⟩ | ⟨made, hmade, -, heq⟩
  · cases hloop.symm.trans hstop
  · have := Except.ok.inj (hmade.symm.trans hloop)
    exact heq (congrArg List.length this)

/-- **IN PRACTICE** — where the array keeps its contents from round to round,
    every file of the format means its calls. -/
theorem means_of_keeps (hkeeps : ∀ place old, left place old = old)
    (h : StandsFor fopen file calls) : MeansCalls left fopen file calls :=
  kept_means h (keeps_kept hkeeps (standsFor_loop h) [] 0)

end Files

/-- **THE FILE MEANS ITS CALLS** exactly where the array declared in the loop
    still holds the nearest heading. -/
theorem meansCalls_iff (left : List Nat → CStr → CStr) (fopen : CStr → Option (List UInt8))
    (file : List UInt8) (calls : List Call) (h : StandsFor fopen file calls) :
    MeansCalls left fopen file calls ↔ HeadingsKept left fopen file :=
  ⟨means_kept h, kept_means h⟩

/-- A file with one setting. -/
def eth0Conf : List UInt8 := str "[Capture]" ++ 10 :: (str "interface = i:eth0 # first" ++ [10])

/-- It stands for `-i i:eth0`. -/
theorem eth0Conf_stands : StandsFor (fun _ => none) eth0Conf [⟨ch 'i', str "i:eth0"⟩] := by
  have hread : readFile eth0Conf =
      [.heading (str "capture"), .setting (str "interface") (str "i:eth0"), .blank] := by
    decide +kernel
  refine ⟨by unfold Short; decide +kernel, ?_⟩
  rw [hread]
  have hkey : findOptFunctionKey (qualified (str "capture") (str "interface")) =
      some (ch 'i') := by
    decide +kernel
  exact .heading (by decide) (.setting hkey (by decide) (by decide) (by decide)
    (.blank (.nil _)))

/-- The file read with an array that keeps its contents. -/
theorem meansCalls_eth0 :
    MeansCalls (fun _ old => old) (fun _ => none) eth0Conf [⟨ch 'i', str "i:eth0"⟩] ↔
      HeadingsKept (fun _ old => old) (fun _ => none) eth0Conf :=
  meansCalls_iff (fun _ old => old) (fun _ => none) eth0Conf _ eth0Conf_stands

/-- **A HEADING THAT IS LOST**: where the array comes up empty in every round,
    `interface` is looked up without its section, and ignored. -/
theorem lost_heading_ignores_setting :
    StandsFor (fun _ => none) eth0Conf [⟨ch 'i', str "i:eth0"⟩] ∧
      ¬ MeansCalls (fun _ _ => []) (fun _ => none) eth0Conf [⟨ch 'i', str "i:eth0"⟩] := by
  refine ⟨eth0Conf_stands, ?_⟩
  intro h
  obtain ⟨n, hread⟩ := h (List Call) takeDown []
  have hlines : loopLines eth0Conf =
      [str "[Capture]" ++ [10], str "interface = i:eth0 # first" ++ [10]] := by
    decide +kernel
  have hempty : readOptionsFile (fun _ _ => []) takeDown (fun _ => none) (n + 1) [] eth0Conf [] =
      .ok [] := by
    have hheading : readLine (str "[Capture]" ++ [10]) = .heading (str "capture") := by
      decide +kernel
    have hsetting : readLine (str "interface = i:eth0 # first" ++ [10]) =
        .setting (str "interface") (str "i:eth0") := by
      decide +kernel
    have hkey : findOptFunctionKey (qualified (str "capture") (str "interface")) =
        some (ch 'i') := by
      decide +kernel
    rw [readOptionsFile, hlines, readLoop_heading hheading (by decide),
      readLoop_lost hsetting hkey (by decide), if_neg (by decide), readLoop]
  cases hempty.symm.trans (hread (n + 1) (Nat.le_succ n))

end Impd4e.ConfigFile
