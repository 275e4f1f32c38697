import Impd4e.ConfigFile

/-! # What a configuration file says

    A reading of the format that does not follow the loop: a line is blank, a
    heading or a setting.  Here it meets the loop line by line. -/

namespace Impd4e.ConfigFile

open Impd4e.CString Cut

/-! ## The format -/

inductive Line where
  | blank
  | heading (name : CStr)
  | setting (key value : CStr)
  deriving DecidableEq, Repr

/-- The name in brackets a text begins with. -/
def bracketed : CStr → Option CStr
  | [] => none
  | c :: rest =>
      let name := rest.takeWhile headingChar
      if c = ch '[' ∧ name ≠ [] ∧ (rest.drop name.length).head? = some (ch ']') then some name
      else none

/-- The text of a line, without its comment. -/
def textOf (line : CStr) : CStr := line.takeWhile (· ≠ ch '#')

/-- What is left and right of the first `=`; without one, the text is a key. -/
def leftSide (text : CStr) : CStr := text.takeWhile (· ≠ ch '=')
def rightSide (text : CStr) : CStr := (text.dropWhile (· ≠ ch '=')).tail

def readText (text : CStr) : Line :=
  if trim isspace text = [] then .blank
  else
    match bracketed text with
    | some name => .heading (makeLower name)
    | none =>
        .setting (makeLower (trim isspace (leftSide text))) (trim isspace (rightSide text))

def readLine (line : CStr) : Line := readText (textOf line)

/-! ## A line in the loop -/

/-- `r_trim` trims all but the first character, and `l_trim` that one. -/
theorem lTrim_rTrim (s : CStr) : lTrim (rTrim s) = trim isspace s := by
  cases s with
  | nil => rfl
  | cons c rest =>
      by_cases hc : isspace c = true
      · rw [lTrim, rTrim, List.dropWhile_cons_of_pos hc, dropWhile_rdropWhile, trim,
          List.dropWhile_cons_of_pos hc]
      · rw [lTrim, rTrim, List.dropWhile_cons_of_neg hc, trim, List.dropWhile_cons_of_neg hc]
        exact (rdropWhile_append_neg [] rest hc).symm

theorem rTrim_rTrim (s : CStr) : rTrim (rTrim s) = rTrim s := by
  cases s with
  | nil => rfl
  | cons c rest => rw [rTrim, rTrim, List.rdropWhile_idempotent]

/-- `r_trim` stops at a character that is no white space. -/
theorem rTrim_append {x : UInt8} (hx : ¬ isspace x = true) (a b : CStr) :
    rTrim (a ++ x :: b) = a ++ x :: b.rdropWhile isspace := by
  cases a with
  | nil => rfl
  | cons c a =>
      rw [List.cons_append, rTrim, rdropWhile_append_neg a b hx, List.cons_append]

theorem length_trim_le_rTrim (s : CStr) : (trim isspace s).length ≤ (rTrim s).length := by
  rw [← lTrim_rTrim]
  exact (List.dropWhile_suffix isspace).length_le

/-- A text with an equals sign, cut at the first one. -/
theorem cut_at_equals {text : CStr} (h : ch '=' ∈ text) :
    ∃ a b, text = a ++ ch '=' :: b ∧ ∀ c ∈ a, (decide (c ≠ ch '=')) = true := by
  obtain ⟨a, b, rfl, ha⟩ := List.eq_append_cons_of_mem h
  refine ⟨a, b, rfl, fun c hc => decide_eq_true ?_⟩
  rintro rfl
  exact ha hc

theorem equals_stops : ¬ (decide (ch '=' ≠ ch '=')) = true := by decide

/-- The loop finds the key and the value of the reading. -/
theorem splitKeyValue_rTrim (text : CStr) :
    splitKeyValue (rTrim text) =
      (makeLower (trim isspace (leftSide text)), trim isspace (rightSide text)) := by
  by_cases heq : ch '=' ∈ text
  · obtain ⟨a, b, rfl, ha⟩ := cut_at_equals heq
    rw [rTrim_append (by decide), splitKeyValue, leftSide, rightSide,
      takeWhile_first ha equals_stops, takeWhile_first ha equals_stops,
      dropWhile_first ha equals_stops, dropWhile_first ha equals_stops, lTrim_rTrim]
    exact congrArg (Prod.mk _) (dropWhile_rdropWhile isspace b)
  · have hall : ∀ c ∈ text, (decide (c ≠ ch '=')) = true := by
      intro c hc
      refine decide_eq_true ?_
      rintro rfl
      exact heq hc
    have hsub : ∀ c ∈ rTrim text, (decide (c ≠ ch '=')) = true := by
      intro c hc
      cases text with
      | nil => exact absurd hc List.not_mem_nil
      | cons d rest =>
          rcases List.mem_cons.mp hc with rfl | hc
          · exact hall c List.mem_cons_self
          · exact hall c (List.mem_cons_of_mem d ((List.rdropWhile_prefix isspace _).subset hc))
    rw [splitKeyValue, leftSide, rightSide, List.takeWhile_eq_self_iff.mpr hall,
      List.takeWhile_eq_self_iff.mpr hsub, List.dropWhile_eq_nil_iff.mpr hall,
      List.dropWhile_eq_nil_iff.mpr hsub, rTrim_rTrim, lTrim_rTrim]
    rfl

/-- What a line can be read as. -/
theorem readLine_cases (line : CStr) :
    (trim isspace (textOf line) = [] ∧ readLine line = .blank) ∨
    (∃ heading, bracketed (textOf line) = some heading ∧
      readLine line = .heading (makeLower heading)) ∨
    (bracketed (textOf line) = none ∧
      readLine line = .setting (makeLower (trim isspace (leftSide (textOf line))))
        (trim isspace (rightSide (textOf line)))) := by
  rw [readLine, readText]
  by_cases hblank : trim isspace (textOf line) = []
  · exact .inl ⟨hblank, if_pos hblank⟩
  · rw [if_neg hblank]
    cases hname : bracketed (textOf line) with
    | none => exact .inr (.inr ⟨rfl, rfl⟩)
    | some heading => exact .inr (.inl ⟨heading, rfl, rfl⟩)

/-- A blank line is skipped. -/
theorem loop_blank {line : CStr} (h : readLine line = .blank) :
    ¬ 1 < (rTrim (removeComment line)).length := by
  rcases readLine_cases line with ⟨hblank, -⟩ | ⟨heading, -, hread⟩ | ⟨-, hread⟩
  · rw [trim_eq_nil_iff] at hblank
    rw [removeComment, ← textOf]
    cases htext : textOf line with
    | nil => exact Nat.not_lt_zero 1
    | cons c rest =>
        have hrest : ∀ d ∈ rest, isspace d = true := fun d hd =>
          hblank d (htext ▸ List.mem_cons_of_mem c hd)
        rw [rTrim, List.rdropWhile_eq_nil_iff.mpr hrest]
        exact Nat.lt_irrefl 1
  · rw [hread] at h
    cases h
  · rw [hread] at h
    cases h

theorem bracketed_eq_some {text name : CStr} (h : bracketed text = some name) :
    name ≠ [] ∧ (∀ c ∈ name, headingChar c = true) ∧
      ∃ more, text = ch '[' :: (name ++ ch ']' :: more) := by
  cases text with
  | nil => cases h
  | cons c rest =>
      rw [bracketed] at h
      by_cases hc : c = ch '[' ∧ rest.takeWhile headingChar ≠ [] ∧
          (rest.drop (rest.takeWhile headingChar).length).head? = some (ch ']')
      · rw [if_pos hc] at h
        obtain rfl := Option.some.inj h
        obtain ⟨rfl, hne, hclose⟩ := hc
        obtain ⟨more, hmore⟩ := List.head?_eq_some_iff.mp hclose
        refine ⟨hne, fun c hc => List.mem_takeWhile_imp hc, more, ?_⟩
        have hsplit : rest.takeWhile headingChar ++
            rest.drop (rest.takeWhile headingChar).length = rest := by
          have htake := List.prefix_iff_eq_take.mp (List.takeWhile_prefix headingChar (l := rest))
          conv_lhs => rw [htake]
          rw [List.length_take_of_le (List.takeWhile_prefix headingChar).length_le,
            List.take_append_drop]
        rw [← hmore, hsplit]
      · rw [if_neg hc] at h
        cases h

/-- A heading line is recognised. -/
theorem loop_heading {line name : CStr} (h : readLine line = .heading name) :
    1 < (rTrim (removeComment line)).length ∧
      ∃ heading, sscanfHeading (rTrim (removeComment line)) = some heading ∧
        heading.length = name.length ∧ makeLower heading = name := by
  rcases readLine_cases line with ⟨-, hread⟩ | ⟨heading, hname, hread⟩ | ⟨-, hread⟩
  · rw [hread] at h
    cases h
  · obtain rfl := Line.heading.inj (hread.symm.trans h)
    obtain ⟨hne, hchars, more, htext⟩ := bracketed_eq_some hname
    -- the closing bracket stops the trim and the scan
    have htrim : rTrim (removeComment line) =
        ch '[' :: (heading ++ ch ']' :: more.rdropWhile isspace) := by
      rw [removeComment, ← textOf, htext]
      exact rTrim_append (by decide) (ch '[' :: heading) more
    rw [htrim, sscanfHeading, if_pos rfl, takeWhile_first hchars (by decide), if_neg hne]
    refine ⟨?_, heading, rfl, (List.length_map tolower).symm, rfl⟩
    rw [List.length_cons, List.length_append, List.length_cons]
    omega
  · rw [hread] at h
    cases h

/-- The key of a line is no longer than what `r_trim` leaves of it. -/
theorem length_key_le_rTrim (text : CStr) :
    (trim isspace (leftSide text)).length ≤ (rTrim text).length := by
  by_cases heq : ch '=' ∈ text
  · obtain ⟨a, b, htext, ha⟩ := cut_at_equals heq
    rw [htext, leftSide, takeWhile_first ha equals_stops, rTrim_append (by decide),
      List.length_append]
    exact Nat.le_trans (length_trim_le isspace a) (Nat.le_add_right _ _)
  · have hall : leftSide text = text := by
      refine List.takeWhile_eq_self_iff.mpr fun c hc => decide_eq_true ?_
      rintro rfl
      exact heq hc
    rw [hall]
    exact length_trim_le_rTrim _

/-- A key without a bracket is not scanned as a heading. -/
theorem sscanfHeading_of_key {text : CStr} (h : ch '[' ∉ trim isspace (leftSide text)) :
    sscanfHeading (rTrim text) = none := by
  cases text with
  | nil => rfl
  | cons c rest =>
      rw [rTrim, sscanfHeading]
      refine if_neg ?_
      rintro rfl
      -- the key would begin with the bracket
      refine h ?_
      have hkey := rdropWhile_append_neg (p := isspace) (x := ch '[') []
        (rest.takeWhile (· ≠ ch '=')) (by decide)
      rw [List.nil_append] at hkey
      rw [leftSide, List.takeWhile_cons_of_pos (by decide), trim,
        List.dropWhile_cons_of_neg (by decide), hkey]
      exact List.mem_cons_self

/-- A bracket stays a bracket in lower case. -/
theorem not_mem_of_makeLower {text : CStr} (h : ch '[' ∉ makeLower text) : ch '[' ∉ text := by
  intro hin
  exact h (List.mem_map.mpr ⟨ch '[', hin, by decide⟩)

/-- A setting line whose key is long enough and has no bracket is cut into its
    key and value. -/
theorem loop_setting {line key value : CStr} (h : readLine line = .setting key value)
    (hlen : 2 ≤ key.length) (hbracket : ch '[' ∉ key) :
    1 < (rTrim (removeComment line)).length ∧
      sscanfHeading (rTrim (removeComment line)) = none ∧
      splitKeyValue (rTrim (removeComment line)) = (key, value) := by
  rcases readLine_cases line with ⟨-, hread⟩ | ⟨heading, -, hread⟩ | ⟨-, hread⟩
  · rw [hread] at h
    cases h
  · rw [hread] at h
    cases h
  · obtain ⟨rfl, rfl⟩ := Line.setting.inj (hread.symm.trans h)
    rw [removeComment, ← textOf]
    refine ⟨?_, sscanfHeading_of_key (not_mem_of_makeLower hbracket), splitKeyValue_rTrim _⟩
    have hleft := length_key_le_rTrim (textOf line)
    rw [makeLower, List.length_map] at hlen
    omega

/-! ## The keys of the table -/

theorem findOptFunctionKey_eq_some {key : CStr} {letter : UInt8}
    (h : findOptFunctionKey key = some letter) :
    ∃ entry ∈ cfgOptList, entry.cfgItem = key ∧ entry.optLetter = letter := by
  obtain ⟨entry, hfind, hletter⟩ := Option.map_eq_some_iff.mp h
  have hkey := List.find?_some hfind
  exact ⟨entry, List.mem_of_find?_eq_some hfind, (of_decide_eq_true hkey).symm, hletter⟩

/-- What comes behind the first dot of an item. -/
def keyOf (item : CStr) : CStr := (item.dropWhile (· ≠ ch '.')).tail

theorem items_shape : ∀ entry ∈ cfgOptList, entry.cfgItem.count (ch '.') ≤ 1 ∧
    ch '[' ∉ entry.cfgItem ∧ entry.cfgItem.length ≤ 199 ∧
    (ch '.' ∈ entry.cfgItem → 2 ≤ (keyOf entry.cfgItem).length) := by
  decide +kernel

theorem items_differ : ∀ entry ∈ cfgOptList, ∀ entry' ∈ cfgOptList,
    keyOf entry.cfgItem = keyOf entry'.cfgItem → entry.cfgItem = entry'.cfgItem := by
  decide +kernel

/-- An item has one dot, so it tells its heading and its key. -/
theorem keyOf_qualified {heading key : CStr} {letter : UInt8}
    (h : findOptFunctionKey (qualified heading key) = some letter) :
    keyOf (qualified heading key) = key := by
  obtain ⟨entry, hmem, hitem, -⟩ := findOptFunctionKey_eq_some h
  have hcount := (items_shape entry hmem).1
  rw [hitem, qualified, List.count_append, List.count_cons_self] at hcount
  have hhead : ch '.' ∉ heading := List.count_eq_zero.mp (by omega)
  have hstop : ∀ c ∈ heading, (decide (c ≠ ch '.')) = true := by
    intro c hc
    refine decide_eq_true ?_
    rintro rfl
    exact hhead hc
  rw [keyOf, qualified, dropWhile_first hstop (by decide), List.tail_cons]

/-- A key that is found is long enough, has no bracket, and fits `fullkey`. -/
theorem found_key {heading key : CStr} {letter : UInt8}
    (h : findOptFunctionKey (qualified heading key) = some letter) :
    2 ≤ key.length ∧ ch '[' ∉ key ∧ (qualified heading key).length ≤ 199 := by
  obtain ⟨entry, hmem, hitem, -⟩ := findOptFunctionKey_eq_some h
  obtain ⟨-, hbracket, hlen, hkey⟩ := items_shape entry hmem
  rw [hitem] at hbracket hlen hkey
  rw [keyOf_qualified h] at hkey
  refine ⟨hkey (List.mem_append_right heading List.mem_cons_self), ?_, hlen⟩
  intro hin
  exact hbracket (List.mem_append_right heading (List.mem_cons_of_mem _ hin))

/-- A key is found under one heading only. -/
theorem found_once {heading heading' key : CStr} {letter letter' : UInt8}
    (h : findOptFunctionKey (qualified heading key) = some letter)
    (h' : findOptFunctionKey (qualified heading' key) = some letter') :
    heading' = heading := by
  obtain ⟨entry, hmem, hitem, -⟩ := findOptFunctionKey_eq_some h
  obtain ⟨entry', hmem', hitem', -⟩ := findOptFunctionKey_eq_some h'
  have hsame := items_differ entry hmem entry' hmem'
  rw [hitem, hitem', keyOf_qualified h, keyOf_qualified h'] at hsame
  exact (List.append_cancel_right (hsame rfl)).symm

/-! ## Newlines -/

theorem newline_space : ∀ c ∈ ([10] : CStr), isspace c = true := by
  intro c hc
  rw [List.mem_singleton.mp hc]
  rfl

theorem leftSide_newline (text : CStr) :
    trim isspace (leftSide (text ++ [10])) = trim isspace (leftSide text) := by
  rcases takeWhile_snoc (p := fun c => decide (c ≠ ch '=')) (x := 10) text (by decide)
    with hsame | hsnoc
  · exact congrArg (trim isspace) hsame
  · exact (congrArg (trim isspace) hsnoc).trans (trim_append_pos _ newline_space)

theorem rightSide_newline (text : CStr) :
    trim isspace (rightSide (text ++ [10])) = trim isspace (rightSide text) := by
  by_cases heq : ch '=' ∈ text
  · obtain ⟨a, b, rfl, ha⟩ := cut_at_equals heq
    rw [rightSide, rightSide, List.append_assoc, List.cons_append,
      dropWhile_first ha equals_stops, dropWhile_first ha equals_stops]
    exact trim_append_pos b newline_space
  · have hall : ∀ c ∈ text, (decide (c ≠ ch '=')) = true := by
      intro c hc
      refine decide_eq_true ?_
      rintro rfl
      exact heq hc
    rw [rightSide, rightSide, List.dropWhile_append_of_pos hall,
      List.dropWhile_eq_nil_iff.mpr hall]
    rfl

theorem bracketed_newline (c : UInt8) (rest : CStr) :
    bracketed (c :: rest ++ [10]) = bracketed (c :: rest) := by
  rw [List.cons_append, bracketed, bracketed]
  rcases forall_or_first (fun c => headingChar c = true) rest with
    hall | ⟨name, d, more, rfl, hchars, hd⟩
  · -- the name is not closed
    rw [List.takeWhile_append_of_pos hall, List.takeWhile_eq_self_iff.mpr hall]
    refine (if_neg ?_).trans (if_neg ?_).symm
    · rintro ⟨-, -, hclose⟩
      rw [List.takeWhile_cons_of_neg (by decide), List.append_nil, List.drop_left'
        rfl] at hclose
      exact absurd (Option.some.inj hclose) (by decide)
    · rintro ⟨-, -, hclose⟩
      rw [List.drop_length] at hclose
      cases hclose
  · rw [List.append_assoc, List.cons_append, takeWhile_first hchars hd,
      takeWhile_first hchars hd, List.drop_left' rfl, List.drop_left' rfl]
    rfl

/-- A newline at its end says nothing. -/
theorem readText_newline (text : CStr) : readText (text ++ [10]) = readText text := by
  rw [readText, readText, trim_append_pos text newline_space, leftSide_newline,
    rightSide_newline]
  cases text with
  | nil => rfl
  | cons c rest => rw [bracketed_newline]

theorem readLine_newline (line : List UInt8) :
    readLine (cstr (line ++ [10])) = readLine (cstr line) := by
  rcases takeWhile_snoc (p := fun c => decide (c ≠ 0)) (x := 10) line (by decide) with
    hsame | hsnoc
  · exact congrArg readLine hsame
  · refine (congrArg readLine hsnoc).trans ?_
    rw [readLine, readLine]
    rcases takeWhile_snoc (p := fun c => decide (c ≠ ch '#')) (x := 10) (cstr line) (by decide)
      with hsame' | hsnoc'
    · exact congrArg readText hsame'
    · exact (congrArg readText hsnoc').trans (readText_newline _)

end Impd4e.ConfigFile
