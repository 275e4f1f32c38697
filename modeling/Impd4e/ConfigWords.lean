import Impd4e.ConfigCalls
import Impd4e.OptionFunctions

/-! # A configuration file as words of the command line

    The option -c reads a file of the format that the settings of `[section]`s and
    keys have; every setting becomes a call of an option function.  So a file could
    be left out, and its calls written in its place: `file_as_words`. -/

namespace Impd4e.ConfigWords

open Impd4e.CString Impd4e.ConfigFile Impd4e.CommandLine Impd4e.OptionFunctions
  Impd4e.HashFunctions

/-- The option functions as a file calls them: with its value as an argument, and
    `opt_c` apart. -/
def fileFct (host : Host) : ConfigFile.OptFct GOptions := fun letter value s =>
  optFunctions host (fun _ _ => none) letter (some value) s

/-- What is left of a reading. -/
def ended : Except Stop GOptions → Option GOptions
  | .ok s => some s
  | .error _ => none

/-- `opt_c` over the files there are, read down to a depth. -/
def optC (host : Host) (left : List Nat → CStr → CStr) (fopen : CStr → Option (List UInt8))
    (depth : Nat) (arg : CStr) (s : GOptions) : Option GOptions :=
  ended (ConfigFile.optC fopen (readOptionsFile left (fileFct host) fopen depth []) arg s)

/-- The option functions of the program. -/
def programFct (host : Host) (left : List Nat → CStr → CStr)
    (fopen : CStr → Option (List UInt8)) (depth : Nat) : OptFunctions GOptions :=
  optFunctions host (optC host left fopen depth)

/-! ## One call -/

/-- The option of a call: the value, where the letter takes one. -/
def found (call : Call) : Found :=
  ⟨call.letter, if lookup par call.letter = some .no then none else some call.value⟩

/-- The words for the calls of a file. -/
def wordsFor (calls : List Call) : List CStr := calls.flatMap fun call => render (found call)

variable {fopen : CStr → Option (List UInt8)} {linesOf : List UInt8 → List Line}
  {heading : Option CStr} {lines : List Line} {calls : List Call} {host : Host}
  {readC : CStr → GOptions → Option GOptions}

/-- A letter with a function that is not `opt_v`. -/
def Calls (call : Call) : Prop :=
  (findOptFunctionChar call.letter).isSome = true ∧ call.letter ≠ ch 'v' ∧ call.letter ≠ ch 'c'

theorem findOptFunctionChar_of_key {key : CStr} {letter : UInt8}
    (h : findOptFunctionKey key = some letter) : (findOptFunctionChar letter).isSome = true := by
  obtain ⟨entry, hentry, -, rfl⟩ := findOptFunctionKey_eq_some h
  rw [findOptFunctionChar, Option.isSome_map, List.find?_isSome]
  exact ⟨entry, hentry, decide_eq_true rfl⟩

theorem calls_of_stands (h : Stands fopen linesOf heading lines calls) :
    ∀ call ∈ calls, Calls call := by
  induction h with
  | nil => exact fun call hcall => absurd hcall List.not_mem_nil
  | blank _ ih => exact ih
  | heading _ _ ih => exact ih
  | setting hkey _ hv hc _ ih =>
      intro call hcall
      rcases List.mem_cons.mp hcall with rfl | hcall
      · exact ⟨findOptFunctionChar_of_key hkey, hv, hc⟩
      · exact ih call hcall
  | configfile _ _ _ _ _ ihfile ih =>
      intro call hcall
      rcases List.mem_append.mp hcall with hcall | hcall
      · exact ihfile call hcall
      · exact ih call hcall

theorem need_optional {letter : UInt8} (h : lookup par letter = some .optional) :
    letter = ch 'v' := by
  have htable : ∀ entry ∈ cfgOptList, need (optNeedParam entry.optLetter) = .optional →
      entry.optLetter = ch 'v' := by decide +kernel
  rw [lookup_par] at h
  obtain ⟨c, hfind, hneed⟩ := Option.map_eq_some_iff.mp h
  have hc := findOptFunctionChar_eq hfind
  obtain ⟨entry, hentry, rfl⟩ := Option.map_eq_some_iff.mp hfind
  rw [← hc]
  exact htable entry (List.mem_of_find?_eq_some hentry) hneed

/-- A call of a file is an option with the argument it declares. -/
theorem found_declared {call : Call} (h : Calls call) : (found call).Declared := by
  obtain ⟨hknown, hv, -⟩ := h
  obtain ⟨c, hfind⟩ := Option.isSome_iff_exists.mp hknown
  have hlookup : lookup par call.letter = some (need (optNeedParam c)) := by
    rw [lookup_par, hfind]
    rfl
  rw [found]
  cases hneed : need (optNeedParam c) with
  | no =>
      rw [hneed] at hlookup
      rw [if_pos hlookup]
      exact (declared_no hlookup).mpr rfl
  | required =>
      rw [hneed] at hlookup
      rw [hlookup]
      exact (declared_required hlookup).mpr (Option.some_ne_none _)
  | optional =>
      rw [hneed] at hlookup
      exact absurd (need_optional hlookup) hv

/-- A letter without an argument does not look at one. -/
theorem flag_ignores {letter : UInt8} (h : lookup par letter = some .no)
    (readC readC' : CStr → GOptions → Option GOptions) (optarg : Option CStr) (s : GOptions) :
    optFunctions host readC letter optarg s = optFunctions host readC' letter none s := by
  have htable : ∀ entry ∈ optFctList, lookup par entry.1 = some .no →
      entry.2 ∈ [OptFct.opt_V, .opt_h, .opt_4, .opt_6, .opt_u, .opt_n, .opt_y] := by
    decide +kernel
  rw [optFunctions, optFunctions]
  cases hfct : optFct letter with
  | none => rfl
  | some fct =>
      obtain ⟨entry, hfind, rfl⟩ := Option.map_eq_some_iff.mp hfct
      have heq := List.find?_some hfind
      rw [of_decide_eq_true heq] at h
      have hmem := htable entry (List.mem_of_find?_eq_some hfind) h
      generalize entry.2 = fct at hmem ⊢
      cases fct with
      | opt_V => rfl
      | opt_h => rfl
      | opt_4 => rfl
      | opt_6 => rfl
      | opt_u => rfl
      | opt_n => rfl
      | opt_y => rfl
      | _ => exact absurd hmem (by decide)

/-- `opt_c` is the only function that reads files. -/
theorem optFunctions_readC {letter : UInt8} (hc : letter ≠ ch 'c')
    (readC readC' : CStr → GOptions → Option GOptions) (optarg : Option CStr) (s : GOptions) :
    optFunctions host readC letter optarg s = optFunctions host readC' letter optarg s := by
  rw [optFunctions, optFunctions]
  cases hfct : optFct letter with
  | none => rfl
  | some fct =>
      cases fct with
      | opt_c => exact absurd (optFct_c hfct) hc
      | _ => rfl

/-- A call of a file does what its option does. -/
theorem fileFct_found {call : Call} (h : Calls call)
    (readC : CStr → GOptions → Option GOptions) (s : GOptions) :
    fileFct host call.letter call.value s =
      optFunctions host readC (found call).c (found call).optarg s := by
  rw [fileFct, found]
  by_cases hno : lookup par call.letter = some .no
  · rw [if_pos hno]
    exact flag_ignores hno _ readC _ s
  · rw [if_neg hno]
    exact optFunctions_readC h.2.2 _ readC _ s

/-! ## All calls -/

theorem applyCalls_found (hcalls : ∀ call ∈ calls, Calls call)
    (readC : CStr → GOptions → Option GOptions) (s : GOptions) :
    ended (applyCalls (fileFct host) calls s) =
      callOptFunctions (optFunctions host readC) (calls.map found) s := by
  induction calls generalizing s with
  | nil => rfl
  | cons call calls ih =>
      have hcall := hcalls call List.mem_cons_self
      obtain ⟨c, hfind⟩ := Option.isSome_iff_exists.mp hcall.1
      obtain rfl := findOptFunctionChar_eq hfind
      rw [applyCalls, List.map_cons, callOptFunctions, fileFct_found hcall readC,
        show findOptFunctionChar (found call).c = some call.letter from hfind]
      dsimp only
      cases hstep : optFunctions host readC call.letter (found call).optarg s with
      | none =>
          rw [show optFunctions host readC (found call).c (found call).optarg s = none from hstep]
          rfl
      | some s' =>
          rw [show optFunctions host readC (found call).c (found call).optarg s = some s'
            from hstep]
          exact ih (fun call' hcall' => hcalls call' (List.mem_cons_of_mem _ hcall')) s'

variable {left : List Nat → CStr → CStr} {file : List UInt8} {path : CStr}

/-- A file read on the command line makes its calls. -/
theorem optC_found (hfile : StandsFor fopen file calls) (hkept : HeadingsKept left fopen file)
    (hopen : fopen path = some file) :
    ∃ n, ∀ depth, n ≤ depth → ∀ s, optC host left fopen depth path s =
      callOptFunctions (programFct host left fopen depth) (calls.map found) s := by
  have hloop := standsFor_loop hfile
  obtain ⟨n, happlies⟩ := readLoop_applies left hloop
  refine ⟨n + 1, ?_⟩
  intro depth hdepth s
  obtain ⟨depth', rfl⟩ : ∃ depth', depth = depth' + 1 :=
    Nat.exists_eq_succ_of_ne_zero (by omega)
  have hread : readOptionsFile left (fileFct host) fopen (depth' + 1) [] file s =
      applyCalls (fileFct host) calls s :=
    happlies depth' (by omega) (fileFct host) [] 0 [] (loopLines file) s rfl hkept
  rw [optC, ConfigFile.optC, hopen]
  show ended (readOptionsFile left (fileFct host) fopen (depth' + 1) [] file s) = _
  rw [hread]
  exact applyCalls_found (calls_of_stands hloop) _ s

/-- The words for the calls are read as their options. -/
theorem getopt_wordsFor (hcalls : ∀ call ∈ calls, Calls call) (after : List CStr) :
    getopt none (wordsFor calls ++ after) = calls.map found ++ getopt none after := by
  have hdeclared : ∀ f ∈ calls.map found, f.Declared := by
    intro f hf
    obtain ⟨call, hcall, rfl⟩ := List.mem_map.mp hf
    exact found_declared (hcalls call hcall)
  rw [wordsFor, ← List.flatMap_map found render calls]
  exact getopt_renders hdeclared after

/-- The option -c. -/
def fileOption (path : CStr) : Found := ⟨ch 'c', some path⟩

theorem callOptFunctions_file (depth : Nat) (after : List Found) (s : GOptions) :
    callOptFunctions (programFct host left fopen depth) (fileOption path :: after) s =
      (optC host left fopen depth path s).bind fun s =>
        callOptFunctions (programFct host left fopen depth) after s := by
  have hknown : Known (fileOption path) := by
    show (findOptFunctionChar (ch 'c')).isSome = true
    decide +kernel
  have hfct : optFct (ch 'c') = some .opt_c := by decide +kernel
  have hcall : programFct host left fopen depth (ch 'c') (some path) s =
      optC host left fopen depth path s := by
    rw [programFct, optFunctions, hfct]
    rfl
  exact (callOptFunctions_cons _ hknown after s).trans (congrArg (Option.bind · _) hcall)

/-- **A FILE IS ITS CALLS, WRITTEN OUT** — wherever -c stands on a command line, the
    settings of the file may be given in its place, one option for each, and the
    program is configured the same.  There are words for them. -/
theorem file_as_words (host : Host) (hfile : StandsFor fopen file calls)
    (hkept : HeadingsKept left fopen file) (hopen : fopen path = some file) :
    (∀ after, getopt none (wordsFor calls ++ after) = calls.map found ++ getopt none after) ∧
    ∃ n, ∀ depth, n ≤ depth → ∀ (words words' : List CStr) (before after : List Found)
      (s : GOptions), getopt none words = before ++ fileOption path :: after →
      getopt none words' = before ++ (calls.map found ++ after) →
      parseCmdlineV2 (programFct host left fopen depth) words s =
        parseCmdlineV2 (programFct host left fopen depth) words' s := by
  obtain ⟨n, hread⟩ := @optC_found fopen calls host left file path hfile hkept hopen
  refine ⟨getopt_wordsFor (calls_of_stands hfile.2), n, ?_⟩
  intro depth hdepth words words' before after s hwords hwords'
  rw [parseCmdlineV2, parseCmdlineV2, hwords, hwords', callOptFunctions_append,
    callOptFunctions_append]
  congr 1
  funext s'
  rw [callOptFunctions_append, ← hread depth hdepth s']
  exact callOptFunctions_file depth after s'

/-- A file with a setting that takes a value and one that takes none. -/
def ipfixConf : List UInt8 := str "[ipfix]" ++ 10 :: (str "collector_port = 4740" ++ 10 ::
  (str "one_odid" ++ [10]))

def ipfixCalls : List Call := [⟨ch 'P', str "4740"⟩, ⟨ch 'u', []⟩]

theorem ipfixConf_stands (fopen : CStr → Option (List UInt8)) :
    StandsFor fopen ipfixConf ipfixCalls := by
  have hread : readFile ipfixConf = [.heading (str "ipfix"),
      .setting (str "collector_port") (str "4740"), .setting (str "one_odid") [], .blank] := by
    decide +kernel
  have hport : findOptFunctionKey (qualified (str "ipfix") (str "collector_port")) =
      some (ch 'P') := by
    decide +kernel
  have honly : findOptFunctionKey (qualified (str "ipfix") (str "one_odid")) =
      some (ch 'u') := by
    decide +kernel
  refine ⟨by unfold Short; decide +kernel, ?_⟩
  rw [hread]
  exact .heading (by decide) (.setting hport (by decide) (by decide) (by decide)
    (.setting honly (by decide) (by decide) (by decide) (.blank (.nil _))))

/-- The program where every name is that of this file. -/
def ipfixFct (depth : Nat) : OptFunctions GOptions :=
  programFct ⟨⟨.littleEndian, true⟩, true⟩ (fun _ old => old) (fun _ => some ipfixConf) depth

/-- impd4e -ii:eth0 -cp -e 5, and impd4e -i i:eth0 -P 4740 -u -e5 -/
theorem file_as_words_ipfix : ∃ n, ∀ depth, n ≤ depth → ∀ s : GOptions,
    parseCmdlineV2 (ipfixFct depth) [str "-ii:eth0", str "-cp", str "-e", str "5"] s =
      parseCmdlineV2 (ipfixFct depth)
        ([str "-i", str "i:eth0"] ++ (wordsFor ipfixCalls ++ [str "-e5"])) s := by
  have hfile := ipfixConf_stands fun _ => some ipfixConf
  obtain ⟨-, n, hsame⟩ := @file_as_words (fun _ => some ipfixConf) ipfixCalls
    (fun _ old => old) ipfixConf (str "p") ⟨⟨.littleEndian, true⟩, true⟩ hfile
    (keeps_kept (fun _ _ => rfl) (standsFor_loop hfile) [] 0) rfl
  refine ⟨n, fun depth hdepth s => ?_⟩
  exact hsame depth hdepth _ _ [⟨ch 'i', some (str "i:eth0")⟩] [⟨ch 'e', some (str "5")⟩] s
    (by decide +kernel) (by decide +kernel)

end Impd4e.ConfigWords
