import Impd4e.CString
import Impd4e.Lib.Cut
import Mathlib.Data.List.Count
import Mathlib.Tactic.Common

/-! # Configuration files

    `read_options_file_v2` of settings.c with the table `cfg_opt_list`, and
    `opt_c`, through which one file includes another. -/

namespace Impd4e.ConfigFile

open Impd4e.CString

variable {σ : Type}

/-! ## The table -/

/-- `struct config_map_t`.  The function of an entry is the option function of
    its letter. -/
structure ConfigMap where
  optLetter : UInt8
  cfgItem : CStr
  deriving DecidableEq, Repr

def cfgOptList : List ConfigMap := [
  ⟨ch 'v', str "general.verbosity"⟩,
  ⟨ch 'V', str ""⟩,
  ⟨ch 'h', str "general.help"⟩,
  ⟨ch 'i', str "capture.interface"⟩,
  ⟨ch '4', str "capture.ipv4"⟩,
  ⟨ch '6', str "capture.ipv6"⟩,
  ⟨ch 'O', str "capture.offset"⟩,
  ⟨ch 'f', str "filter.bpfilter"⟩,
  ⟨ch 'N', str "filter.snaplength"⟩,
  ⟨ch 'I', str "interval.data_export"⟩,
  ⟨ch 'J', str "interval.probe_stats"⟩,
  ⟨ch 'K', str "interval.interface_stats"⟩,
  ⟨ch 'G', str "interval.location"⟩,
  ⟨ch 'm', str "selection.min_hash_range"⟩,
  ⟨ch 'M', str "selection.max_hash_range"⟩,
  ⟨ch 'r', str "selection.hash_selection_ratio"⟩,
  ⟨ch 's', str "selection.selection_preset"⟩,
  ⟨ch 'S', str "selection.selection_parts"⟩,
  ⟨ch 'F', str "selection.hash_function"⟩,
  ⟨ch 'p', str "selection.pktid_function"⟩,
  ⟨ch 'o', str "ipfix.observation_domain_id"⟩,
  ⟨ch 'u', str "ipfix.one_odid"⟩,
  ⟨ch 'C', str "ipfix.collector_ip_address"⟩,
  ⟨ch 'P', str "ipfix.collector_port"⟩,
  ⟨ch 'e', str "ipfix.export_flush_count"⟩,
  ⟨ch 't', str "template.used_template"⟩,
  ⟨ch 'd', str "geotags.probe_name"⟩,
  ⟨ch 'D', str "geotags.location_name"⟩,
  ⟨ch 'l', str "geotags.latitude"⟩,
  ⟨ch 'L', str "geotags.longitude"⟩,
  ⟨ch 'c', str "general.configfile"⟩,
  ⟨ch 'n', str ""⟩,
  ⟨ch 'X', str ""⟩,
  ⟨ch 'y', str ""⟩]

/-- `find_opt_function_key`: the letter of the function found; `none` is
    `opt_unknown_parameter`. -/
def findOptFunctionKey (key : CStr) : Option UInt8 :=
  (cfgOptList.find? fun entry => key = entry.cfgItem).map ConfigMap.optLetter

/-- `sprintf( fullkey, "%s.%s", heading, key )` -/
def qualified (heading key : CStr) : CStr := heading ++ ch '.' :: key

/-! ## Lines -/

/-- `remove_comment` -/
def removeComment (s : CStr) : CStr := s.takeWhile (· ≠ ch '#')

/-- `l_trim` -/
def lTrim (s : CStr) : CStr := s.dropWhile isspace

/-- `r_trim`, which never looks at the first character. -/
def rTrim : CStr → CStr
  | [] => []
  | c :: rest => c :: rest.rdropWhile isspace

/-- `make_lower` -/
def makeLower (s : CStr) : CStr := s.map tolower

/-- The scan set `[a-zA-Z0-9 _+-]`. -/
def headingChar (c : UInt8) : Bool :=
  (ch 'a' ≤ c && c ≤ ch 'z') || (ch 'A' ≤ c && c ≤ ch 'Z') || (ch '0' ≤ c && c ≤ ch '9')
    || c == ch ' ' || c == ch '_' || c == ch '+' || c == ch '-'

/-- `sscanf(line, "[%[a-zA-Z0-9 _+-]]", heading)`, for a line of two characters
    or more; `none` is the result 0. -/
def sscanfHeading : CStr → Option CStr
  | [] => none
  | c :: rest =>
      if c = ch '[' then
        let heading := rest.takeWhile headingChar
        if heading = [] then none else some heading
      else none

/-- The key and the value of a line. -/
def splitKeyValue (line : CStr) : CStr × CStr :=
  let key := line.takeWhile (· ≠ ch '=')
  let value := (line.dropWhile (· ≠ ch '=')).tail
  (makeLower (lTrim (rTrim key)), lTrim value)

/-- What `fgets` reads into a buffer of `size` bytes, call after call, behind
    the bytes `line` it has already. -/
def fgets (size : Nat) (line : List UInt8) : List UInt8 → List (List UInt8)
  | [] => if line = [] then [] else [line]
  | c :: file =>
      if c = 10 ∨ line.length + 2 = size then (line ++ [c]) :: fgets size [] file
      else fgets size (line ++ [c]) file

/-- The string in a buffer. -/
def cstr (buffer : List UInt8) : CStr := buffer.takeWhile (· ≠ 0)

/-- The lines the loop of `read_options_file_v2` sees. -/
def loopLines (file : List UInt8) : List CStr := (fgets 2000 [] file).map cstr

/-! ## The loop -/

/-- Why reading stops early: `exit`, a write behind an array, or files included
    deeper than the model follows. -/
inductive Stop where
  | exit
  | overflow
  | tooDeep
  deriving DecidableEq, Repr

/-- The option functions by their letters, `opt_c` excepted; `none` is a call of
    `exit`. -/
abbrev OptFct (σ : Type) := UInt8 → CStr → σ → Option σ

/-- A call of the function `find_opt_function_key` finds;
    `opt_unknown_parameter` changes nothing. -/
def callOptFunction (fct : OptFct σ) (optC : CStr → σ → Except Stop σ) (fullkey value : CStr)
    (options : σ) : Except Stop σ :=
  match findOptFunctionKey fullkey with
  | none => .ok options
  | some letter =>
      if letter = ch 'c' then optC value options
      else
        match fct letter value options with
        | none => .error .exit
        | some options => .ok options

/-- The loop of `read_options_file_v2` from the line number `k` on.  `heading`
    is declared inside the loop, so each round begins with an array that holds
    anything; `left place old` is what it holds in the round `place`, where the
    round before left `old`. -/
def readLoop (left : List Nat → CStr → CStr) (fct : OptFct σ)
    (optC : List Nat → CStr → σ → Except Stop σ) (place : List Nat) :
    Nat → CStr → List CStr → σ → Except Stop σ
  | _, _, [], options => .ok options
  | k, old, line :: file, options =>
      let heading := left (k :: place) old
      let line := rTrim (removeComment line)
      if 1 < line.length then
        match sscanfHeading line with
        | some heading =>
            if 100 < heading.length then .error .overflow
            else readLoop left fct optC place (k + 1) (makeLower heading) file options
        | none =>
            let keyValue := splitKeyValue line
            let fullkey := qualified heading keyValue.1
            if 199 < fullkey.length then .error .overflow
            else
              match callOptFunction fct (optC (k :: place)) fullkey keyValue.2 options with
              | .error stop => .error stop
              | .ok options => readLoop left fct optC place (k + 1) heading file options
      else readLoop left fct optC place (k + 1) heading file options

/-- `opt_c`, over the function that reads the file; `fopen` is what the file
    system holds under a name. -/
def optC (fopen : CStr → Option (List UInt8)) (read : List UInt8 → σ → Except Stop σ)
    (arg : CStr) (options : σ) : Except Stop σ :=
  match fopen arg with
  | none => .error .exit
  | some file => read file options

/-- `read_options_file_v2`, down to `depth` files that include each other. -/
def readOptionsFile (left : List Nat → CStr → CStr) (fct : OptFct σ)
    (fopen : CStr → Option (List UInt8)) :
    Nat → List Nat → List UInt8 → σ → Except Stop σ
  | 0, _, _, _ => .error .tooDeep
  | depth + 1, place, file, options =>
      readLoop left fct
        (fun place => optC fopen (readOptionsFile left fct fopen depth place)) place 0 []
        (loopLines file) options

end Impd4e.ConfigFile
