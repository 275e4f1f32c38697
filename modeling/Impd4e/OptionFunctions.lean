import Impd4e.CmdLine
import Impd4e.CommandLine
import Impd4e.ConfigHandler
import Impd4e.HashFunctions
import Impd4e.Lib.Traces
import Impd4e.LogFilter
import Impd4e.SelectionOptions
import Impd4e.SelectionRange

/-! # All option functions

    Every `opt_*` function of settings.c over all that they set: the options, the
    devices, the collector, the location and the logger.  Each of them works on one
    part of this state: `call_on`. -/

namespace Impd4e.OptionFunctions

open Impd4e.CString Impd4e.CmdLine Impd4e.CommandLine Impd4e.ConfigHandler
  Impd4e.HashFunctions Impd4e.LogFilter Impd4e.RangeParser Impd4e.ExportHandler Traces Binary64

/-! ## What the options set -/

/-- `ai_family` -/
inductive AiFamily where
  | inet
  | inet6
  deriving DecidableEq, Repr

/-- `g_options`, `if_devices`, and what the option functions leave in the logger. -/
structure GOptions where
  config : Config
  verbosity : Nat
  verbosityFilterString : CStr
  logLevel : Nat
  filters : Filters
  aiFamily : AiFamily
  bpf : Option CStr
  collectorIP : CStr
  collectorPort : Int
  observationDomainID : Nat
  useOidFirstInterface : Bool
  probeName : Option CStr
  locationName : CStr
  latitude : CStr
  longitude : CStr
  exportLocationInterval : Double

/-- `set_defaults_options`, behind `logger_init(LOGGER_LEVEL_WARN)`. -/
def setDefaultsOptions : GOptions where
  config := CmdLine.defaults calcHashValueBOB
  verbosity := 0
  verbosityFilterString := []
  logLevel := 2
  filters := initialFilters
  aiFamily := .inet6
  bpf := none
  collectorIP := str "localhost"
  collectorPort := 4739
  observationDomainID := 0
  useOidFirstInterface := false
  probeName := none
  locationName := str "unknown"
  latitude := str "unknown"
  longitude := str "unknown"
  exportLocationInterval := 60

/-- The options, changed by a function that leaves the number of interfaces alone. -/
def GOptions.withOptions (s : GOptions) (options : Options) : GOptions :=
  { s with config := { s.config with
      options := { options with numberInterfaces := s.config.options.numberInterfaces }
      interfaces_le := s.config.interfaces_le } }

/-! ## The option functions

    `none` is the end of the program, or of what C defines: a call of `exit`, a read
    or a write behind an array, or a number that does not fit its type. -/

variable (arg : CStr) (s : GOptions)

/-- A function of CmdLine. -/
def onConfig (f : Config → Option Config) : Option GOptions :=
  (f s.config).map fun config => { s with config := config }

def opt_i : Option GOptions := onConfig s (CmdLine.opt_i arg)

def opt_t : Option GOptions := onConfig s fun c => some (CmdLine.opt_t arg c)

def opt_N : Option GOptions := onConfig s fun c => some (CmdLine.opt_N arg c)

def opt_e : Option GOptions := onConfig s fun c => some (CmdLine.opt_e arg c)

def opt_I : Option GOptions := onConfig s fun c => some (CmdLine.opt_I arg c)

def opt_J : Option GOptions := onConfig s fun c => some (CmdLine.opt_J arg c)

def opt_K : Option GOptions := onConfig s fun c => some (CmdLine.opt_K arg c)

/-- The location interval, as `atof` reads it. -/
def setLocationInterval : GOptions := { s with exportLocationInterval := strtod arg }

def opt_G : Option GOptions := some (setLocationInterval arg s)

/-- `strcpy` into an array of 256 bytes. -/
def opt_C : Option GOptions :=
  if 255 < arg.length then none else some { s with collectorIP := arg }

def opt_f : Option GOptions := some { s with bpf := some arg }

def opt_o : Option GOptions := some { s with observationDomainID := u32OfInt (atoi arg) }

def opt_O : Option GOptions :=
  some (s.withOptions { s.config.options with offset := u32OfInt (atoi arg) })

def opt_4 : Option GOptions := some { s with aiFamily := .inet }

def opt_6 : Option GOptions := some { s with aiFamily := .inet6 }

def opt_m : Option GOptions := some (s.withOptions (setSamplingLowerbound s.config.options arg))

def opt_M : Option GOptions := some (s.withOptions (setSamplingUpperbound s.config.options arg))

def opt_r : Option GOptions := (setSamplingRatio s.config.options arg).map s.withOptions

def opt_S : Option GOptions := (parseSelFunction arg s.config.options).map s.withOptions

def opt_s : Option GOptions := opt_S arg s

def opt_F (host : Host) : Option GOptions :=
  some (s.withOptions (Settings.optF (parseFunction host arg) s.config.options))

def opt_p (host : Host) : Option GOptions :=
  some (s.withOptions (Settings.optP (parseFunction host arg) s.config.options))

/-- Conversion of an `int` to `int16_t`. -/
def i16OfInt (n : Int) : Int := n.bmod 65536

def opt_P : Option GOptions :=
  if i16OfInt (atoi arg) < 0 then none
  else some { s with collectorPort := i16OfInt (atoi arg) }

def opt_d : Option GOptions := some { s with probeName := some arg }

def opt_D : Option GOptions := some { s with locationName := arg }

/-- `opt_l` and `opt_L`: two names and an interval, with colons between them. -/
def optPlace (first second : CStr → GOptions → GOptions) : Option GOptions :=
  match strtok arg (ch ':') with
  | none => some s
  | some (tok, rest) =>
      match strtok rest (ch ':') with
      | none => some (first tok s)
      | some (tok', rest) =>
          match strtok rest (ch ':') with
          | none => some (second tok' (first tok s))
          | some (interval, _) =>
              if (interval.head?.map isdigit).getD false then
                some (setLocationInterval interval (second tok' (first tok s)))
              else some (second tok' (first tok s))

def setLatitude (tok : CStr) (s : GOptions) : GOptions := { s with latitude := tok }

def setLongitude (tok : CStr) (s : GOptions) : GOptions := { s with longitude := tok }

def opt_l : Option GOptions := optPlace arg s setLatitude setLongitude

def opt_L : Option GOptions := optPlace arg s setLongitude setLatitude

def opt_u : Option GOptions := some { s with useOidFirstInterface := true }

/-- Conversion to `uint8_t`. -/
def u8OfInt (n : Int) : Nat := (n % 256).toNat

/-- `logger_set_level`, of a level that is not negative. -/
def loggerSetLevel (level : Nat) : Nat := if 6 < level then 5 else level

/-- What `strtok` leaves of the string it took apart: its first token. -/
def firstToken (s : CStr) : CStr :=
  s.takeWhile (· = ch ',') ++ (s.dropWhile (· = ch ',')).takeWhile (· ≠ ch ',')

/-- The verbosity and the filter string of an argument; `none` is NULL. -/
def verbosityOf (verbosity : Nat) (filter : CStr) : Option CStr → Nat × CStr
  | none => (u8OfInt (verbosity + 1), filter)
  | some arg =>
      if (arg.head?.map isdigit).getD false then (u8OfInt (atoi arg), filter)
      else (u8OfInt (verbosity + 1 + (arg.takeWhile (· = ch 'v')).length),
        arg.dropWhile (· = ch 'v'))

def opt_v (optarg : Option CStr) : Option GOptions :=
  let read := verbosityOf s.verbosity s.verbosityFilterString optarg
  some { s with
    verbosity := read.1
    verbosityFilterString := firstToken read.2
    logLevel := loggerSetLevel read.1
    filters := loggerSetFilter s.filters (some read.2) }

/-! ## The table -/

/-- The column `opt_fct` of `cfg_opt_list`. -/
inductive OptFct where
  | opt_v | opt_V | opt_h | opt_i | opt_4 | opt_6 | opt_O | opt_f | opt_N | opt_I | opt_J | opt_K
  | opt_G | opt_m | opt_M | opt_r | opt_s | opt_S | opt_F | opt_p | opt_o | opt_u | opt_C | opt_P
  | opt_e | opt_t | opt_d | opt_D | opt_l | opt_L | opt_c | opt_n | opt_X | opt_y
  deriving DecidableEq, Repr

/-- The letters of the functions, in the order of `cfg_opt_list`. -/
def optFctList : List (UInt8 × OptFct) :=
  [(ch 'v', .opt_v), (ch 'V', .opt_V), (ch 'h', .opt_h), (ch 'i', .opt_i), (ch '4', .opt_4),
    (ch '6', .opt_6), (ch 'O', .opt_O), (ch 'f', .opt_f), (ch 'N', .opt_N), (ch 'I', .opt_I),
    (ch 'J', .opt_J), (ch 'K', .opt_K), (ch 'G', .opt_G), (ch 'm', .opt_m), (ch 'M', .opt_M),
    (ch 'r', .opt_r), (ch 's', .opt_s), (ch 'S', .opt_S), (ch 'F', .opt_F), (ch 'p', .opt_p),
    (ch 'o', .opt_o), (ch 'u', .opt_u), (ch 'C', .opt_C), (ch 'P', .opt_P), (ch 'e', .opt_e),
    (ch 't', .opt_t), (ch 'd', .opt_d), (ch 'D', .opt_D), (ch 'l', .opt_l), (ch 'L', .opt_L),
    (ch 'c', .opt_c), (ch 'n', .opt_n), (ch 'X', .opt_X), (ch 'y', .opt_y)]

/-- The function of a letter. -/
def optFct (c : UInt8) : Option OptFct := (optFctList.find? fun entry => c = entry.1).map Prod.snd

theorem optFct_c {c : UInt8} (h : optFct c = some .opt_c) : c = ch 'c' := by
  obtain ⟨entry, hfind, hfct⟩ := Option.map_eq_some_iff.mp h
  have hmem := List.mem_of_find?_eq_some hfind
  have heq := List.find?_some hfind
  have hletter : ∀ entry ∈ optFctList, entry.2 = .opt_c → entry.1 = ch 'c' := by decide +kernel
  rw [of_decide_eq_true heq]
  exact hletter entry hmem hfct

/-- The call of a function.  `opt_V`, `opt_h` and `opt_X` end the program; `readC` is
    `opt_c` over the files there are.  `getopt` has no NULL for a function that takes
    an argument, so that is no call. -/
def OptFct.call (host : Host) (readC : CStr → GOptions → Option GOptions)
    (optarg : Option CStr) (s : GOptions) : OptFct → Option GOptions
  | .opt_v => OptionFunctions.opt_v s optarg
  | .opt_V => none
  | .opt_h => none
  | .opt_i => optarg.bind fun arg => OptionFunctions.opt_i arg s
  | .opt_4 => OptionFunctions.opt_4 s
  | .opt_6 => OptionFunctions.opt_6 s
  | .opt_O => optarg.bind fun arg => OptionFunctions.opt_O arg s
  | .opt_f => optarg.bind fun arg => OptionFunctions.opt_f arg s
  | .opt_N => optarg.bind fun arg => OptionFunctions.opt_N arg s
  | .opt_I => optarg.bind fun arg => OptionFunctions.opt_I arg s
  | .opt_J => optarg.bind fun arg => OptionFunctions.opt_J arg s
  | .opt_K => optarg.bind fun arg => OptionFunctions.opt_K arg s
  | .opt_G => optarg.bind fun arg => OptionFunctions.opt_G arg s
  | .opt_m => optarg.bind fun arg => OptionFunctions.opt_m arg s
  | .opt_M => optarg.bind fun arg => OptionFunctions.opt_M arg s
  | .opt_r => optarg.bind fun arg => OptionFunctions.opt_r arg s
  | .opt_s => optarg.bind fun arg => OptionFunctions.opt_s arg s
  | .opt_S => optarg.bind fun arg => OptionFunctions.opt_S arg s
  | .opt_F => optarg.bind fun arg => OptionFunctions.opt_F arg s host
  | .opt_p => optarg.bind fun arg => OptionFunctions.opt_p arg s host
  | .opt_o => optarg.bind fun arg => OptionFunctions.opt_o arg s
  | .opt_u => OptionFunctions.opt_u s
  | .opt_C => optarg.bind fun arg => OptionFunctions.opt_C arg s
  | .opt_P => optarg.bind fun arg => OptionFunctions.opt_P arg s
  | .opt_e => optarg.bind fun arg => OptionFunctions.opt_e arg s
  | .opt_t => optarg.bind fun arg => OptionFunctions.opt_t arg s
  | .opt_d => optarg.bind fun arg => OptionFunctions.opt_d arg s
  | .opt_D => optarg.bind fun arg => OptionFunctions.opt_D arg s
  | .opt_l => optarg.bind fun arg => OptionFunctions.opt_l arg s
  | .opt_L => optarg.bind fun arg => OptionFunctions.opt_L arg s
  | .opt_c => optarg.bind fun arg => readC arg s
  | .opt_n => some s
  | .opt_X => none
  | .opt_y => some s

/-- All option functions, by their letters. -/
def optFunctions (host : Host) (readC : CStr → GOptions → Option GOptions) :
    OptFunctions GOptions := fun c optarg s =>
  match optFct c with
  | none => none
  | some fct => fct.call host readC optarg s

/-! ## The parts the functions work on -/

inductive Part where
  | interfaces | offset | hash | pktid | selection | range | flushCount | pktidInterval
  | samplingInterval | statsInterval | log | family | filter | collectorIp | collectorPort
  | domain | firstInterface | probeName | locationName | place
  deriving DecidableEq, Repr

/-- The devices, with what sets them up. -/
structure Slots where
  numberInterfaces : Nat
  templateID : Nat
  snapLength : Nat
  devices : Devices
  tIdx : Nat
  interfaces_le : numberInterfaces ≤ maxInterfaces
  tIdx_le : tIdx ≤ maxInterfaces

def Config.slots (c : Config) : Slots where
  numberInterfaces := c.options.numberInterfaces
  templateID := c.options.templateID
  snapLength := c.options.snapLength
  devices := c.devices
  tIdx := c.tIdx
  interfaces_le := c.interfaces_le
  tIdx_le := c.tIdx_le

/-- A configuration with other slots. -/
def withSlots (c : Config) (v : Slots) : Config where
  options := { c.options with
    numberInterfaces := v.numberInterfaces
    templateID := v.templateID
    snapLength := v.snapLength }
  devices := v.devices
  tIdx := v.tIdx
  interfaces_le := v.interfaces_le
  tIdx_le := v.tIdx_le

/-- What a part holds. -/
@[reducible] def Part.Value : Part → Type
  | .interfaces => Slots
  | .offset => Nat
  | .hash => HashFunction
  | .pktid => Option HashFunction × Bool
  | .selection => SelectionFunction × List RangeSelect
  | .range => UInt32 × UInt32
  | .flushCount => Nat
  | .pktidInterval => Double
  | .samplingInterval => Double
  | .statsInterval => Double
  | .log => Nat × CStr × Nat × Filters
  | .family => AiFamily
  | .filter => Option CStr
  | .collectorIp => CStr
  | .collectorPort => Int
  | .domain => Nat
  | .firstInterface => Bool
  | .probeName => Option CStr
  | .locationName => CStr
  | .place => CStr × CStr × Double

def GOptions.view (s : GOptions) : (p : Part) → p.Value
  | .interfaces => Config.slots s.config
  | .offset => s.config.options.offset
  | .hash => s.config.options.hashFunction
  | .pktid => (s.config.options.pktidFunction, s.config.options.hashAsPacketID)
  | .selection => (s.config.options.selectionFunction, s.config.options.rSel)
  | .range => (s.config.options.selRangeMin, s.config.options.selRangeMax)
  | .flushCount => s.config.options.exportPacketCount
  | .pktidInterval => s.config.options.exportPktidInterval
  | .samplingInterval => s.config.options.exportSamplingInterval
  | .statsInterval => s.config.options.exportStatsInterval
  | .log => (s.verbosity, s.verbosityFilterString, s.logLevel, s.filters)
  | .family => s.aiFamily
  | .filter => s.bpf
  | .collectorIp => s.collectorIP
  | .collectorPort => s.collectorPort
  | .domain => s.observationDomainID
  | .firstInterface => s.useOidFirstInterface
  | .probeName => s.probeName
  | .locationName => s.locationName
  | .place => (s.latitude, s.longitude, s.exportLocationInterval)

def GOptions.put : (p : Part) → p.Value → GOptions → GOptions
  | .interfaces, v, s => { s with config := withSlots s.config v }
  | .offset, v, s => s.withOptions { s.config.options with offset := v }
  | .hash, v, s => s.withOptions { s.config.options with hashFunction := v }
  | .pktid, v, s =>
      s.withOptions { s.config.options with pktidFunction := v.1, hashAsPacketID := v.2 }
  | .selection, v, s =>
      s.withOptions { s.config.options with selectionFunction := v.1, rSel := v.2 }
  | .range, v, s => s.withOptions { s.config.options with selRangeMin := v.1, selRangeMax := v.2 }
  | .flushCount, v, s => s.withOptions { s.config.options with exportPacketCount := v }
  | .pktidInterval, v, s => s.withOptions { s.config.options with exportPktidInterval := v }
  | .samplingInterval, v, s => s.withOptions { s.config.options with exportSamplingInterval := v }
  | .statsInterval, v, s => s.withOptions { s.config.options with exportStatsInterval := v }
  | .log, v, s =>
      { s with
        verbosity := v.1, verbosityFilterString := v.2.1, logLevel := v.2.2.1, filters := v.2.2.2 }
  | .family, v, s => { s with aiFamily := v }
  | .filter, v, s => { s with bpf := v }
  | .collectorIp, v, s => { s with collectorIP := v }
  | .collectorPort, v, s => { s with collectorPort := v }
  | .domain, v, s => { s with observationDomainID := v }
  | .firstInterface, v, s => { s with useOidFirstInterface := v }
  | .probeName, v, s => { s with probeName := v }
  | .locationName, v, s => { s with locationName := v }
  | .place, v, s =>
      { s with latitude := v.1, longitude := v.2.1, exportLocationInterval := v.2.2 }

/-- `g_options` in its parts. -/
def parts : Parts GOptions Part Part.Value where
  view := GOptions.view
  put := GOptions.put
  view_put_ne := by
    intro i j v s hij
    cases i <;> cases j <;> first | rfl | exact absurd rfl hij
  put_comm := by
    intro i j v w s hij
    cases i <;> cases j <;> first | rfl | exact absurd rfl hij

/-- The part a function works on; none where it ends the program or does nothing, and
    for `opt_c`, which works on all. -/
def OptFct.part : OptFct → Option Part
  | .opt_v => some .log
  | .opt_V => none
  | .opt_h => none
  | .opt_i => some .interfaces
  | .opt_4 => some .family
  | .opt_6 => some .family
  | .opt_O => some .offset
  | .opt_f => some .filter
  | .opt_N => some .interfaces
  | .opt_I => some .pktidInterval
  | .opt_J => some .statsInterval
  | .opt_K => some .samplingInterval
  | .opt_G => some .place
  | .opt_m => some .range
  | .opt_M => some .range
  | .opt_r => some .range
  | .opt_s => some .selection
  | .opt_S => some .selection
  | .opt_F => some .hash
  | .opt_p => some .pktid
  | .opt_o => some .domain
  | .opt_u => some .firstInterface
  | .opt_C => some .collectorIp
  | .opt_P => some .collectorPort
  | .opt_e => some .flushCount
  | .opt_t => some .interfaces
  | .opt_d => some .probeName
  | .opt_D => some .locationName
  | .opt_l => some .place
  | .opt_L => some .place
  | .opt_c => none
  | .opt_n => none
  | .opt_X => none
  | .opt_y => none

/-! ### Each function works on its part -/

/-- Any configuration: a function that works on the slots alone may be asked there. -/
def blank : Config := CmdLine.defaults fun _ => 0

theorem opt_i_slots (arg : CStr) (c : Config) : CmdLine.opt_i arg c =
    (CmdLine.opt_i arg (withSlots blank (Config.slots c))).map fun c' =>
      withSlots c (Config.slots c') := by
  rw [CmdLine.opt_i, CmdLine.opt_i]
  by_cases h : c.options.numberInterfaces = maxInterfaces
  · rw [dif_pos h, dif_pos (show (withSlots blank (Config.slots c)).options.numberInterfaces = _
      from h)]
    rfl
  · rw [dif_neg h, dif_neg (show ¬ (withSlots blank (Config.slots c)).options.numberInterfaces = _
      from h)]
    cases arg with
    | nil => rfl
    | cons letter rest => rfl

theorem opt_t_slots (arg : CStr) (c : Config) : CmdLine.opt_t arg c =
    withSlots c (Config.slots (CmdLine.opt_t arg (withSlots blank (Config.slots c)))) := by
  rw [CmdLine.opt_t, CmdLine.opt_t]
  by_cases h : c.tIdx = maxInterfaces
  · rw [dif_pos h, dif_pos (show (withSlots blank (Config.slots c)).tIdx = _ from h)]
    rfl
  · rw [dif_neg h, dif_neg (show ¬ (withSlots blank (Config.slots c)).tIdx = _ from h)]
    rfl

theorem opt_i_on (arg : CStr) : parts.On .interfaces (opt_i arg) := by
  refine ⟨fun v => (CmdLine.opt_i arg (withSlots blank v)).map Config.slots, ?_⟩
  intro s
  rw [opt_i, onConfig, opt_i_slots, Option.map_map, Option.map_map]
  rfl

theorem opt_t_on (arg : CStr) : parts.On .interfaces (opt_t arg) := by
  refine ⟨fun v => some (Config.slots (CmdLine.opt_t arg (withSlots blank v))), ?_⟩
  intro s
  rw [opt_t, onConfig, opt_t_slots]
  rfl

theorem opt_N_on (arg : CStr) : parts.On .interfaces (opt_N arg) :=
  ⟨fun v => some { v with snapLength := u16OfInt (atoi arg) }, fun _ => rfl⟩

theorem opt_I_on (arg : CStr) : parts.On .pktidInterval (opt_I arg) :=
  ⟨fun _ => some (strtod arg), fun _ => rfl⟩

theorem opt_J_on (arg : CStr) : parts.On .statsInterval (opt_J arg) :=
  ⟨fun _ => some (strtod arg), fun _ => rfl⟩

theorem opt_K_on (arg : CStr) : parts.On .samplingInterval (opt_K arg) :=
  ⟨fun _ => some (strtod arg), fun _ => rfl⟩

/-- The place with the interval that is read. -/
def readInterval (arg : CStr) (v : CStr × CStr × Double) : CStr × CStr × Double :=
  (v.1, v.2.1, strtod arg)

theorem setLocationInterval_put (arg : CStr) (s : GOptions) (v : CStr × CStr × Double) :
    setLocationInterval arg (parts.put .place v s) = parts.put .place (readInterval arg v) s :=
  rfl

theorem opt_G_on (arg : CStr) : parts.On .place (opt_G arg) :=
  ⟨fun v => some (readInterval arg v), fun _ => rfl⟩

/-- Two names of a place are set, and an interval. -/
theorem optPlace_on (arg : CStr) {first second : CStr → GOptions → GOptions}
    {put put' : CStr → CStr × CStr × Double → CStr × CStr × Double}
    (hfirst : ∀ tok s v, first tok (parts.put .place v s) = parts.put .place (put tok v) s)
    (hsecond : ∀ tok s v, second tok (parts.put .place v s) = parts.put .place (put' tok v) s) :
    parts.On .place fun s => optPlace arg s first second := by
  refine ⟨fun v =>
    match strtok arg (ch ':') with
    | none => some v
    | some (tok, rest) =>
        match strtok rest (ch ':') with
        | none => some (put tok v)
        | some (tok', rest) =>
            match strtok rest (ch ':') with
            | none => some (put' tok' (put tok v))
            | some (interval, _) =>
                if (interval.head?.map isdigit).getD false then
                  some (readInterval interval (put' tok' (put tok v)))
                else some (put' tok' (put tok v)), ?_⟩
  intro s
  have hview : s = parts.put .place (parts.view s .place) s := rfl
  change optPlace arg s first second = _
  rw [optPlace]
  generalize parts.view s .place = v at hview ⊢
  cases hone : strtok arg (ch ':') with
  | none => exact congrArg some hview
  | some found =>
      obtain ⟨tok, rest⟩ := found
      dsimp only
      have hput : first tok s = parts.put .place (put tok v) s := by
        rw [← hfirst, ← hview]
      rw [hput]
      cases htwo : strtok rest (ch ':') with
      | none => rfl
      | some found' =>
          obtain ⟨tok', rest'⟩ := found'
          dsimp only
          rw [hsecond]
          cases hthree : strtok rest' (ch ':') with
          | none => rfl
          | some found'' =>
              obtain ⟨interval, rest''⟩ := found''
              dsimp only
              by_cases hdigit : (interval.head?.map isdigit).getD false = true
              · rw [if_pos hdigit, if_pos hdigit]
                exact congrArg some (setLocationInterval_put interval s _)
              · rw [if_neg hdigit, if_neg hdigit]
                rfl

theorem opt_l_on (arg : CStr) : parts.On .place (opt_l arg) :=
  @optPlace_on arg _ _ (fun tok v => (tok, v.2)) (fun tok v => (v.1, tok, v.2.2))
    (fun _ _ _ => rfl) fun _ _ _ => rfl

theorem opt_L_on (arg : CStr) : parts.On .place (opt_L arg) :=
  @optPlace_on arg _ _ (fun tok v => (v.1, tok, v.2.2)) (fun tok v => (tok, v.2))
    (fun _ _ _ => rfl) fun _ _ _ => rfl

/-- The options of `blank` with another selection range. -/
def rangeOptions (v : UInt32 × UInt32) : Options :=
  { blank.options with selRangeMin := v.1, selRangeMax := v.2 }

theorem opt_m_on (arg : CStr) : parts.On .range (opt_m arg) := by
  refine ⟨fun v => some ((setSamplingLowerbound (rangeOptions v) arg).selRangeMin,
    (setSamplingLowerbound (rangeOptions v) arg).selRangeMax), ?_⟩
  intro s
  rfl

theorem opt_M_on (arg : CStr) : parts.On .range (opt_M arg) := by
  refine ⟨fun v => some ((setSamplingUpperbound (rangeOptions v) arg).selRangeMin,
    (setSamplingUpperbound (rangeOptions v) arg).selRangeMax), ?_⟩
  intro s
  rfl

/-- The window, which does not depend on the range there is. -/
def windowOf (width : UInt32) : UInt32 × UInt32 :=
  ((SelectionRange.ratioTo width blank.options).selRangeMin,
    (SelectionRange.ratioTo width blank.options).selRangeMax)

theorem withOptions_range (s : GOptions) (v : UInt32 × UInt32) :
    s.withOptions { s.config.options with selRangeMin := v.1, selRangeMax := v.2 } =
      parts.put .range v s := rfl

theorem ratioTo_windowOf (width : UInt32) (o : Options) : SelectionRange.ratioTo width o =
    { o with selRangeMin := (windowOf width).1, selRangeMax := (windowOf width).2 } := by
  rw [windowOf, SelectionRange.ratioTo, SelectionRange.ratioTo]
  by_cases h : 4294967295 - width > 0x19999999
  · rw [if_pos h, if_pos h]
  · rw [if_neg h, if_neg h]

theorem withOptions_ratioTo (s : GOptions) (width : UInt32) :
    s.withOptions (SelectionRange.ratioTo width s.config.options) =
      parts.put .range (windowOf width) s :=
  (congrArg s.withOptions (ratioTo_windowOf width s.config.options)).trans
    (withOptions_range s (windowOf width))

theorem map_map_congr {α β β' γ : Type} {f : α → β} {g : β → γ} {f' : α → β'} {g' : β' → γ}
    (h : ∀ a, g (f a) = g' (f' a)) (x : Option α) : (x.map f).map g = (x.map f').map g' := by
  cases x with
  | none => rfl
  | some a => exact congrArg some (h a)

theorem opt_r_on (arg : CStr) : parts.On .range (opt_r arg) := by
  refine ⟨fun _ => (u32OfDouble (ratioProduct (strtod arg))).map windowOf, ?_⟩
  intro s
  rw [opt_r, SelectionRange.setSamplingRatio_eq]
  exact map_map_congr (withOptions_ratioTo s) (u32OfDouble (ratioProduct (strtod arg)))

/-- The options of `blank` with another selection function. -/
def selectionOptions (v : SelectionFunction × List RangeSelect) : Options :=
  { blank.options with selectionFunction := v.1, rSel := v.2 }

/-- The loop over the table looks at no other option. -/
theorem selfunctionLoop_on (arg : CStr) (table : List (CStr × SelectionFunction)) :
    ∀ o o' : Options, o.selectionFunction = o'.selectionFunction → o.rSel = o'.rSel →
      selfunctionLoop arg table o = (selfunctionLoop arg table o').map fun out =>
        { o with selectionFunction := out.selectionFunction, rSel := out.rSel } := by
  induction table with
  | nil =>
      intro o o' hfunction hsel
      rw [selfunctionLoop, selfunctionLoop, Option.map_some, ← hfunction, ← hsel]
  | cons row table ih =>
      intro o o' hfunction hsel
      obtain ⟨hstring, selfunction⟩ := row
      rw [selfunctionLoop, selfunctionLoop]
      by_cases hfit : strncasecmpEq arg hstring hstring.length = true
      · rw [if_pos hfit, if_pos hfit]
        cases parseRange (arg.drop hstring.length) with
        | none => rfl
        | some chain => exact ih _ _ rfl rfl
      · rw [if_neg hfit, if_neg hfit]
        exact ih o o' hfunction hsel

theorem opt_S_on (arg : CStr) : parts.On .selection (opt_S arg) := by
  refine ⟨fun v => (parseSelFunction arg (selectionOptions v)).map fun o =>
    (o.selectionFunction, o.rSel), ?_⟩
  intro s
  have hloop := selfunctionLoop_on arg selfunctions s.config.options
    (selectionOptions (parts.view s .selection)) rfl rfl
  change (selfunctionLoop arg selfunctions s.config.options).map s.withOptions =
    ((selfunctionLoop arg selfunctions _).map _).map _
  rw [hloop, Option.map_map, Option.map_map]
  rfl

theorem opt_O_on (arg : CStr) : parts.On .offset (opt_O arg) :=
  ⟨fun _ => some (u32OfInt (atoi arg)), fun _ => rfl⟩

theorem opt_F_on (host : Host) (arg : CStr) : parts.On .hash fun s => opt_F arg s host :=
  ⟨fun _ => some (parseFunction host arg), fun _ => rfl⟩

theorem opt_p_on (host : Host) (arg : CStr) : parts.On .pktid fun s => opt_p arg s host :=
  ⟨fun _ => some (some (parseFunction host arg), false), fun _ => rfl⟩

theorem opt_o_on (arg : CStr) : parts.On .domain (opt_o arg) :=
  ⟨fun _ => some (u32OfInt (atoi arg)), fun _ => rfl⟩

theorem opt_e_on (arg : CStr) : parts.On .flushCount (opt_e arg) :=
  ⟨fun _ => some (u32OfInt (atoi arg)), fun _ => rfl⟩

theorem opt_f_on (arg : CStr) : parts.On .filter (opt_f arg) :=
  ⟨fun _ => some (some arg), fun _ => rfl⟩

theorem opt_d_on (arg : CStr) : parts.On .probeName (opt_d arg) :=
  ⟨fun _ => some (some arg), fun _ => rfl⟩

theorem opt_D_on (arg : CStr) : parts.On .locationName (opt_D arg) :=
  ⟨fun _ => some arg, fun _ => rfl⟩

theorem opt_P_on (arg : CStr) : parts.On .collectorPort (opt_P arg) := by
  refine ⟨fun _ => if i16OfInt (atoi arg) < 0 then none else some (i16OfInt (atoi arg)), ?_⟩
  intro s
  rw [opt_P]
  split
  · rfl
  · rfl

theorem opt_C_on (arg : CStr) : parts.On .collectorIp (opt_C arg) := by
  refine ⟨fun _ => if 255 < arg.length then none else some arg, ?_⟩
  intro s
  rw [opt_C]
  split
  · rfl
  · rfl

theorem opt_v_on (optarg : Option CStr) : parts.On .log fun s => opt_v s optarg :=
  ⟨fun v => some ((verbosityOf v.1 v.2.1 optarg).1, firstToken (verbosityOf v.1 v.2.1 optarg).2,
    loggerSetLevel (verbosityOf v.1 v.2.1 optarg).1,
    loggerSetFilter v.2.2.2 (some (verbosityOf v.1 v.2.1 optarg).2)), fun _ => rfl⟩

/-- A function of an argument, which is there or not. -/
theorem bind_on {p : Part} {f : CStr → GOptions → Option GOptions}
    (h : ∀ arg, parts.On p (f arg)) (optarg : Option CStr) :
    parts.On p fun s => optarg.bind fun arg => f arg s := by
  cases optarg with
  | none => exact ⟨fun _ => none, fun _ => rfl⟩
  | some arg => exact h arg

/-- **EACH FUNCTION HAS ITS PART** of the state, and works on no other. -/
theorem call_on (host : Host) (readC : CStr → GOptions → Option GOptions)
    (optarg : Option CStr) {fct : OptFct} {p : Part} (h : fct.part = some p) :
    parts.On p fun s => fct.call host readC optarg s := by
  cases fct with
  | opt_v => cases h; exact opt_v_on optarg
  | opt_V => cases h
  | opt_h => cases h
  | opt_i => cases h; exact bind_on opt_i_on optarg
  | opt_4 => cases h; exact ⟨fun _ => some .inet, fun _ => rfl⟩
  | opt_6 => cases h; exact ⟨fun _ => some .inet6, fun _ => rfl⟩
  | opt_O => cases h; exact bind_on opt_O_on optarg
  | opt_f => cases h; exact bind_on opt_f_on optarg
  | opt_N => cases h; exact bind_on opt_N_on optarg
  | opt_I => cases h; exact bind_on opt_I_on optarg
  | opt_J => cases h; exact bind_on opt_J_on optarg
  | opt_K => cases h; exact bind_on opt_K_on optarg
  | opt_G => cases h; exact bind_on opt_G_on optarg
  | opt_m => cases h; exact bind_on opt_m_on optarg
  | opt_M => cases h; exact bind_on opt_M_on optarg
  | opt_r => cases h; exact bind_on opt_r_on optarg
  | opt_s => cases h; exact bind_on opt_S_on optarg
  | opt_S => cases h; exact bind_on opt_S_on optarg
  | opt_F => cases h; exact bind_on (opt_F_on host) optarg
  | opt_p => cases h; exact bind_on (opt_p_on host) optarg
  | opt_o => cases h; exact bind_on opt_o_on optarg
  | opt_u => cases h; exact ⟨fun _ => some true, fun _ => rfl⟩
  | opt_C => cases h; exact bind_on opt_C_on optarg
  | opt_P => cases h; exact bind_on opt_P_on optarg
  | opt_e => cases h; exact bind_on opt_e_on optarg
  | opt_t => cases h; exact bind_on opt_t_on optarg
  | opt_d => cases h; exact bind_on opt_d_on optarg
  | opt_D => cases h; exact bind_on opt_D_on optarg
  | opt_l => cases h; exact bind_on opt_l_on optarg
  | opt_L => cases h; exact bind_on opt_L_on optarg
  | opt_c => cases h
  | opt_n => cases h
  | opt_X => cases h
  | opt_y => cases h

end Impd4e.OptionFunctions
