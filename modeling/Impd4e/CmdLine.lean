import Impd4e.CNumber
import Impd4e.ExportHandler

/-! # The command line

    The option functions of settings.c that set up devices, templates, the snap
    length, the flush count and the export intervals, and `parse_cmdline_v2`
    over the options `getopt` finds. -/

namespace Impd4e.CmdLine

open Impd4e.CString Impd4e.IpfixTemplates Impd4e.Settings Impd4e.ExportHandler

/-- Conversion of an `int` to `uint16_t`. -/
def u16OfInt (n : Int) : Nat := (n % 65536).toNat

/-- Conversion of an `int` to `uint32_t`. -/
def u32OfInt (n : Int) : Nat := (n % 4294967296).toNat

/-! ## `parse_template` -/

/-- The array `templates` of `parse_template`. -/
def templateNames : List (CStr × Nat) :=
  [(str "min", mintId), (str "lp", tsTtlProtoId), (str "ls", tsTtlProtoIpId), (str "ts", tsId)]

/-- `parse_template`; `none` is -1. -/
def parseTemplate (argString : CStr) : Option Nat :=
  (templateNames.find? fun t => strcasecmpEq (argString.dropWhile isspace) t.1).map Prod.snd

/-! ## What the options set -/

/-- `g_options`, `if_devices`, and the static `t_idx` of `opt_t`. -/
structure Config where
  options : Options
  devices : Devices
  tIdx : Nat
  interfaces_le : options.numberInterfaces ≤ maxInterfaces
  tIdx_le : tIdx ≤ maxInterfaces

/-- The text of a device name. -/
def toText (s : CStr) : String := String.ofList (s.map fun c => Char.ofNat c.toNat)

/-- The device type of the prefix letter; `default` leaves what is there. -/
def deviceTypeOf (letter : UInt8) (old : DeviceType) : DeviceType :=
  if letter = ch 'i' then .pcap
  else if letter = ch 'p' then .pcapFile
  else if letter = ch 'f' then .file
  else if letter = ch 's' then .socketInet
  else if letter = ch 'u' then .socketUnix
  else if letter = ch 'x' then .unknown
  else old

/-- The device `opt_i` sets up for a name of one character or more. -/
def namedDevice (options : Options) (letter : UInt8) (rest : CStr) (dev : DeviceDev) :
    DeviceDev :=
  let dev := setDefaultsDevice options dev
  if rest.head? = some (ch ':') then
    { dev with deviceType := deviceTypeOf letter dev.deviceType, deviceName := toText rest.tail }
  else { dev with deviceType := .pcap, deviceName := toText (letter :: rest) }

/-- `opt_i`; `none` is the look at `arg[1]` behind an empty string. -/
def opt_i (arg : CStr) (c : Config) : Option Config :=
  if h : c.options.numberInterfaces = maxInterfaces then some c
  else
    match arg with
    | [] => none
    | letter :: rest =>
        have hlt : c.options.numberInterfaces < maxInterfaces :=
          Nat.lt_of_le_of_ne c.interfaces_le h
        let ifIdx : Fin maxInterfaces := ⟨c.options.numberInterfaces, hlt⟩
        some { c with
          options := { c.options with numberInterfaces := c.options.numberInterfaces + 1 }
          devices := Function.update c.devices ifIdx
            (namedDevice c.options letter rest (c.devices ifIdx))
          interfaces_le := hlt }

/-- `opt_t` -/
def opt_t (arg : CStr) (c : Config) : Config :=
  let tid := parseTemplate arg
  let options := { c.options with templateID := tid.getD c.options.templateID }
  if h : c.tIdx = maxInterfaces then { c with options := options }
  else
    have hlt : c.tIdx < maxInterfaces := Nat.lt_of_le_of_ne c.tIdx_le h
    { c with
      options := options
      devices := Function.update c.devices ⟨c.tIdx, hlt⟩
        { c.devices ⟨c.tIdx, hlt⟩ with templateId := tid.getD absent }
      tIdx := c.tIdx + 1
      tIdx_le := hlt }

def opt_N (arg : CStr) (c : Config) : Config :=
  { c with options := { c.options with snapLength := u16OfInt (atoi arg) } }

def opt_e (arg : CStr) (c : Config) : Config :=
  { c with options := { c.options with exportPacketCount := u32OfInt (atoi arg) } }

def opt_I (arg : CStr) (c : Config) : Config :=
  { c with options := { c.options with exportPktidInterval := strtod arg } }

def opt_J (arg : CStr) (c : Config) : Config :=
  { c with options := { c.options with exportStatsInterval := strtod arg } }

def opt_K (arg : CStr) (c : Config) : Config :=
  { c with options := { c.options with exportSamplingInterval := strtod arg } }

/-! ## `parse_cmdline_v2` -/

/-- An option `getopt` finds, with its argument. -/
inductive Opt where
  | i (arg : CStr)
  | t (arg : CStr)
  | N (arg : CStr)
  | e (arg : CStr)
  | I (arg : CStr)
  | J (arg : CStr)
  | K (arg : CStr)
  deriving DecidableEq, Repr

def Opt.apply (c : Config) : Opt → Option Config
  | .i arg => opt_i arg c
  | .t arg => some (opt_t arg c)
  | .N arg => some (opt_N arg c)
  | .e arg => some (opt_e arg c)
  | .I arg => some (opt_I arg c)
  | .J arg => some (opt_J arg c)
  | .K arg => some (opt_K arg c)

/-- The defaults, before any option. -/
def defaults (calcHashValueBob : HashFunction) : Config where
  options := setDefaultsOptions calcHashValueBob
  devices := fun _ => zeroDevice
  tIdx := 0
  interfaces_le := Nat.zero_le _
  tIdx_le := Nat.zero_le _

/-- `parse_cmdline_v2` -/
def parseCmdlineV2 (c : Config) : List Opt → Option Config
  | [] => some c
  | opt :: opts =>
      match opt.apply c with
      | none => none
      | some c => parseCmdlineV2 c opts

theorem parseCmdlineV2_append (c : Config) (os os' : List Opt) :
    parseCmdlineV2 c (os ++ os') = (parseCmdlineV2 c os).bind fun c' => parseCmdlineV2 c' os' := by
  induction os generalizing c with
  | nil => rfl
  | cons o os ih =>
      rw [List.cons_append, parseCmdlineV2, parseCmdlineV2]
      cases o.apply c with
      | none => rfl
      | some c' => exact ih c'

/-- The first option is applied, and the others behind it. -/
theorem parseCmdlineV2_cons {c c' : Config} {o : Opt} {os : List Opt}
    (h : parseCmdlineV2 c (o :: os) = some c') :
    ∃ c₁, o.apply c = some c₁ ∧ parseCmdlineV2 c₁ os = some c' := by
  rw [parseCmdlineV2] at h
  cases happly : o.apply c with
  | none => rw [happly] at h; cases h
  | some c₁ =>
      rw [happly] at h
      exact ⟨c₁, rfl, h⟩

/-- What holds of the defaults and is kept by each option holds behind all. -/
theorem parseCmdlineV2_rule {P : Config → Prop} {c c' : Config} {os : List Opt} (hc : P c)
    (keeps : ∀ (c : Config) (o : Opt) (c' : Config), P c → o.apply c = some c' → P c')
    (h : parseCmdlineV2 c os = some c') : P c' := by
  induction os generalizing c with
  | nil =>
      obtain rfl := Option.some.inj h
      exact hc
  | cons o os ih =>
      obtain ⟨c₁, happly, h⟩ := parseCmdlineV2_cons h
      exact ih (keeps c o c₁ hc happly) h

/-! ## What one option does -/

variable {c c' : Config} {arg : CStr}

theorem namedDevice_templateId (options : Options) (letter : UInt8) (rest : CStr)
    (dev : DeviceDev) : (namedDevice options letter rest dev).templateId = absent := by
  rw [namedDevice]
  split <;> rfl

theorem namedDevice_size (options : Options) (letter : UInt8) (rest : CStr) (dev : DeviceDev) :
    (namedDevice options letter rest dev).hashBuffer.size = options.snapLength := by
  rw [namedDevice]
  split <;> rfl

theorem namedDevice_exportPacketCount (options : Options) (letter : UInt8) (rest : CStr)
    (dev : DeviceDev) : (namedDevice options letter rest dev).exportPacketCount = 0 := by
  rw [namedDevice]
  split <;> rfl

/-- One device more, set up with the options of this moment; or nothing, where
    there are as many as can be. -/
theorem opt_i_cases (h : opt_i arg c = some c') :
    (c.options.numberInterfaces = maxInterfaces ∧ c' = c) ∨
    ∃ (hlt : c.options.numberInterfaces < maxInterfaces) (letter : UInt8) (rest : CStr),
      c'.options = { c.options with numberInterfaces := c.options.numberInterfaces + 1 } ∧
      c'.devices = Function.update c.devices ⟨c.options.numberInterfaces, hlt⟩
        (namedDevice c.options letter rest (c.devices ⟨c.options.numberInterfaces, hlt⟩)) ∧
      c'.tIdx = c.tIdx := by
  rw [opt_i] at h
  split at h
  · rename_i heq
    exact Or.inl ⟨heq, (Option.some.inj h).symm⟩
  · rename_i hne
    cases arg with
    | nil => cases h
    | cons letter rest =>
        have h' := Option.some.inj h
        refine Or.inr ⟨Nat.lt_of_le_of_ne c.interfaces_le hne, letter, rest, ?_, ?_, ?_⟩
        · rw [← h']
        · rw [← h']
        · rw [← h']

@[simp] theorem opt_t_options (arg : CStr) (c : Config) : (opt_t arg c).options =
    { c.options with templateID := (parseTemplate arg).getD c.options.templateID } := by
  rw [opt_t]
  split <;> rfl

/-- The slot the counter of `opt_t` stands at takes the template. -/
theorem opt_t_of_lt (hlt : c.tIdx < maxInterfaces) :
    (opt_t arg c).devices = Function.update c.devices ⟨c.tIdx, hlt⟩
      { c.devices ⟨c.tIdx, hlt⟩ with templateId := (parseTemplate arg).getD absent } ∧
    (opt_t arg c).tIdx = c.tIdx + 1 := by
  rw [opt_t, dif_neg (Nat.ne_of_lt hlt)]
  exact ⟨rfl, rfl⟩

theorem opt_t_of_eq (heq : c.tIdx = maxInterfaces) :
    (opt_t arg c).devices = c.devices ∧ (opt_t arg c).tIdx = c.tIdx := by
  rw [opt_t, dif_pos heq]
  exact ⟨rfl, rfl⟩

end Impd4e.CmdLine
