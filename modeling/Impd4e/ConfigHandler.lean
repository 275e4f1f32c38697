import Impd4e.CmdLine
import Impd4e.Lib.EvTimer

/-! # Runtime configuration

    The running probe, and the configuration functions of config_handler.c with
    what they call in settings.c and helper.c: each changes the probe and
    answers with a text. -/

namespace Impd4e.ConfigHandler

open Impd4e.CString Impd4e.IpfixTemplates Impd4e.PacketHandler Impd4e.ExportHandler
open Impd4e.CmdLine Binary64

/-! ## The running probe -/

/-- A `pcap_t`, by the filter expression that is installed. -/
structure Pcap where
  filter : Option CStr
  deriving DecidableEq, Repr

/-- `device_t`, the union `device_handle`, with the member it holds; a device
    that was not opened holds none. -/
inductive DeviceHandle where
  | pcap (p : Pcap)
  | socket (fd : Int)
  | unset
  deriving DecidableEq, Repr

/-- What the C code gives no meaning to: a look at the wrong member of
    `device_handle`, or another read or conversion without a defined result. -/
inductive Undefined where
  | wrongMember
  | other
  deriving DecidableEq, Repr

/-- The variables of the running probe. -/
structure Probe where
  options : Options
  devices : Devices
  handles : Fin maxInterfaces → DeviceHandle
  exportTimerPkid : EvTimer
  exportTimerSampling : EvTimer
  exportTimerStats : EvTimer
  exportTimerLocation : EvTimer
  interfaces_le : options.numberInterfaces ≤ maxInterfaces

/-- The interfaces of a loop up to `number_interfaces`. -/
def Probe.interfaces (p : Probe) : List (Fin maxInterfaces) :=
  (List.finRange maxInterfaces).filter fun i => i.val < p.options.numberInterfaces

theorem Probe.mem_interfaces {p : Probe} {i : Fin maxInterfaces} :
    i ∈ p.interfaces ↔ i.val < p.options.numberInterfaces := by
  rw [Probe.interfaces, List.mem_filter, decide_eq_true_iff]
  exact ⟨fun h => h.2, fun h => ⟨List.mem_finRange i, h⟩⟩

/-! ## The selection range -/

/-- A 64-bit value cut to `uint32_t` at both ends. -/
def clampU32 (value : Int) : UInt32 :=
  if 4294967295 < value then 4294967295 else if 0 > value then 0 else UInt32.ofNat value.toNat

def setSamplingLowerbound (options : Options) (s : CStr) : Options :=
  let selRangeMin := clampU32 (strtol0 s)
  let selRangeMax :=
    if options.selRangeMax < selRangeMin then selRangeMin else options.selRangeMax
  { options with selRangeMin := selRangeMin, selRangeMax := selRangeMax }

def setSamplingUpperbound (options : Options) (s : CStr) : Options :=
  let selRangeMax := clampU32 (strtol0 s)
  let selRangeMin :=
    if selRangeMax < options.selRangeMin then selRangeMax else options.selRangeMin
  { options with selRangeMin := selRangeMin, selRangeMax := selRangeMax }

/-- Conversion of a double to `uint32_t`; `none` where C gives it no meaning. -/
def u32OfDouble : Double → Option UInt32
  | .finite q =>
      if -1 < q ∧ q < 4294967296 then some (UInt32.ofNat ⌊q⌋.toNat) else none
  | .infinite _ => none
  | .nan => none

/-- `(double) UINT32_MAX / 100 * sampling_ratio` -/
def ratioProduct : Double → Double
  | .finite ratio => ofRat (nearest (4294967295 / 100) * ratio)
  | .infinite negative => .infinite negative
  | .nan => .nan

/-- `set_sampling_ratio`, which returns 0 whenever it returns. -/
def setSamplingRatio (options : Options) (value : CStr) : Option Options :=
  match u32OfDouble (ratioProduct (strtod value)) with
  | none => none
  | some width =>
      if 4294967295 - width > 0x19999999 then
        some { options with selRangeMin := 0x19999999, selRangeMax := width + 0x19999999 }
      else some { options with selRangeMin := 4294967295 - width, selRangeMax := 4294967295 }

/-! ## Filters -/

/-- What libpcap answers for an interface and an expression. -/
structure FilterOracle where
  pcapCompile : Fin maxInterfaces → CStr → Bool
  pcapSetfilter : Fin maxInterfaces → CStr → Bool

/-- `set_filter`, with its result. -/
def set_filter (libpcap : FilterOracle) (bpf : CStr) (i : Fin maxInterfaces) :
    DeviceHandle → Except Undefined (DeviceHandle × Int)
  | .unset => .error .other
  | .socket _ => .error .wrongMember
  | .pcap p =>
      if libpcap.pcapCompile i bpf then
        if libpcap.pcapSetfilter i bpf then .ok (.pcap { p with filter := some bpf }, 0)
        else .ok (.pcap p, -1)
      else .ok (.pcap p, -1)

/-- The loop of `set_all_filter`. -/
def setFilters (libpcap : FilterOracle) (bpf : CStr) :
    List (Fin maxInterfaces) → (Fin maxInterfaces → DeviceHandle) →
      Except Undefined (Fin maxInterfaces → DeviceHandle)
  | [], handles => .ok handles
  | i :: rest, handles =>
      match set_filter libpcap bpf i (handles i) with
      | .error u => .error u
      | .ok (handle, _) => setFilters libpcap bpf rest (Function.update handles i handle)

/-- `set_all_filter`, which does not look at the results. -/
def setAllFilter (libpcap : FilterOracle) (bpf : CStr) (p : Probe) :
    Except Undefined (Probe × Int) :=
  match setFilters libpcap bpf p.interfaces p.handles with
  | .error u => .error u
  | .ok handles => .ok ({ p with handles := handles }, 0)

/-! ## The configuration functions -/

/-- `SET_CFG_RESPONSE`: the text cut to the 256 bytes of `cfg_response`. -/
def setCfgResponse (text msg : CStr) : CStr := (text ++ msg).take 255

/-- `%d` -/
def decimal (n : Int) : CStr := str (toString n)

def configurationSetTemplate (msg : CStr) (p : Probe) : Probe × CStr :=
  match parseTemplate msg with
  | none => (p, setCfgResponse (str "INFO: unknown template: ") msg)
  | some tId =>
      ({ p with
          options := { p.options with templateID := tId }
          devices := fun i =>
            if i.val < p.options.numberInterfaces then { p.devices i with templateId := absent }
            else p.devices i },
        setCfgResponse (str "INFO: new template set: ") msg)

def configurationSetFilter (libpcap : FilterOracle) (msg : CStr) (p : Probe) :
    Except Undefined (Probe × CStr) :=
  match setAllFilter libpcap msg p with
  | .error u => .error u
  | .ok (p, result) =>
      if -1 = result then .ok (p, setCfgResponse (str "INFO: error setting filter: ") msg)
      else .ok (p, setCfgResponse (str "INFO: new filter expression set: ") msg)

/-- What the three interval commands do to their timer; `none` where they leave
    it. -/
def newTimeout [Libev] (msg : CStr) (timer : EvTimer) : Option EvTimer :=
  let newTimeout := toInt (strtol0 msg)
  if 0 ≤ newTimeout then some (Libev.again { timer with period := .finite newTimeout }) else none

def configurationSetExportToProbestats [Libev] (msg : CStr) (p : Probe) : Probe × CStr :=
  match newTimeout msg p.exportTimerStats with
  | some timer =>
      ({ p with exportTimerStats := timer },
        setCfgResponse (str "INFO: new probestats export timeout set: ") msg)
  | none => (p, setCfgResponse (str "INFO: probestats export timeout NOT changed") [])

def configurationSetExportToIfstats [Libev] (msg : CStr) (p : Probe) : Probe × CStr :=
  match newTimeout msg p.exportTimerSampling with
  | some timer =>
      ({ p with exportTimerSampling := timer },
        setCfgResponse (str "INFO: new ifstats export timeout set: ") msg)
  | none => (p, setCfgResponse (str "INFO: ifstats export timeout NOT changed") [])

def configurationSetExportToPktid [Libev] (msg : CStr) (p : Probe) : Probe × CStr :=
  match newTimeout msg p.exportTimerPkid with
  | some timer =>
      ({ p with exportTimerPkid := timer },
        setCfgResponse (str "INFO: new packet export timeout set: ") msg)
  | none => (p, setCfgResponse (str "INFO: packet export timeout NOT changed") [])

def configurationSetMinSelection (msg : CStr) (p : Probe) : Probe × CStr :=
  let options := setSamplingLowerbound p.options msg
  ({ p with options := options },
    setCfgResponse (str "INFO: minimum selection range set: ")
      (decimal (toInt options.selRangeMin.toNat)))

def configurationSetMaxSelection (msg : CStr) (p : Probe) : Probe × CStr :=
  let options := setSamplingUpperbound p.options msg
  ({ p with options := options },
    setCfgResponse (str "INFO: maximum selection range set: ")
      (decimal (toInt options.selRangeMax.toNat)))

theorem setSamplingRatio_range {options options' : Options} {value : CStr}
    (h : setSamplingRatio options value = some options') :
    ∃ selRangeMin selRangeMax, options' =
      { options with selRangeMin := selRangeMin, selRangeMax := selRangeMax } := by
  rw [setSamplingRatio] at h
  cases hwidth : u32OfDouble (ratioProduct (strtod value)) with
  | none => rw [hwidth] at h; cases h
  | some width =>
      simp only [hwidth] at h
      split at h
      · exact ⟨_, _, (Option.some.inj h).symm⟩
      · exact ⟨_, _, (Option.some.inj h).symm⟩

theorem setSamplingRatio_interfaces {options options' : Options} {value : CStr}
    (h : setSamplingRatio options value = some options') :
    options'.numberInterfaces = options.numberInterfaces := by
  obtain ⟨selRangeMin, selRangeMax, rfl⟩ := setSamplingRatio_range h
  rfl

/-- `configuration_set_ratio`; its other reply, `error setting sampling ration`,
    needs a result that `set_sampling_ratio` never returns. -/
def configurationSetRatio (msg : CStr) (p : Probe) : Except Undefined (Probe × CStr) :=
  match h : setSamplingRatio p.options msg with
  | none => .error .other
  | some options =>
      .ok ({ p with
              options := options
              interfaces_le := setSamplingRatio_interfaces h ▸ p.interfaces_le },
        setCfgResponse (str "INFO: new sampling ratio set: ") msg)

/-- The commands of `configuration_fct` that change something. -/
inductive Command where
  | r
  | m
  | M
  | f
  | t
  | I
  | J
  | K
  deriving DecidableEq, Repr

/-- The function `getFunction` finds for a command, called. -/
def Command.call [Libev] (libpcap : FilterOracle) (msg : CStr) (p : Probe) :
    Command → Except Undefined (Probe × CStr)
  | .r => configurationSetRatio msg p
  | .m => .ok (configurationSetMinSelection msg p)
  | .M => .ok (configurationSetMaxSelection msg p)
  | .f => configurationSetFilter libpcap msg p
  | .t => .ok (configurationSetTemplate msg p)
  | .I => .ok (configurationSetExportToPktid msg p)
  | .J => .ok (configurationSetExportToProbestats msg p)
  | .K => .ok (configurationSetExportToIfstats msg p)

/-! ## What a command can change -/

variable {libpcap : FilterOracle} {msg text : CStr} {p p' : Probe}

/-- The same member of `device_handle`, with another filter perhaps. -/
def SameMember (handle handle' : DeviceHandle) : Prop :=
  handle' = handle ∨ ∃ q q', handle = .pcap q ∧ handle' = .pcap q'

theorem SameMember.trans {a b c : DeviceHandle} (h : SameMember a b) (h' : SameMember b c) :
    SameMember a c := by
  rcases h' with rfl | ⟨q, q', rfl, rfl⟩
  · exact h
  · rcases h with h | ⟨r, r', rfl, -⟩
    · exact Or.inr ⟨q, q', h.symm, rfl⟩
    · exact Or.inr ⟨r, q', rfl, rfl⟩

theorem set_filter_member {bpf : CStr} {i : Fin maxInterfaces} {handle handle' : DeviceHandle}
    {result : Int} (h : set_filter libpcap bpf i handle = .ok (handle', result)) :
    SameMember handle handle' := by
  cases handle with
  | unset => cases h
  | socket fd => cases h
  | pcap q =>
      rw [set_filter] at h
      split at h
      · split at h
        · obtain ⟨rfl, -⟩ := Prod.mk.inj (Except.ok.inj h)
          exact Or.inr ⟨_, _, rfl, rfl⟩
        · obtain ⟨rfl, -⟩ := Prod.mk.inj (Except.ok.inj h)
          exact Or.inl rfl
      · obtain ⟨rfl, -⟩ := Prod.mk.inj (Except.ok.inj h)
        exact Or.inl rfl

theorem setFilters_member {bpf : CStr} {is : List (Fin maxInterfaces)}
    {handles handles' : Fin maxInterfaces → DeviceHandle}
    (h : setFilters libpcap bpf is handles = .ok handles') (i : Fin maxInterfaces) :
    SameMember (handles i) (handles' i) := by
  induction is generalizing handles with
  | nil =>
      obtain rfl := Except.ok.inj h
      exact Or.inl rfl
  | cons j is ih =>
      rw [setFilters] at h
      cases hset : set_filter libpcap bpf j (handles j) with
      | error u => rw [hset] at h; cases h
      | ok r =>
          rw [hset] at h
          have htail := ih h
          by_cases hij : i = j
          · subst hij
            rw [Function.update_self] at htail
            exact (set_filter_member hset).trans htail
          · rwa [Function.update_of_ne hij] at htail

/-- What a command leaves: options but for the global template and the selection
    range, the devices but for their templates, the members of the handles. -/
structure Reconfigured (p p' : Probe) : Prop where
  options : ∃ templateID selRangeMin selRangeMax, p'.options =
    { p.options with
      templateID := templateID, selRangeMin := selRangeMin, selRangeMax := selRangeMax }
  templates : (p'.options.templateID = p.options.templateID ∧ p'.devices = p.devices) ∨
    ∃ msg, parseTemplate msg = some p'.options.templateID ∧
      ∀ i, p'.devices i =
        if i.val < p.options.numberInterfaces then { p.devices i with templateId := absent }
        else p.devices i
  handles : ∀ i, SameMember (p.handles i) (p'.handles i)

theorem Reconfigured.of_options {options : Options} (selRangeMin selRangeMax : UInt32)
    (hoptions : options =
      { p.options with selRangeMin := selRangeMin, selRangeMax := selRangeMax })
    (hp : p'.options = options) (hdevices : p'.devices = p.devices)
    (hhandles : p'.handles = p.handles) : Reconfigured p p' where
  options := ⟨p.options.templateID, selRangeMin, selRangeMax, by rw [hp, hoptions]⟩
  templates := Or.inl ⟨by rw [hp, hoptions], hdevices⟩
  handles i := Or.inl (by rw [hhandles])

theorem Reconfigured.of_timers (hoptions : p'.options = p.options)
    (hdevices : p'.devices = p.devices) (hhandles : p'.handles = p.handles) :
    Reconfigured p p' :=
  .of_options p.options.selRangeMin p.options.selRangeMax rfl hoptions hdevices hhandles

theorem configurationSetExportToPktid_reconfigured [Libev] :
    Reconfigured p (configurationSetExportToPktid msg p).1 := by
  unfold configurationSetExportToPktid
  cases newTimeout msg p.exportTimerPkid with
  | none => exact .of_timers rfl rfl rfl
  | some timer => exact .of_timers rfl rfl rfl

theorem configurationSetExportToProbestats_reconfigured [Libev] :
    Reconfigured p (configurationSetExportToProbestats msg p).1 := by
  unfold configurationSetExportToProbestats
  cases newTimeout msg p.exportTimerStats with
  | none => exact .of_timers rfl rfl rfl
  | some timer => exact .of_timers rfl rfl rfl

theorem configurationSetExportToIfstats_reconfigured [Libev] :
    Reconfigured p (configurationSetExportToIfstats msg p).1 := by
  unfold configurationSetExportToIfstats
  cases newTimeout msg p.exportTimerSampling with
  | none => exact .of_timers rfl rfl rfl
  | some timer => exact .of_timers rfl rfl rfl

theorem configurationSetTemplate_reconfigured :
    Reconfigured p (configurationSetTemplate msg p).1 := by
  rw [configurationSetTemplate]
  cases hparse : parseTemplate msg with
  | none => exact .of_options _ _ rfl rfl rfl rfl
  | some tId => exact ⟨⟨_, _, _, rfl⟩, Or.inr ⟨msg, hparse, fun _ => rfl⟩, fun _ => Or.inl rfl⟩

/-- A filter command that comes to an end went through the loop, and says so. -/
theorem configurationSetFilter_eq_ok
    (h : configurationSetFilter libpcap msg p = .ok (p', text)) :
    ∃ handles, setFilters libpcap msg p.interfaces p.handles = .ok handles ∧
      p' = { p with handles := handles } ∧
      text = setCfgResponse (str "INFO: new filter expression set: ") msg := by
  rw [configurationSetFilter, setAllFilter] at h
  cases hset : setFilters libpcap msg p.interfaces p.handles with
  | error u => rw [hset] at h; cases h
  | ok handles =>
      rw [hset] at h
      obtain ⟨rfl, rfl⟩ := Prod.mk.inj (Except.ok.inj h)
      exact ⟨handles, rfl, rfl, rfl⟩

theorem configurationSetFilter_reconfigured
    (h : configurationSetFilter libpcap msg p = .ok (p', text)) : Reconfigured p p' := by
  obtain ⟨handles, hset, rfl, -⟩ := configurationSetFilter_eq_ok h
  exact ⟨⟨_, _, _, rfl⟩, Or.inl ⟨rfl, rfl⟩, setFilters_member hset⟩

theorem configurationSetRatio_reconfigured
    (h : configurationSetRatio msg p = .ok (p', text)) : Reconfigured p p' := by
  rw [configurationSetRatio] at h
  split at h
  · cases h
  · rename_i options hset
    obtain ⟨rfl, -⟩ := Prod.mk.inj (Except.ok.inj h)
    obtain ⟨selRangeMin, selRangeMax, hrange⟩ := setSamplingRatio_range hset
    exact .of_options selRangeMin selRangeMax hrange rfl rfl rfl

/-- **COMMANDS** — none of them changes more than that. -/
theorem Command.call_reconfigured [Libev] {cmd : Command}
    (h : cmd.call libpcap msg p = .ok (p', text)) :
    Reconfigured p p' := by
  cases cmd with
  | r => exact configurationSetRatio_reconfigured h
  | m =>
      obtain ⟨rfl, -⟩ := Prod.mk.inj (Except.ok.inj h)
      exact .of_options _ _ rfl rfl rfl rfl
  | M =>
      obtain ⟨rfl, -⟩ := Prod.mk.inj (Except.ok.inj h)
      exact .of_options _ _ rfl rfl rfl rfl
  | f => exact configurationSetFilter_reconfigured h
  | t =>
      have hp : (configurationSetTemplate msg p).1 = p' := congrArg Prod.fst (Except.ok.inj h)
      exact hp ▸ configurationSetTemplate_reconfigured
  | I =>
      have hp : (configurationSetExportToPktid msg p).1 = p' :=
        congrArg Prod.fst (Except.ok.inj h)
      exact hp ▸ configurationSetExportToPktid_reconfigured
  | J =>
      have hp : (configurationSetExportToProbestats msg p).1 = p' :=
        congrArg Prod.fst (Except.ok.inj h)
      exact hp ▸ configurationSetExportToProbestats_reconfigured
  | K =>
      have hp : (configurationSetExportToIfstats msg p).1 = p' :=
        congrArg Prod.fst (Except.ok.inj h)
      exact hp ▸ configurationSetExportToIfstats_reconfigured

end Impd4e.ConfigHandler
