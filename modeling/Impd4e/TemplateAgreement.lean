import Impd4e.EventLoop

/-! # Records and their templates

    A packet record is built under the id in force for its device: the id of
    the device, or the global one where the device has none.  Four places have
    to agree about an id: `parse_template`, the table `templates[]`, the field
    lists, and the switch that fills a record.  They do for the four ids that
    `parse_template` gives out, and options and commands never put another one
    in force. -/

namespace Impd4e.TemplateAgreement

open ReadProg Impd4e.CString Impd4e.IpfixTemplates Impd4e.PacketHandler Impd4e.Settings
  Impd4e.Traffic Impd4e.CmdLine Impd4e.ConfigHandler Impd4e.EventLoop
open Impd4e.ExportHandler (maxInterfaces Devices)

/-! ## The four ids -/

/-- The id of a template for packets. -/
def Known (tId : Nat) : Prop :=
  tId = mintId ∨ tId = tsId ∨ tId = tsTtlProtoId ∨ tId = tsTtlProtoIpId

theorem parseTemplate_known {s : CStr} {tId : Nat} (h : parseTemplate s = some tId) :
    Known tId := by
  obtain ⟨entry, hfind, rfl⟩ := Option.map_eq_some_iff.mp h
  have hmem := List.mem_of_find?_eq_some hfind
  simp only [templateNames, List.mem_cons, List.not_mem_nil, or_false] at hmem
  rcases hmem with rfl | rfl | rfl | rfl
  · exact Or.inl rfl
  · exact Or.inr (Or.inr (Or.inl rfl))
  · exact Or.inr (Or.inr (Or.inr rfl))
  · exact Or.inr (Or.inl rfl)

theorem Known.ne_absent {tId : Nat} (h : Known tId) : tId ≠ absent := by
  rcases h with rfl | rfl | rfl | rfl <;> decide

/-- The fields of a record are those of a template, with the lengths it
    declares. -/
structure Fits (template : List ExportField) (fields : List (FieldValue × Nat)) : Prop where
  length_eq : fields.length = template.length
  lengths : fields.map Prod.snd = template.map ExportField.length

/-- The table has a template under the id, and the switch fills its fields. -/
structure Agrees (tId : Nat) : Prop where
  known : Known tId
  filled : ∃ template, getTemplate tId = some template ∧
    ∀ m ts hashId offsets layers filled,
      run m (fillFields tId ts hashId offsets layers) = .ok filled →
      ∃ fields, filled = some fields ∧ Fits template fields

section Fill

variable {m : Nat → Option UInt8} {ts : Timeval} {hashId : UInt32} {offsets : HeaderOffset}
  {layers : Layers} {filled : Option (List (FieldValue × Nat))}

theorem fillFields_ts (h : run m (fillFields tsId ts hashId offsets layers) = .ok filled) :
    ∃ fields, filled = some fields ∧ Fits exportFieldsTs fields := by
  obtain rfl := Except.ok.inj h
  exact ⟨_, rfl, rfl, rfl⟩

theorem fillFields_mint (h : run m (fillFields mintId ts hashId offsets layers) = .ok filled) :
    ∃ fields, filled = some fields ∧ Fits exportFieldsMin fields := by
  obtain ⟨ttl, -, hret⟩ := (run_bind_eq_ok _).mp h
  obtain rfl := Except.ok.inj hret
  exact ⟨_, rfl, rfl, rfl⟩

theorem fillFields_tsTtlProto
    (h : run m (fillFields tsTtlProtoId ts hashId offsets layers) = .ok filled) :
    ∃ fields, filled = some fields ∧ Fits exportFieldsTsTtlProto fields := by
  obtain ⟨ttl, -, h⟩ := (run_bind_eq_ok _).mp h
  obtain ⟨length, -, hret⟩ := (run_bind_eq_ok _).mp h
  obtain rfl := Except.ok.inj hret
  exact ⟨_, rfl, rfl, rfl⟩

theorem fillFields_tsTtlProtoIp
    (h : run m (fillFields tsTtlProtoIpId ts hashId offsets layers) = .ok filled) :
    ∃ fields, filled = some fields ∧ Fits exportFieldsTsTtlProtoIp fields := by
  obtain ⟨ttl, -, h⟩ := (run_bind_eq_ok _).mp h
  obtain ⟨length, -, h⟩ := (run_bind_eq_ok _).mp h
  obtain ⟨srcPort, -, h⟩ := (run_bind_eq_ok _).mp h
  obtain ⟨dstPort, -, h⟩ := (run_bind_eq_ok _).mp h
  obtain ⟨srcIpa, -, h⟩ := (run_bind_eq_ok _).mp h
  obtain ⟨dstIpa, -, hret⟩ := (run_bind_eq_ok _).mp h
  obtain rfl := Except.ok.inj hret
  exact ⟨_, rfl, rfl, rfl⟩

end Fill

theorem Known.agrees {tId : Nat} (h : Known tId) : Agrees tId := by
  refine ⟨h, ?_⟩
  rcases h with rfl | rfl | rfl | rfl
  · exact ⟨exportFieldsMin, rfl, fun _ _ _ _ _ _ h => fillFields_mint h⟩
  · exact ⟨exportFieldsTs, rfl, fun _ _ _ _ _ _ h => fillFields_ts h⟩
  · exact ⟨exportFieldsTsTtlProto, rfl, fun _ _ _ _ _ _ h => fillFields_tsTtlProto h⟩
  · exact ⟨exportFieldsTsTtlProtoIp, rfl, fun _ _ _ _ _ _ h => fillFields_tsTtlProtoIp h⟩

/-! ## The gate of the export -/

section Gate

variable {m : Nat → Option UInt8} {o : Options} {ts : Timeval} {device : DeviceDev}
  {hashId : UInt32} {offsets : HeaderOffset} {layers : Layers} {r : Handled}

/-- With `export_pktid_interval` at 0 the selected branch only counts. -/
theorem handleSelected_closed (hgate : o.exportPktidInterval ≤ 0)
    (h : run m (handleSelected o ts device hashId offsets layers) = .ok r) :
    r = ⟨countSelected device, .selected hashId, none, false⟩ := by
  unfold handleSelected at h
  simp only [if_pos hgate] at h
  exact (Except.ok.inj h).symm

/-- With an interval, and one of the four ids in force, it always exports. -/
theorem handleSelected_open (hgate : ¬ o.exportPktidInterval ≤ 0)
    (hid : Agrees (effectiveTemplate o device))
    (h : run m (handleSelected o ts device hashId offsets layers) = .ok r) :
    ∃ fields, r = exportRecord o (countSelected device) (.selected hashId)
      ⟨effectiveTemplate o device, fields⟩ := by
  unfold handleSelected at h
  simp only [if_neg hgate] at h
  cases hpkt : packetId o hashId device.hashBuffer.contents with
  | none => simp only [hpkt] at h; cases h
  | some pktId =>
      obtain ⟨template, htemp, hfits⟩ := hid.filled
      have htemp' : getTemplate (effectiveTemplate o (countSelected device)) = some template :=
        htemp
      simp only [countSelected] at htemp'
      simp only [hpkt, htemp'] at h
      obtain ⟨filled, hfill, hr⟩ := (run_bind_eq_ok _).mp h
      obtain ⟨fields, rfl, -⟩ := hfits m ts hashId offsets layers filled hfill
      exact ⟨fields, (Except.ok.inj hr).symm⟩

end Gate

/-! ## What options put in force -/

/-- The global template is one of the four, and so is that of a configured
    device, if it has one. -/
structure TemplatesKnown (options : Options) (devices : Devices) : Prop where
  global : Known options.templateID
  device : ∀ i : Fin maxInterfaces, i.val < options.numberInterfaces →
    (devices i).templateId = absent ∨ Known (devices i).templateId

theorem TemplatesKnown.effective {options : Options} {devices : Devices}
    (h : TemplatesKnown options devices) {i : Fin maxInterfaces}
    (hi : i.val < options.numberInterfaces) : Known (effectiveTemplate options (devices i)) := by
  rw [effectiveTemplate]
  split
  · exact h.global
  · exact (h.device i hi).resolve_left ‹_›

theorem opt_i_known {arg : CStr} {c c' : Config} (hc : TemplatesKnown c.options c.devices)
    (h : opt_i arg c = some c') : TemplatesKnown c'.options c'.devices := by
  rcases opt_i_cases h with ⟨-, rfl⟩ | ⟨hlt, letter, rest, hoptions, hdevices, -⟩
  · exact hc
  · rw [hoptions, hdevices]
    refine ⟨hc.global, ?_⟩
    intro i hi
    by_cases hnew : i = ⟨c.options.numberInterfaces, hlt⟩
    · -- the new device has no template of its own
      rw [hnew, Function.update_self]
      exact Or.inl (namedDevice_templateId ..)
    · rw [Function.update_of_ne hnew]
      have hne : i.val ≠ c.options.numberInterfaces := fun heq => hnew (Fin.ext heq)
      exact hc.device i (Nat.lt_of_le_of_ne (Nat.le_of_lt_succ hi) hne)

theorem opt_t_known {arg : CStr} {c : Config} (hc : TemplatesKnown c.options c.devices) :
    TemplatesKnown (opt_t arg c).options (opt_t arg c).devices := by
  have hglobal : Known ((parseTemplate arg).getD c.options.templateID) := by
    cases hparse : parseTemplate arg with
    | none => exact hc.global
    | some tId => exact parseTemplate_known hparse
  have hown : (parseTemplate arg).getD absent = absent ∨
      Known ((parseTemplate arg).getD absent) := by
    cases hparse : parseTemplate arg with
    | none => exact Or.inl rfl
    | some tId => exact Or.inr (parseTemplate_known hparse)
  rw [opt_t_options]
  by_cases hfull : c.tIdx = maxInterfaces
  · rw [(opt_t_of_eq hfull).1]
    exact ⟨hglobal, hc.device⟩
  · rw [(opt_t_of_lt (Nat.lt_of_le_of_ne c.tIdx_le hfull)).1]
    refine ⟨hglobal, ?_⟩
    intro i hi
    by_cases hslot : i = ⟨c.tIdx, Nat.lt_of_le_of_ne c.tIdx_le hfull⟩
    · rw [hslot, Function.update_self]
      exact hown
    · rw [Function.update_of_ne hslot]
      exact hc.device i hi

/-- An option that is none of these leaves the templates. -/
theorem TemplatesKnown.of_options {options options' : Options} {devices : Devices}
    (h : TemplatesKnown options devices) (hid : options'.templateID = options.templateID)
    (hn : options'.numberInterfaces = options.numberInterfaces) :
    TemplatesKnown options' devices :=
  ⟨hid ▸ h.global, fun i hi => h.device i (hn ▸ hi)⟩

theorem apply_known {o : Opt} {c c' : Config} (hc : TemplatesKnown c.options c.devices)
    (h : o.apply c = some c') : TemplatesKnown c'.options c'.devices := by
  cases o with
  | i arg => exact opt_i_known hc h
  | t arg =>
      obtain rfl := Option.some.inj h
      exact opt_t_known hc
  | N arg =>
      obtain rfl := Option.some.inj h
      exact hc.of_options rfl rfl
  | e arg =>
      obtain rfl := Option.some.inj h
      exact hc.of_options rfl rfl
  | I arg =>
      obtain rfl := Option.some.inj h
      exact hc.of_options rfl rfl
  | J arg =>
      obtain rfl := Option.some.inj h
      exact hc.of_options rfl rfl
  | K arg =>
      obtain rfl := Option.some.inj h
      exact hc.of_options rfl rfl

/-- **CONFIGURATIONS** — whatever the options. -/
theorem parseCmdlineV2_known {calcHashValueBob : HashFunction} {os : List Opt} {c : Config}
    (h : parseCmdlineV2 (defaults calcHashValueBob) os = some c) :
    TemplatesKnown c.options c.devices := by
  refine parseCmdlineV2_rule (P := fun c => TemplatesKnown c.options c.devices)
    ⟨Or.inl rfl, fun _ hi => absurd hi (Nat.not_lt_zero _)⟩ ?_ h
  intro c o c' hc happly
  exact apply_known hc happly

theorem started_known [Libev] {c : Config} {p : Probe} (h : Started c p)
    (hc : TemplatesKnown c.options c.devices) : TemplatesKnown p.options p.devices := by
  refine ⟨h.templateID ▸ hc.global, ?_⟩
  intro i hi
  rw [h.numberInterfaces] at hi
  obtain ⟨opening, hopen⟩ := h.opened i hi
  obtain ⟨linkType, pktOffset, ipv4Address, hdev⟩ := openDevice_eq opening (c.devices i)
  have htemplate : (p.devices i).templateId = (c.devices i).templateId := by
    rw [hopen] at hdev
    rw [show p.devices i = _ from hdev]
  rw [htemplate]
  exact hc.device i hi

/-! ## What runs keep in force -/

/-- No packet changes the template of its device, and a record is filled under
    the id in force. -/
theorem handle_template {o : Options} {ts : Timeval} {caplen : Nat} {frame : Nat → Option UInt8}
    {device : DeviceDev} {r : Handled}
    (h : Arrival.handle ⟨o, ts, caplen, frame⟩ device = .ok r) :
    r.device.templateId = device.templateId ∧
      ∀ record, r.exported = some record →
        record.templateId = effectiveTemplate o device ∧
        ∃ m hashId offsets layers, run m
          (fillFields record.templateId ts hashId offsets layers) = .ok (some record.fields) := by
  obtain ⟨nt, -, ⟨-, rfl⟩ | ⟨-, hr⟩⟩ := handlePacket_cases h
  · exact ⟨rfl, fun _ hrec => by cases hrec⟩
  · obtain ⟨s, -, ⟨-, rfl⟩ | ⟨hashId, -, rfl⟩ | ⟨hashId, -, hr⟩⟩ := handleIpPacket_cases hr
    · exact ⟨rfl, fun _ hrec => by cases hrec⟩
    · exact ⟨rfl, fun _ hrec => by cases hrec⟩
    · rcases handleSelected_cases hr with rfl | ⟨fields, hfill, rfl⟩
      · exact ⟨rfl, fun _ hrec => by cases hrec⟩
      · rw [exportRecord]
        split
        · refine ⟨rfl, fun record hrec => ?_⟩
          obtain rfl := Option.some.inj hrec
          exact ⟨rfl, _, _, _, _, hfill⟩
        · refine ⟨rfl, fun record hrec => ?_⟩
          obtain rfl := Option.some.inj hrec
          exact ⟨rfl, _, _, _, _, hfill⟩

variable {p p' : Probe} {e : Event} {out : List Output}

/-- Every packet record among the outputs fits its template. -/
def RecordsFit (out : List Output) : Prop :=
  ∀ i record, .exported (.record i record) ∈ out → Known record.templateId ∧
    ∃ template, getTemplate record.templateId = some template ∧ Fits template record.fields

theorem recordsFit_of_quiet (h : Quiet out) : RecordsFit out :=
  fun i record hmem => absurd rfl (h _ hmem i record)

/-- A record put out for a packet is the record of the packet. -/
theorem exported_of_received {i j : Fin maxInterfaces} {r : Handled} {record : Record}
    (h : ExportHandler.Output.record j record ∈ received i r) : r.exported = some record := by
  rw [received] at h
  simp only [List.cons_append, List.mem_append, List.mem_cons, List.mem_map,
    Option.mem_toList] at h
  rcases h with h | ⟨record', hmem, h⟩ | h
  · cases h
  · cases h
    exact hmem
  · split at h
    · simp at h
    · cases h

theorem step_known [Libev] (hp : TemplatesKnown p.options p.devices)
    (h : step p e = .ok (p', out)) : TemplatesKnown p'.options p'.devices ∧ RecordsFit out := by
  obtain ⟨i, ts, caplen, frame, r, rfl, hi, hr, rfl, rfl⟩ | ⟨hticked, hquiet⟩ | ⟨hconf, hquiet⟩ :=
    step_cases h
  · obtain ⟨hkeep, hrecord⟩ := handle_template hr
    constructor
    · refine ⟨hp.global, ?_⟩
      refine (Function.forall_update_iff p.devices fun (j : Fin maxInterfaces) dev =>
        j.val < p.options.numberInterfaces →
          dev.templateId = absent ∨ Known dev.templateId).mpr ⟨?_, fun j _ => hp.device j⟩
      rw [hkeep]
      exact hp.device i
    · intro j record hmem
      obtain ⟨o, ho, heq⟩ := List.mem_map.mp hmem
      obtain rfl := Output.exported.inj heq
      obtain ⟨htId, m, hashId, offsets, layers, hfill⟩ := hrecord record (exported_of_received ho)
      have hknown : Known record.templateId := htId ▸ hp.effective hi
      obtain ⟨template, hget, hfits⟩ := hknown.agrees.filled
      obtain ⟨fields, hfields, hfit⟩ := hfits m ts hashId offsets layers _ hfill
      obtain rfl := Option.some.inj hfields
      exact ⟨hknown, template, hget, hfit⟩
  · refine ⟨⟨hticked.options ▸ hp.global, fun i hi => ?_⟩, recordsFit_of_quiet hquiet⟩
    obtain ⟨size, delta, hdev⟩ := hticked.devices i
    rw [hdev]
    exact hp.device i (hticked.options ▸ hi)
  · refine ⟨?_, recordsFit_of_quiet hquiet⟩
    obtain ⟨templateID, selRangeMin, selRangeMax, hoptions⟩ := hconf.options
    have hn : p'.options.numberInterfaces = p.options.numberInterfaces := by rw [hoptions]
    rcases hconf.templates with ⟨hid, hdevices⟩ | ⟨msg, hparse, hdevices⟩
    · rw [hdevices]
      exact hp.of_options hid hn
    · refine ⟨parseTemplate_known hparse, fun i hi => Or.inl ?_⟩
      rw [hdevices, if_pos (hn ▸ hi)]

theorem run_known [Libev] {es : List Event} (hp : TemplatesKnown p.options p.devices)
    (h : Machine.run probe p es = some (p', out)) :
    TemplatesKnown p'.options p'.devices ∧ RecordsFit out := by
  refine Machine.run_rule (P := fun _ p out => TemplatesKnown p.options p.devices ∧ RecordsFit out)
    ⟨hp, fun _ _ hmem => absurd hmem List.not_mem_nil⟩ ?_ h
  intro _ q out e q' out' ih hstep
  obtain ⟨hknown, hfit⟩ := step_known ih.1 (probe_eq_some.mp hstep)
  refine ⟨hknown, fun i record hmem => ?_⟩
  rcases List.mem_append.mp hmem with hmem | hmem
  · exact ih.2 i record hmem
  · exact hfit i record hmem

/-- **RECORDS FIT THEIR TEMPLATES** — behind any options and any events, the id
    in force for a device is one of the four, the table and the switch agree
    about it, and every packet record exported so far fits its template. -/
theorem records_fit_templates [Libev] {calcHashValueBob : HashFunction} {os : List Opt} {c : Config}
    {es : List Event} (hc : parseCmdlineV2 (defaults calcHashValueBob) os = some c)
    (hp : Started c p) (h : Machine.run probe p es = some (p', out)) :
    (∀ i : Fin maxInterfaces, i.val < p'.options.numberInterfaces →
      Agrees (effectiveTemplate p'.options (p'.devices i))) ∧ RecordsFit out := by
  obtain ⟨hknown, hfit⟩ := run_known (started_known hp (parseCmdlineV2_known hc)) h
  exact ⟨fun i hi => (hknown.effective hi).agrees, hfit⟩

open scoped Libev.Repeating

/-- A template by option, then a socket. -/
def lpSocket : List Opt := [.t (str "lp"), .i (str "u:x")]

/-- The configuration they make, with a hash that is always in the selection
    range. -/
def lpConfig : Config :=
  (parseCmdlineV2 (defaults fun _ => 0x20000000) lpSocket).getD (defaults fun _ => 0)

def lpProbe : Probe := startUp (fun _ => ⟨.raw, ⟨0, 0, 0, 0⟩, none, 3⟩) 0 lpConfig

/-- The command `t ls`. -/
def setLs : Event := .userInput ⟨fun _ _ => false, fun _ _ => false⟩ .t (str "ls")

/-- A small datagram on the socket. -/
def udpPacket : Event := .packet 0 ⟨1, 0⟩ 28 (ofList Datagrams.udpDatagram.bytes)

/-- A packet behind the command is exported, under the new template. -/
theorem records_fit_templates_ls :
    ∃ p' out, Machine.run probe lpProbe [setLs, udpPacket] = some (p', out) ∧
      out.length = 3 ∧ RecordsFit out := by
  obtain ⟨r, hr, hlen⟩ : ∃ r, Arrival.handle
      ⟨(configurationSetTemplate (str "ls") lpProbe).1.options, ⟨1, 0⟩, 28,
        ofList Datagrams.udpDatagram.bytes⟩
      ((configurationSetTemplate (str "ls") lpProbe).1.devices 0) = .ok r ∧
        (received 0 r).length = 2 :=
    ⟨_, (@handlePacket_ip _ _ _ _ _ 0x0800 rfl rfl).trans rfl, rfl⟩
  have hset : probe lpProbe setLs = some ((configurationSetTemplate (str "ls") lpProbe).1, _) :=
    rfl
  have hpacket := probe_eq_some.mpr (step_packet (i := 0) (by decide) hr)
  have hrun : Machine.run probe lpProbe [setLs, udpPacket] = some (_, _) :=
    Machine.run_cons_eq_some.mpr ⟨_, _, _, hset,
      Machine.run_cons_eq_some.mpr ⟨_, _, [], hpacket, rfl, rfl⟩, rfl⟩
  have hc : parseCmdlineV2 (defaults fun _ => 0x20000000) lpSocket = some lpConfig := rfl
  refine ⟨_, _, hrun, ?_, (records_fit_templates hc (startUp_started _ _ _) hrun).2⟩
  rw [List.append_nil, List.length_append, List.length_map, hlen]
  rfl

end Impd4e.TemplateAgreement
