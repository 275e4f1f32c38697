import Impd4e.Lib.Machine
import Impd4e.Traffic
import Mathlib.Logic.Function.Basic

/-! # The export timers

    The interface statistics of export_handler.c, the timers that export and
    flush, and the probe as a machine: packets arrive on the devices of
    `if_devices`, timers tick. -/

namespace Impd4e.ExportHandler

open ReadProg Machine Impd4e.IpfixTemplates Impd4e.PacketHandler Impd4e.Traffic

/-! ## Interface statistics -/

/-- `struct pcap_stat`, as far as it is exported. -/
structure PcapStat where
  psRecv : Nat
  psDrop : Nat
  deriving DecidableEq, Repr

/-- `ntoa` -/
def ntoa (ipaddr : Ipv4Address) : String :=
  toString ipaddr.a.toNat ++ "." ++ toString ipaddr.b.toNat ++ "."
    ++ toString ipaddr.c.toNat ++ "." ++ toString ipaddr.d.toNat

/-- What `export_data_interface_stats` reports of a device. -/
structure InterfaceStats where
  observationTimeMilliseconds : Nat
  size : Nat
  deltaCount : Nat
  pcapStat : PcapStat
  deviceName : String
  interfaceDescription : String
  deriving DecidableEq, Repr

/-- Its arrays `fields` and `lengths`. -/
def InterfaceStats.record (stats : InterfaceStats) : Record :=
  ⟨intfStatsId,
    [(.num stats.observationTimeMilliseconds, 8), (.num stats.size, 4),
     (.num stats.deltaCount, 8), (.num stats.pcapStat.psRecv, 4),
     (.num stats.pcapStat.psDrop, 4), (.text stats.deviceName, stats.deviceName.utf8ByteSize),
     (.text stats.interfaceDescription, stats.interfaceDescription.utf8ByteSize)]⟩

/-- Every field has the length its template declares; 65535 stands for any. -/
theorem record_fits (stats : InterfaceStats) :
    ∃ template, getTemplate stats.record.templateId = some template ∧
      template.length = stats.record.fields.length ∧
      ∀ p ∈ template.zip stats.record.fields, p.1.length = 65535 ∨ p.1.length = p.2.2 := by
  refine ⟨exportFieldsInterfaceStats, rfl, rfl, ?_⟩
  intro p hp
  simp only [exportFieldsInterfaceStats, InterfaceStats.record, List.zip_cons_cons,
    List.zip_nil_right, List.mem_cons, List.not_mem_nil, or_false] at hp
  rcases hp with rfl | rfl | rfl | rfl | rfl | rfl | rfl
  · exact Or.inr rfl
  · exact Or.inr rfl
  · exact Or.inr rfl
  · exact Or.inr rfl
  · exact Or.inr rfl
  · exact Or.inl rfl
  · exact Or.inl rfl

/-- `export_data_interface_stats`: the device afterwards, and the statistics
    where `ipfix_export_array` accepts them.  `pcapStat` is what the variable of
    that name holds behind `pcap_stats`.  An address has at most 15 characters,
    so the `snprintf` never cuts it. -/
def exportDataInterfaceStats (dev : DeviceDev) (observationTimeMilliseconds : Nat)
    (size deltaCount : Nat) (pcapStat : PcapStat) (accepted : Bool) :
    DeviceDev × Option InterfaceStats :=
  let pcapStat := if dev.deviceType = .pcap then pcapStat else ⟨0, 0⟩
  if accepted then
    ({ dev with samplingSize := 0, samplingDeltaCount := 0 },
      some ⟨observationTimeMilliseconds, size, deltaCount, pcapStat, dev.deviceName,
        ntoa dev.ipv4Address⟩)
  else (dev, none)

/-! ## The probe as a machine -/

/-- `MAX_INTERFACES` -/
abbrev maxInterfaces : Nat := 10

/-- `if_devices` -/
abbrev Devices := Fin maxInterfaces → DeviceDev

/-- What the probe does that can be seen from outside, and the decision on each
    packet. -/
inductive Output where
  | decided (i : Fin maxInterfaces) (decision : Decision)
  | record (i : Fin maxInterfaces) (record : Record)
  | interfaceStats (i : Fin maxInterfaces) (stats : InterfaceStats)
  | exportFlush

/-- What the outside answers during one tick of the sampling timer. -/
structure Tick where
  observationTimeMilliseconds : Nat
  pcapStat : Nat → PcapStat
  accepted : Nat → Bool

/-- One round of the loop in `export_timer_sampling_cb`; `none` is an index
    outside `if_devices`. -/
def samplingRound (t : Tick) (devices : Devices) (i : Nat) :
    Option (Devices × List Output) :=
  if h : i < maxInterfaces then
    let dev := devices ⟨i, h⟩
    let exported := exportDataInterfaceStats dev t.observationTimeMilliseconds
      dev.samplingSize dev.samplingDeltaCount (t.pcapStat i) (t.accepted i)
    some (Function.update devices ⟨i, h⟩ exported.1,
      exported.2.toList.map (Output.interfaceStats ⟨i, h⟩))
  else none

/-- `export_timer_sampling_cb`: the loop, then `export_flush`. -/
def exportTimerSamplingCb (numberInterfaces : Nat) (t : Tick) (devices : Devices) :
    Option (Devices × List Output) :=
  match run (samplingRound t) devices (List.range numberInterfaces) with
  | none => none
  | some (devices, out) => some (devices, out ++ [.exportFlush])

/-- `export_timer_pktid_cb`: `export_flush`. -/
def exportTimerPktidCb (devices : Devices) : Devices × List Output :=
  (devices, [.exportFlush])

/-- A packet on the device `i`; `none` where `handle_packet` is undefined. -/
def receive (i : Fin maxInterfaces) (a : Arrival) (devices : Devices) :
    Option (Devices × List Output) :=
  match a.handle (devices i) with
  | .error _ => none
  | .ok r =>
      some (Function.update devices i r.device,
        .decided i r.decision :: r.exported.toList.map (Output.record i)
          ++ if r.flushed then [.exportFlush] else [])

/-- What the event loop calls. -/
inductive Event where
  | packet (i : Fin maxInterfaces) (a : Arrival)
  | exportTimerPktid
  | exportTimerSampling (numberInterfaces : Nat) (t : Tick)

def step (devices : Devices) : Event → Option (Devices × List Output)
  | .packet i a => receive i a devices
  | .exportTimerPktid => some (exportTimerPktidCb devices)
  | .exportTimerSampling numberInterfaces t =>
      exportTimerSamplingCb numberInterfaces t devices

/-! ## What one step can do -/

theorem receive_eq_some {i : Fin maxInterfaces} {a : Arrival} {devices devices' : Devices}
    {out : List Output} :
    receive i a devices = some (devices', out) ↔
      ∃ r, a.handle (devices i) = .ok r ∧ devices' = Function.update devices i r.device ∧
        out = .decided i r.decision :: r.exported.toList.map (Output.record i)
          ++ if r.flushed then [.exportFlush] else [] := by
  constructor
  · intro h
    rw [receive] at h
    cases hr : a.handle (devices i) with
    | error f => rw [hr] at h; exact nomatch h
    | ok r =>
        rw [hr] at h
        obtain ⟨rfl, rfl⟩ := Prod.mk.inj (Option.some.inj h)
        exact ⟨r, rfl, rfl, rfl⟩
  · rintro ⟨r, hr, rfl, rfl⟩
    rw [receive, hr]

/-- A round of the sampling timer reports the counters of its device and clears
    them, or leaves everything. -/
theorem samplingRound_eq_some {t : Tick} {devices devices' : Devices} {j : Nat}
    {out : List Output} (h : samplingRound t devices j = some (devices', out)) :
    ∃ hj : j < maxInterfaces,
      (t.accepted j = false ∧ devices' = devices ∧ out = []) ∨
      (t.accepted j = true ∧
        devices' = Function.update devices ⟨j, hj⟩
          { devices ⟨j, hj⟩ with samplingSize := 0, samplingDeltaCount := 0 } ∧
        ∃ stats : InterfaceStats, out = [.interfaceStats ⟨j, hj⟩ stats] ∧
          stats.size = (devices ⟨j, hj⟩).samplingSize ∧
          stats.deltaCount = (devices ⟨j, hj⟩).samplingDeltaCount) := by
  rw [samplingRound] at h
  by_cases hj : j < maxInterfaces
  · rw [dif_pos hj] at h
    obtain ⟨rfl, rfl⟩ := Prod.mk.inj (Option.some.inj h)
    refine ⟨hj, ?_⟩
    cases hacc : t.accepted j with
    | false => exact Or.inl ⟨rfl, Function.update_eq_self _ devices, rfl⟩
    | true => exact Or.inr ⟨rfl, rfl, _, rfl, rfl, rfl⟩
  · rw [dif_neg hj] at h
    exact nomatch h

theorem exportTimerSamplingCb_eq_some {n : Nat} {t : Tick} {devices devices' : Devices}
    {out : List Output} (h : exportTimerSamplingCb n t devices = some (devices', out)) :
    ∃ reported, run (samplingRound t) devices (List.range n) = some (devices', reported) ∧
      out = reported ++ [.exportFlush] := by
  rw [exportTimerSamplingCb] at h
  cases hr : run (samplingRound t) devices (List.range n) with
  | none => rw [hr] at h; exact nomatch h
  | some r =>
      rw [hr] at h
      obtain ⟨rfl, rfl⟩ := Prod.mk.inj (Option.some.inj h)
      exact ⟨r.2, rfl, rfl⟩

end Impd4e.ExportHandler
