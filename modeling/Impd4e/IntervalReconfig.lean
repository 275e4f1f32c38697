import Impd4e.TemplateAgreement
import Impd4e.RuntimeCommands

/-! # Intervals at run time and at start-up

    An export interval is held twice: as an option, which for `-I` is also the
    gate of `handle_ip_packet`, and as the repeat value of a timer.  The options
    `-I`, `-J` and `-K` set both at start-up, from a number that `atof` reads;
    the commands of these names set the timer only, from one that `strtol`
    reads.  The two probes are run side by side: `agreesAfter_iff` says when
    they export alike. -/

namespace Impd4e.IntervalReconfig

open ReadProg Impd4e.CString Impd4e.IpfixTemplates Impd4e.PacketHandler Impd4e.FieldMap
  Impd4e.Traffic Impd4e.CmdLine Impd4e.ConfigHandler Impd4e.EventLoop Impd4e.RuntimeCommands
  Binary64
open Impd4e.ExportHandler (maxInterfaces Devices Tick PcapStat)

/-! ## What the export of a packet depends on -/

/-- Two devices with the same configuration, whatever they have counted. -/
structure SameConfig (d d' : DeviceDev) : Prop where
  setup : SameSetup d d'
  templateId : d'.templateId = d.templateId

theorem SameConfig.refl (d : DeviceDev) : SameConfig d d := ⟨⟨rfl, rfl, rfl, rfl⟩, rfl⟩

theorem SameConfig.symm {d d' : DeviceDev} (h : SameConfig d d') : SameConfig d' d :=
  ⟨⟨h.setup.deviceType.symm, h.setup.linkType.symm, h.setup.pktOffset.symm, h.setup.size.symm⟩,
    h.templateId.symm⟩

theorem SameConfig.trans {d d' d'' : DeviceDev} (h : SameConfig d d') (h' : SameConfig d' d'') :
    SameConfig d d'' :=
  ⟨h.setup.trans h'.setup, h'.templateId.trans h.templateId⟩

variable {m : Nat → Option UInt8} {o : Options} {ts : Timeval} {d d' : DeviceDev}

/-- The selection stage sees the size of the buffer only. -/
theorem selectPacket_transfer {b b' : Buffer} {len : Nat} {s : Selection}
    (hsize : b'.size = b.size) (h : run m (selectPacket o b len) = .ok s) :
    ∃ s', run m (selectPacket o b' len) = .ok s' ∧ observation s' = observation s := by
  have hobs : (run m (selectPacket o b' len)).map observation = .ok (observation s) := by
    rw [run_observe, hsize, ← run_observe, h]
    rfl
  cases hs' : run m (selectPacket o b' len) with
  | error f => rw [hs'] at hobs; cases hobs
  | ok s' =>
      rw [hs'] at hobs
      exact ⟨s', rfl, Except.ok.inj hobs⟩

theorem handleSelected_transfer {hashId : UInt32} {offsets : HeaderOffset} {layers : Layers}
    {r : Handled} (h : run m (handleSelected o ts d hashId offsets layers) = .ok r)
    (htid : d'.templateId = d.templateId)
    (hcontents : d'.hashBuffer.contents = d.hashBuffer.contents) :
    ∃ r', run m (handleSelected o ts d' hashId offsets layers) = .ok r' ∧
      r'.exported = r.exported := by
  have heff : effectiveTemplate o d' = effectiveTemplate o d := by
    rw [effectiveTemplate, effectiveTemplate, htid]
  unfold handleSelected at h ⊢
  by_cases hgate : o.exportPktidInterval ≤ 0
  · simp only [if_pos hgate] at h ⊢
    obtain rfl := Except.ok.inj h
    exact ⟨_, rfl, rfl⟩
  · simp only [if_neg hgate, hcontents] at h ⊢
    cases hpkt : packetId o hashId d.hashBuffer.contents with
    | none => simp only [hpkt] at h; cases h
    | some pktId =>
        simp only [hpkt] at h ⊢
        -- counting does not touch the template
        cases htemp : getTemplate (effectiveTemplate o (countSelected d)) with
        | none =>
            simp only [countSelected] at htemp
            simp only [htemp] at h
            cases h
        | some template =>
            have htemp' : getTemplate (effectiveTemplate o (countSelected d')) = some template :=
              (congrArg getTemplate heff).trans htemp
            simp only [countSelected] at htemp htemp'
            simp only [htemp] at h
            simp only [htemp']
            obtain ⟨filled, hfill, hr⟩ := (run_bind_eq_ok _).mp h
            have hfill' : run m (fillFields (effectiveTemplate o d') ts hashId offsets layers)
                = .ok filled := heff ▸ hfill
            cases filled with
            | none =>
                obtain rfl := Except.ok.inj hr
                exact ⟨_, run_bind_ok m hfill' _, rfl⟩
            | some fields =>
                obtain rfl := Except.ok.inj hr
                refine ⟨_, run_bind_ok m hfill' _, ?_⟩
                rw [exportRecord_exported, exportRecord_exported]
                exact congrArg (fun tId => some (Record.mk tId fields)) heff

theorem handleIpPacket_unselected {len : Nat} {s : Selection}
    (hs : run m (selectPacket o d.hashBuffer len) = .ok s)
    (hd : ∀ hashId, s.decision ≠ .selected hashId) :
    ∃ r, run m (handleIpPacket o ts d len) = .ok r ∧ r.exported = none := by
  have hrun : run m (handleIpPacket o ts d len) = run m _ := run_bind_ok m hs _
  rw [hrun]
  cases hdec : s.decision with
  | unsupported => exact ⟨_, rfl, rfl⟩
  | noSelection => exact ⟨_, rfl, rfl⟩
  | dropped hashId => exact ⟨_, rfl, rfl⟩
  | selected hashId => exact absurd hdec (hd hashId)

theorem handleIpPacket_selected {len : Nat} {s : Selection} {hashId : UInt32}
    (hs : run m (selectPacket o d.hashBuffer len) = .ok s) (hd : s.decision = .selected hashId) :
    run m (handleIpPacket o ts d len) =
      run m (handleSelected o ts { d with hashBuffer := s.buffer } hashId s.offsets s.layers) := by
  have hrun : run m (handleIpPacket o ts d len) = run m _ := run_bind_ok m hs _
  rw [hrun]
  simp only [hd]

theorem handleIpPacket_transfer {len : Nat} {r : Handled} (h : SameConfig d d')
    (hr : run m (handleIpPacket o ts d len) = .ok r) :
    ∃ r', run m (handleIpPacket o ts d' len) = .ok r' ∧ r'.exported = r.exported := by
  obtain ⟨s, hs, hcases⟩ := handleIpPacket_cases hr
  obtain ⟨s', hs', hobs⟩ := selectPacket_transfer h.setup.size hs
  have hdec : s'.decision = s.decision := congrArg Observation.decision hobs
  have unselected : (∀ hashId, s.decision ≠ .selected hashId) → r.exported = none →
      ∃ r', run m (handleIpPacket o ts d' len) = .ok r' ∧ r'.exported = r.exported := by
    intro hd hexp
    rw [hexp]
    exact handleIpPacket_unselected hs' fun hashId => hdec ▸ hd hashId
  rcases hcases with ⟨hd, rfl⟩ | ⟨hashId, hd, rfl⟩ | ⟨hashId, hd, hr⟩
  · exact unselected (fun hashId h => by cases hd.symm.trans h) rfl
  · exact unselected (fun hashId h => by cases hd.symm.trans h) rfl
  · have hoffsets : s'.offsets = s.offsets := congrArg Observation.offsets hobs
    have hlayers : s'.layers = s.layers := congrArg Observation.layers hobs
    have hcontents : s'.buffer.contents = s.buffer.contents := congrArg Observation.contents hobs
    rw [handleIpPacket_selected hs' (hdec.trans hd), hoffsets, hlayers]
    exact handleSelected_transfer hr h.templateId hcontents

/-- **EXPORT BY CONFIGURATION** — what is exported of a packet depends on the
    configuration of its device, not on what it has counted or hashed before. -/
theorem handle_transfer {caplen : Nat} {r : Handled} (h : SameConfig d d')
    (hr : Arrival.handle ⟨o, ts, caplen, m⟩ d = .ok r) :
    ∃ r', Arrival.handle ⟨o, ts, caplen, m⟩ d' = .ok r' ∧ r'.exported = r.exported := by
  have hnt : nettype d' caplen = nettype d caplen := by
    rw [nettype, nettype, h.setup.deviceType, h.setup.linkType]
  have hpkt : networkPacket o d' caplen = networkPacket o d caplen := by
    rw [networkPacket, networkPacket, h.setup.pktOffset]
  obtain ⟨nt, hrun, ⟨hip, rfl⟩ | ⟨hip, hr⟩⟩ := handlePacket_cases hr
  · exact ⟨_, handlePacket_other (hnt ▸ hrun) hip, rfl⟩
  · have hcount : SameConfig (countPacket d) (countPacket d') :=
      ⟨⟨h.setup.deviceType, h.setup.linkType, h.setup.pktOffset, h.setup.size⟩, h.templateId⟩
    obtain ⟨r', hr', hexp⟩ := handleIpPacket_transfer hcount hr
    refine ⟨r', (handlePacket_ip (hnt ▸ hrun) hip).trans ?_, hexp⟩
    rw [hpkt]
    exact hr'

theorem handle_config {caplen : Nat} {r : Handled}
    (h : Arrival.handle ⟨o, ts, caplen, m⟩ d = .ok r) : SameConfig d r.device :=
  ⟨handlePacket_setup h, (TemplateAgreement.handle_template h).1⟩

/-! ## The gate -/

/-- With the gate closed no packet is exported. -/
theorem handle_closed {caplen : Nat} {r : Handled} (hgate : o.exportPktidInterval ≤ 0)
    (h : Arrival.handle ⟨o, ts, caplen, m⟩ d = .ok r) : r.exported = none := by
  obtain ⟨nt, -, ⟨-, rfl⟩ | ⟨-, hr⟩⟩ := handlePacket_cases h
  · rfl
  · obtain ⟨s, -, ⟨-, rfl⟩ | ⟨hashId, -, rfl⟩ | ⟨hashId, -, hr⟩⟩ := handleIpPacket_cases hr
    · rfl
    · rfl
    · rw [TemplateAgreement.handleSelected_closed hgate hr]

/-- `handle_packet` sees of the intervals whether the gate is open. -/
theorem handle_intervals {a : Options} {caplen : Nat}
    (ha : a = { o with
      exportPktidInterval := a.exportPktidInterval
      exportStatsInterval := a.exportStatsInterval
      exportSamplingInterval := a.exportSamplingInterval })
    (hgate : a.exportPktidInterval ≤ 0 ↔ o.exportPktidInterval ≤ 0) :
    Arrival.handle ⟨a, ts, caplen, m⟩ d = Arrival.handle ⟨o, ts, caplen, m⟩ d := by
  have hselected : ∀ ts d hashId offsets layers,
      handleSelected a ts d hashId offsets layers =
        handleSelected o ts d hashId offsets layers := by
    intro ts d hashId offsets layers
    unfold handleSelected
    rw [ha] at hgate ⊢
    simp only [hgate]
    rfl
  have hip : ∀ ts d len, handleIpPacket a ts d len = handleIpPacket o ts d len := by
    intro ts d len
    unfold handleIpPacket
    simp only [hselected]
    rw [ha]
    rfl
  show run m (handlePacket a ts caplen d) = run m (handlePacket o ts caplen d)
  unfold handlePacket
  simp only [hip]
  rw [ha]
  rfl

/-- What the open gate lets through has a meaning behind the closed one. -/
theorem handle_closed_defined {a : Options} {caplen : Nat} {r : Handled}
    (ha : a = { o with exportPktidInterval := a.exportPktidInterval })
    (hgate : o.exportPktidInterval ≤ 0) (h : Arrival.handle ⟨a, ts, caplen, m⟩ d = .ok r) :
    ∃ r', Arrival.handle ⟨o, ts, caplen, m⟩ d = .ok r' := by
  have hnet : networkPacket a d caplen = networkPacket o d caplen := by
    rw [ha]
    rfl
  obtain ⟨nt, hrun, ⟨hip, -⟩ | ⟨hip, hr⟩⟩ := handlePacket_cases h
  · exact ⟨_, handlePacket_other hrun hip⟩
  · rw [hnet] at hr
    obtain ⟨s, hs, -⟩ := handleIpPacket_cases hr
    have hs' : run (fun i => m ((networkPacket o d caplen).ptr + i))
        (selectPacket o (countPacket d).hashBuffer (networkPacket o d caplen).len) = .ok s := by
      rw [ha] at hs
      exact hs
    have hdefined : ∃ r', run (fun i => m ((networkPacket o d caplen).ptr + i))
        (handleIpPacket o ts (countPacket d) (networkPacket o d caplen).len) = .ok r' := by
      by_cases hd : ∃ hashId, s.decision = .selected hashId
      · obtain ⟨hashId, hd⟩ := hd
        rw [handleIpPacket_selected hs' hd]
        unfold handleSelected
        simp only [if_pos hgate]
        exact ⟨_, rfl⟩
      · obtain ⟨r', hr', -⟩ :=
          handleIpPacket_unselected hs' fun hashId h => hd ⟨hashId, h⟩
        exact ⟨r', hr'⟩
    obtain ⟨r', hr'⟩ := hdefined
    exact ⟨r', (handlePacket_ip hrun hip).trans hr'⟩

/-! ## Kinds of records -/

/-- What the probe exports, and when it calls back again. -/
inductive Kind where
  | callback (timer : Timer) (period : Double)
  | packetRecord (i : Fin maxInterfaces)
  | interfaceStats (i : Fin maxInterfaces)
  | probeStats
  | location
  deriving DecidableEq

def kindOf : Output → Option Kind
  | .timer timer period => some (.callback timer period)
  | .exported (.record i _) => some (.packetRecord i)
  | .exported (.interfaceStats i _) => some (.interfaceStats i)
  | .exported (.decided _ _) => none
  | .exported .exportFlush => none
  | .probeStats => some .probeStats
  | .location => some .location
  | .sync _ _ => none
  | .reply _ => none

def kinds (out : List Output) : List Kind := out.filterMap kindOf

theorem kinds_append (out out' : List Output) : kinds (out ++ out') = kinds out ++ kinds out' :=
  List.filterMap_append

theorem kinds_received (i : Fin maxInterfaces) (r : Handled) :
    kinds ((received i r).map Output.exported) =
      if r.exported.isSome then [.packetRecord i] else [] := by
  rw [received]
  cases r.exported with
  | none => cases r.flushed <;> rfl
  | some record => cases r.flushed <;> rfl

/-- The statistics one tick of the sampling timer exports. -/
def sampled (t : Tick) (i : Nat) : Option Kind :=
  if h : i < maxInterfaces then
    if t.accepted i then some (.interfaceStats ⟨i, h⟩) else none
  else none

/-- The kinds a callback exports, whatever the devices have counted. -/
def callbackKinds (t : Tick) (numberInterfaces : Nat) : Timer → List Kind
  | .pkid => []
  | .sampling => (List.range numberInterfaces).filterMap (sampled t)
  | .stats => if t.accepted 0 then [.probeStats] else []
  | .location => if t.accepted 0 then [.location] else []

theorem exportTimerSamplingCb_kinds {n : Nat} {t : Tick} {devices devices' : Devices}
    {out : List ExportHandler.Output}
    (h : ExportHandler.exportTimerSamplingCb n t devices = some (devices', out)) :
    kinds (out.map Output.exported) = (List.range n).filterMap (sampled t) := by
  obtain ⟨reported, hrun, rfl⟩ := ExportHandler.exportTimerSamplingCb_eq_some h
  have hkinds := Machine.run_rule
    (P := fun rounds _ out => kinds (out.map Output.exported) = rounds.filterMap (sampled t))
    rfl ?_ hrun
  · rw [List.map_append, kinds_append, hkinds]
    exact List.append_nil _
  · intro rounds d out j d' out' ih hround
    rw [List.map_append, kinds_append, ih, List.filterMap_append]
    refine congrArg _ ?_
    obtain ⟨hj, ⟨hacc, -, rfl⟩ | ⟨hacc, -, stats, rfl, -, -⟩⟩ :=
      ExportHandler.samplingRound_eq_some hround
    · have hnone : sampled t j = none := by
        rw [sampled, dif_pos hj, hacc]
        rfl
      rw [List.filterMap_cons_none hnone]
      rfl
    · have hsome : sampled t j = some (.interfaceStats ⟨j, hj⟩) := by
        rw [sampled, dif_pos hj, hacc]
        rfl
      rw [List.filterMap_cons_some hsome]
      rfl

variable {p p' q q' : Probe} {e : Event} {out out' : List Output}

theorem exportTimerCb_kinds {t : Tick} {timer : Timer}
    (h : exportTimerCb t p timer = .ok (p', out)) :
    kinds out = callbackKinds t p.options.numberInterfaces timer := by
  cases timer with
  | pkid =>
      obtain ⟨-, rfl⟩ := Prod.mk.inj (Except.ok.inj h)
      rfl
  | sampling =>
      obtain ⟨devices, out', hcb, -, rfl⟩ := exportTimerCb_sampling h
      exact exportTimerSamplingCb_kinds hcb
  | stats =>
      obtain ⟨-, rfl⟩ := Prod.mk.inj (Except.ok.inj h)
      rw [callbackKinds]
      split <;> rfl
  | location =>
      obtain ⟨-, rfl⟩ := Prod.mk.inj (Except.ok.inj h)
      rw [callbackKinds]
      split <;> rfl

/-- No callback touches a timer. -/
theorem exportTimerCb_timers {t : Tick} {timer : Timer}
    (h : exportTimerCb t p timer = .ok (p', out)) (timer' : Timer) :
    timerOf p' timer' = timerOf p timer' := by
  cases timer with
  | pkid =>
      obtain ⟨rfl, -⟩ := Prod.mk.inj (Except.ok.inj h)
      cases timer' <;> rfl
  | sampling =>
      obtain ⟨devices, out', -, rfl, -⟩ := exportTimerCb_sampling h
      cases timer' <;> rfl
  | stats =>
      obtain ⟨rfl, -⟩ := Prod.mk.inj (Except.ok.inj h)
      rfl
  | location =>
      obtain ⟨rfl, -⟩ := Prod.mk.inj (Except.ok.inj h)
      rfl

/-! ## Two probes side by side -/

/-- Packets and timers. -/
def IsTraffic : Event → Prop
  | .packet _ _ _ _ => True
  | .timer _ _ => True
  | .userInput _ _ _ => False
  | .message _ _ _ _ => False

/-- Whatever packets arrive and timers are due, the two probes export the same
    kinds of records at the same periods. -/
def SameExports [Libev] (p q : Probe) : Prop :=
  ∀ es p' out q' out', (∀ e ∈ es, IsTraffic e) → Machine.run probe p es = some (p', out) →
    Machine.run probe q es = some (q', out') → kinds out = kinds out'

/-- Both call back at the same period, or neither does. -/
def SameTimer (timer timer' : EvTimer) : Prop :=
  timer.active = timer'.active ∧ (timer.active = true → timer.period = timer'.period)

/-- No packet is exported, even with the gate open. -/
def Unselected (options : Options) (devices : Devices) : Prop :=
  ∀ i : Fin maxInterfaces, i.val < options.numberInterfaces → ∀ ts caplen frame r,
    Arrival.handle ⟨{ options with exportPktidInterval := 1 }, ts, caplen, frame⟩ (devices i)
      = .ok r → r.exported = none

/-- The probes differ in what they have counted, in intervals that do not show,
    and in a gate that does not matter. -/
structure Sim (p q : Probe) : Prop where
  options : q.options = { p.options with
    exportPktidInterval := q.options.exportPktidInterval
    exportStatsInterval := q.options.exportStatsInterval
    exportSamplingInterval := q.options.exportSamplingInterval }
  gate : (q.options.exportPktidInterval ≤ 0 ↔ p.options.exportPktidInterval ≤ 0) ∨
    Unselected p.options p.devices
  devices : ∀ i : Fin maxInterfaces, i.val < p.options.numberInterfaces →
    SameConfig (p.devices i) (q.devices i)
  timers : ∀ timer, SameTimer (timerOf p timer) (timerOf q timer)

theorem Unselected.of_config {options : Options} {devices devices' : Devices}
    (h : Unselected options devices) (hconfig : ∀ i : Fin maxInterfaces,
      i.val < options.numberInterfaces → SameConfig (devices i) (devices' i)) :
    Unselected options devices' := by
  intro i hi ts caplen frame r hr
  obtain ⟨r', hr', hexp⟩ := handle_transfer (hconfig i hi).symm hr
  rw [← hexp]
  exact h i hi ts caplen frame r' hr'

/-- An open gate is like the interval 1. -/
theorem handle_opened {a : Options} {caplen : Nat}
    (ha : a = { o with
      exportPktidInterval := a.exportPktidInterval
      exportStatsInterval := a.exportStatsInterval
      exportSamplingInterval := a.exportSamplingInterval })
    (hopen : ¬ a.exportPktidInterval ≤ 0) :
    Arrival.handle ⟨a, ts, caplen, m⟩ d =
      Arrival.handle ⟨{ o with exportPktidInterval := 1 }, ts, caplen, m⟩ d := by
  refine handle_intervals ?_ ?_
  · rw [ha]
  · have hone : ¬ (1 : Double) ≤ 0 := by decide
    exact ⟨fun h => absurd h hopen, fun h => absurd h hone⟩

theorem Unselected.exported {options a : Options} {devices : Devices} {i : Fin maxInterfaces}
    {caplen : Nat} {r : Handled} (h : Unselected options devices)
    (hi : i.val < options.numberInterfaces)
    (ha : a = { options with
      exportPktidInterval := a.exportPktidInterval
      exportStatsInterval := a.exportStatsInterval
      exportSamplingInterval := a.exportSamplingInterval })
    (hr : Arrival.handle ⟨a, ts, caplen, m⟩ (devices i) = .ok r) : r.exported = none := by
  by_cases hgate : a.exportPktidInterval ≤ 0
  · exact handle_closed hgate hr
  · rw [handle_opened ha hgate] at hr
    exact h i hi ts caplen m r hr

/-- Two probes side by side export of a packet the same. -/
theorem Sim.exported {i : Fin maxInterfaces} {caplen : Nat} {r r' : Handled} (h : Sim p q)
    (hi : i.val < p.options.numberInterfaces)
    (hr : Arrival.handle ⟨p.options, ts, caplen, m⟩ (p.devices i) = .ok r)
    (hr' : Arrival.handle ⟨q.options, ts, caplen, m⟩ (q.devices i) = .ok r') :
    r.exported = r'.exported := by
  -- the second packet on the device of the first probe
  obtain ⟨r₁, hr₁, hexp⟩ := handle_transfer (h.devices i hi).symm hr'
  rw [← hexp]
  rcases h.gate with hgate | hun
  · rw [handle_intervals h.options hgate, hr] at hr₁
    rw [Except.ok.inj hr₁]
  · rw [hun.exported hi rfl hr, hun.exported hi h.options hr₁]

theorem SameTimer.refl (timer : EvTimer) : SameTimer timer timer := ⟨rfl, fun _ => rfl⟩

theorem SameTimer.eq {timer timer' : EvTimer} (h : SameTimer timer timer')
    (hactive : timer.active = true) : timer = timer' := by
  obtain ⟨period, active⟩ := timer
  obtain ⟨period', active'⟩ := timer'
  exact EvTimer.mk.injEq .. ▸ ⟨h.2 hactive, h.1⟩

theorem timerOf_setTimer_self (p : Probe) (again : EvTimer) (timer : Timer) :
    timerOf (setTimer p again timer) timer = again := by
  cases timer <;> rfl

theorem timerOf_setTimer_of_ne (p : Probe) (again : EvTimer) {timer timer' : Timer}
    (h : timer' ≠ timer) : timerOf (setTimer p again timer) timer' = timerOf p timer' := by
  cases timer <;> cases timer' <;> first | rfl | exact absurd rfl h

/-- What a tick leaves of the side-by-side. -/
theorem Sim.of_ticked (h : Sim p q) (hp : Ticked p p') (hq : Ticked q q')
    (htimers : ∀ timer, SameTimer (timerOf p' timer) (timerOf q' timer)) : Sim p' q' := by
  have hconfig : ∀ {a b : Probe}, Ticked a b → ∀ i, SameConfig (a.devices i) (b.devices i) := by
    intro a b hab i
    obtain ⟨size, delta, hdev⟩ := hab.devices i
    rw [hdev]
    exact ⟨⟨rfl, rfl, rfl, rfl⟩, rfl⟩
  refine ⟨?_, ?_, fun i hi => ?_, htimers⟩
  · rw [hp.options, hq.options]
    exact h.options
  · rw [hp.options, hq.options]
    exact h.gate.imp_right fun hun => hun.of_config fun i _ => hconfig hp i
  · rw [hp.options] at hi
    exact ((hconfig hp i).symm.trans (h.devices i hi)).trans (hconfig hq i)

theorem Sim.numberInterfaces (h : Sim p q) :
    q.options.numberInterfaces = p.options.numberInterfaces := by
  rw [h.options]

/-- A packet leaves the side-by-side. -/
theorem Sim.of_packet {i : Fin maxInterfaces} {caplen : Nat} {r r' : Handled} (h : Sim p q)
    (hr : Arrival.handle ⟨p.options, ts, caplen, m⟩ (p.devices i) = .ok r)
    (hr' : Arrival.handle ⟨q.options, ts, caplen, m⟩ (q.devices i) = .ok r') :
    Sim { p with devices := Function.update p.devices i r.device }
      { q with devices := Function.update q.devices i r'.device } := by
  refine ⟨h.options, ?_, ?_, h.timers⟩
  · refine h.gate.imp_right fun hun => hun.of_config ?_
    exact (Function.forall_update_iff p.devices fun (j : Fin maxInterfaces) dev =>
      j.val < p.options.numberInterfaces → SameConfig (p.devices j) dev).mpr
        ⟨fun _ => handle_config hr, fun j _ _ => .refl _⟩
  · intro j hj
    by_cases hji : j = i
    · subst hji
      show SameConfig (Function.update p.devices j r.device j)
        (Function.update q.devices j r'.device j)
      rw [Function.update_self, Function.update_self]
      exact ((handle_config hr).symm.trans (h.devices j hj)).trans (handle_config hr')
    · show SameConfig (Function.update p.devices i r.device j)
        (Function.update q.devices i r'.device j)
      rw [Function.update_of_ne hji, Function.update_of_ne hji]
      exact h.devices j hj

/-- A due timer leaves it, and shows the same. -/
theorem Sim.of_due [Libev] {timer : Timer} {t : Tick} (h : Sim p q)
    (hact : (timerOf p timer).active = true)
    (hp : EventLoop.step p (.timer timer t) = .ok (p', out))
    (hq : EventLoop.step q (.timer timer t) = .ok (q', out')) :
    Sim p' q' ∧ kinds out = kinds out' := by
  obtain ⟨hactive, -⟩ := h.timers timer
  obtain ⟨hp', again, outp, hfire, hcbp, rfl⟩ := step_timer_due hact hp
  obtain ⟨hq', again', outq, hfire', hcbq, rfl⟩ := step_timer_due (hactive ▸ hact) hq
  -- it is one timer, and goes on as one
  have heq : timerOf p timer = timerOf q timer := (h.timers timer).eq hact
  obtain rfl : again = again' := Option.some.inj ((heq ▸ hfire).symm.trans hfire')
  constructor
  · refine h.of_ticked hp' hq' fun timer' => ?_
    rw [exportTimerCb_timers hcbp, exportTimerCb_timers hcbq]
    by_cases hother : timer' = timer
    · subst hother
      rw [timerOf_setTimer_self, timerOf_setTimer_self]
      exact .refl again
    · rw [timerOf_setTimer_of_ne _ _ hother, timerOf_setTimer_of_ne _ _ hother]
      exact h.timers timer'
  · have hn : ∀ (a : Probe) again, (setTimer a again timer).options.numberInterfaces
        = a.options.numberInterfaces :=
      fun a again => congrArg _ (setTimer_frame a again timer).1
    show Kind.callback timer again.period :: kinds outp =
      Kind.callback timer again.period :: kinds outq
    rw [exportTimerCb_kinds hcbp, exportTimerCb_kinds hcbq, hn, hn,
      h.numberInterfaces]

/-- **ONE STEP SIDE BY SIDE** -/
theorem Sim.step [Libev] (h : Sim p q) (he : IsTraffic e) (hp : step p e = .ok (p', out))
    (hq : step q e = .ok (q', out')) : Sim p' q' ∧ kinds out = kinds out' := by
  cases e with
  | userInput libpcap cmd msg => exact absurd he not_false
  | message libpcap cmd msg accepted => exact absurd he not_false
  | packet i ts caplen frame =>
      by_cases hi : i.val < p.options.numberInterfaces
      · have hi' : i.val < q.options.numberInterfaces := h.numberInterfaces ▸ hi
        obtain ⟨r, hr, rfl, rfl⟩ := step_packet_ok hi hp
        obtain ⟨r', hr', rfl, rfl⟩ := step_packet_ok hi' hq
        refine ⟨h.of_packet hr hr', ?_⟩
        rw [kinds_received, kinds_received, h.exported hi hr hr']
      · have hi' : ¬ i.val < q.options.numberInterfaces := h.numberInterfaces ▸ hi
        rw [EventLoop.step, if_neg hi] at hp
        rw [EventLoop.step, if_neg hi'] at hq
        obtain ⟨rfl, rfl⟩ := Prod.mk.inj (Except.ok.inj hp)
        obtain ⟨rfl, rfl⟩ := Prod.mk.inj (Except.ok.inj hq)
        exact ⟨h, rfl⟩
  | timer timer t =>
      cases hact : (timerOf p timer).active with
      | false =>
          obtain ⟨rfl, rfl⟩ := step_timer_idle hact hp
          obtain ⟨rfl, rfl⟩ := step_timer_idle ((h.timers timer).1 ▸ hact) hq
          exact ⟨h, rfl⟩
      | true => exact h.of_due hact hp hq

theorem Sim.sameExports [Libev] (h : Sim p q) : SameExports p q := by
  intro es
  induction es generalizing p q with
  | nil =>
      intro p' out q' out' _ hp hq
      obtain ⟨-, rfl⟩ := Prod.mk.inj (Option.some.inj hp)
      obtain ⟨-, rfl⟩ := Prod.mk.inj (Option.some.inj hq)
      rfl
  | cons e es ih =>
      intro p' out q' out' htraffic hp hq
      obtain ⟨he, hes⟩ := List.forall_mem_cons.mp htraffic
      obtain ⟨p₁, out₁, out₂, hp₁, hp₂, rfl⟩ := Machine.run_cons_eq_some.mp hp
      obtain ⟨q₁, out₃, out₄, hq₁, hq₂, rfl⟩ := Machine.run_cons_eq_some.mp hq
      obtain ⟨hsim, hkinds⟩ := h.step he (probe_eq_some.mp hp₁) (probe_eq_some.mp hq₁)
      rw [kinds_append, kinds_append, hkinds, ih hsim p' out₂ q' out₄ hes hp₂ hq₂]

/-! ## The same configuration from start-up -/

/-- The options with one interval set. -/
def setInterval (options : Options) (v : Double) : IntervalCommand → Options
  | .I => { options with exportPktidInterval := v }
  | .J => { options with exportStatsInterval := v }
  | .K => { options with exportSamplingInterval := v }

/-- The timer as `export_handler_init` registers it; that of `-J` behind its
    first call. -/
def registered [Libev] (v : Double) : IntervalCommand → EvTimer
  | .I => eventRegisterTimerW v
  | .J => (Libev.fire (eventRegisterTimer v)).getD (eventRegisterTimer v)
  | .K => eventRegisterTimerW v

theorem registered_eq [Libev] {v : Double} (hv : 0 ≤ v) (x : IntervalCommand) :
    registered v x = .every v := by
  cases x with
  | I => exact Libev.again_eq _ hv
  | J =>
      have hstart : eventRegisterTimer v = ⟨v, true⟩ := Libev.start_eq _ hv
      rw [registered, hstart, Libev.fire_eq _ rfl hv]
      rfl
  | K => exact Libev.again_eq _ hv

/-- The probe `q` has the remaining configuration of `p`, and was started with
    the option `x` set to the text `msg`; what the two have counted may differ. -/
structure StartedWith [Libev] (x : IntervalCommand) (msg : CStr) (p q : Probe) : Prop where
  options : q.options = setInterval p.options (strtod msg) x
  timer : timerOf q x.timer = registered (strtod msg) x
  devices : ∀ i : Fin maxInterfaces, i.val < p.options.numberInterfaces →
    SameConfig (p.devices i) (q.devices i)
  handles : ∀ i : Fin maxInterfaces, i.val < p.options.numberInterfaces →
    SameMember (p.handles i) (q.handles i)
  timers : ∀ timer, timer ≠ x.timer → timerOf q timer = timerOf p timer

/-- From the command on, the probe exports like one started with the option. -/
def AgreesAfter [Libev] (x : IntervalCommand) (msg : CStr) (p : Probe) : Prop :=
  ∀ libpcap p' reply, x.command.call libpcap msg p = .ok (p', reply) →
    ∀ q, StartedWith x msg p q → SameExports p' q

/-- The two readings of the number agree, or the command refuses it and the
    timer has its period already; and for `I` the gate is as the option would
    set it, or shows nowhere.  With a number that is no interval the option has
    the timer that libev makes of it. -/
def Agreeing [Libev] (x : IntervalCommand) (msg : CStr) (p : Probe) : Prop :=
  ((0 ≤ toInt (strtol0 msg) ∧
      (strtod msg = .finite (toInt (strtol0 msg)) ∨
        (¬ 0 ≤ strtod msg ∧
          SameTimer (.every (.finite (toInt (strtol0 msg)))) (registered (strtod msg) x)))) ∨
    (toInt (strtol0 msg) < 0 ∧ SameTimer (timerOf p x.timer) (registered (strtod msg) x))) ∧
  (x = .I → (strtod msg ≤ 0 ↔ p.options.exportPktidInterval ≤ 0) ∨
    Unselected p.options p.devices)

/-- What the command leaves: the probe with its timer set, or the probe. -/
theorem call_interval [Libev] (x : IntervalCommand) {libpcap : FilterOracle} {msg reply : CStr}
    (h : x.command.call libpcap msg p = .ok (p', reply)) :
    ∃ timer, p' = setTimer p timer x.timer ∧
      ((0 ≤ toInt (strtol0 msg) ∧ timer = .every (.finite (toInt (strtol0 msg)))) ∨
        (toInt (strtol0 msg) < 0 ∧ timer = timerOf p x.timer)) := by
  rcases lt_or_ge (toInt (strtol0 msg)) 0 with hneg | hnonneg
  · rw [IntervalCommand.call_none x (newTimeout_of_neg hneg)] at h
    obtain ⟨rfl, -⟩ := Prod.mk.inj (Except.ok.inj h)
    refine ⟨timerOf p x.timer, ?_, Or.inr ⟨hneg, rfl⟩⟩
    cases x <;> rfl
  · rw [IntervalCommand.call_some x (newTimeout_of_nonneg hnonneg)] at h
    obtain ⟨rfl, -⟩ := Prod.mk.inj (Except.ok.inj h)
    exact ⟨_, rfl, Or.inl ⟨hnonneg, rfl⟩⟩

theorem sameTimer_every {v w : Double} : SameTimer (.every v) (.every w) ↔ v = w := by
  constructor
  · rintro ⟨hactive, hperiod⟩
    by_cases hv : v = 0
    · have hw : ¬ w ≠ 0 := by
        rw [← decide_eq_false_iff_not]
        exact hactive.symm.trans (decide_eq_false (not_not.mpr hv))
      exact hv.trans (not_not.mp hw).symm
    · exact hperiod (decide_eq_true hv)
  · rintro rfl
    exact .refl _

/-- The timer the command sets and the one the option registers. -/
theorem sameTimer_registered [Libev] {x : IntervalCommand} {n : Int} {v : Double} (hn : 0 ≤ n) :
    SameTimer (.every (.finite n)) (registered v x) ↔
      v = .finite n ∨ (¬ 0 ≤ v ∧ SameTimer (.every (.finite n)) (registered v x)) := by
  by_cases hv : 0 ≤ v
  · rw [registered_eq hv, sameTimer_every]
    exact ⟨fun h => Or.inl h.symm, fun h => (h.resolve_right fun hnot => hnot.1 hv).symm⟩
  · have hne : v ≠ .finite n := by
      rintro rfl
      exact hv (Double.zero_le_finite.mpr (by exact_mod_cast hn))
    exact ⟨fun h => Or.inr ⟨hv, h⟩, fun h => (h.resolve_left hne).2⟩

theorem setInterval_form (options : Options) (v : Double) (x : IntervalCommand) :
    setInterval options v x = { options with
      exportPktidInterval := (setInterval options v x).exportPktidInterval
      exportStatsInterval := (setInterval options v x).exportStatsInterval
      exportSamplingInterval := (setInterval options v x).exportSamplingInterval } := by
  cases x <;> rfl

/-- **ENOUGH** — then the probes run side by side. -/
theorem agrees_of_agreeing [Libev] {x : IntervalCommand} {msg : CStr} (h : Agreeing x msg p) :
    AgreesAfter x msg p := by
  intro libpcap p' reply hcall q hq
  obtain ⟨timer, rfl, hset⟩ := call_interval x hcall
  obtain ⟨hkeep, -, hdevices⟩ := setTimer_frame p timer x.timer
  refine Sim.sameExports ⟨?_, ?_, ?_, fun timer' => ?_⟩
  · rw [hkeep, hq.options]
    exact setInterval_form _ _ _
  · rw [hkeep, hdevices, hq.options]
    cases x with
    | I => exact h.2 rfl
    | J => exact Or.inl Iff.rfl
    | K => exact Or.inl Iff.rfl
  · rw [hkeep, hdevices]
    exact hq.devices
  · by_cases hx : timer' = x.timer
    · subst hx
      rw [timerOf_setTimer_self, hq.timer]
      rcases hset with ⟨hnonneg, rfl⟩ | ⟨hneg, rfl⟩
      · exact (sameTimer_registered hnonneg).mpr
          (h.1.resolve_right fun hright => absurd hright.1 (not_lt.mpr hnonneg)).2
      · exact (h.1.resolve_left fun hleft => absurd hneg (not_lt.mpr hleft.1)).2
    · rw [timerOf_setTimer_of_ne _ _ hx, hq.timers timer' hx]
      exact ⟨rfl, fun _ => rfl⟩

/-! ## And no less -/

/-- The probe as it would have been started. -/
def startedWith [Libev] (x : IntervalCommand) (v : Double) (p : Probe) : Probe :=
  setTimer
    { p with
      options := setInterval p.options v x
      interfaces_le := by cases x <;> exact p.interfaces_le }
    (registered v x) x.timer

theorem startedWith_frame [Libev] (x : IntervalCommand) (v : Double) (p : Probe) :
    (startedWith x v p).options = setInterval p.options v x ∧
      (startedWith x v p).handles = p.handles ∧ (startedWith x v p).devices = p.devices :=
  setTimer_frame _ _ _

theorem startedWith_started [Libev] (x : IntervalCommand) (msg : CStr) (p : Probe) :
    StartedWith x msg p (startedWith x (strtod msg) p) := by
  obtain ⟨hoptions, hhandles, hdevices⟩ := startedWith_frame x (strtod msg) p
  refine ⟨hoptions, timerOf_setTimer_self _ _ _, fun i _ => ?_, fun i _ => ?_,
    fun timer hne => ?_⟩
  · rw [hdevices]
    exact .refl _
  · rw [hhandles]
    exact Or.inl rfl
  · rw [startedWith, timerOf_setTimer_of_ne _ _ hne]
    cases timer <;> rfl

theorem exportTimerSamplingCb_defined {n : Nat} (t : Tick) (devices : Devices)
    (hn : n ≤ maxInterfaces) : ∃ r, ExportHandler.exportTimerSamplingCb n t devices = some r := by
  have hrounds : ∀ (rounds : List Nat) (devices : Devices), (∀ i ∈ rounds, i < maxInterfaces) →
      ∃ r, Machine.run (ExportHandler.samplingRound t) devices rounds = some r := by
    intro rounds
    induction rounds with
    | nil => exact fun devices _ => ⟨_, rfl⟩
    | cons i rounds ih =>
        intro devices hlt
        obtain ⟨hi, hrest⟩ := List.forall_mem_cons.mp hlt
        have hround : ∃ r, ExportHandler.samplingRound t devices i = some r := by
          rw [ExportHandler.samplingRound, dif_pos hi]
          exact ⟨_, rfl⟩
        obtain ⟨⟨devices', out⟩, hround⟩ := hround
        obtain ⟨⟨devices'', out'⟩, hrun⟩ := ih devices' hrest
        exact ⟨_, Machine.run_cons_eq_some.mpr ⟨_, _, _, hround, hrun, rfl⟩⟩
  obtain ⟨r, hrun⟩ := hrounds (List.range n) devices
    fun i hi => (List.mem_range.mp hi).trans_le hn
  rw [ExportHandler.exportTimerSamplingCb, hrun]
  exact ⟨_, rfl⟩

/-- Nothing is exported but by the callback itself. -/
def quietTick : Tick := ⟨0, fun _ => ⟨0, 0⟩, fun _ => false⟩

/-- A due timer shows its period, and one that is not active nothing. -/
theorem tick_shows [Libev] (hp : LiveHandles p) (timer : Timer) :
    ∃ p' out, step p (.timer timer quietTick) = .ok (p', out) ∧ (kinds out).head? =
      if (timerOf p timer).active then some (.callback timer (timerOf p timer).period)
      else none := by
  rw [EventLoop.step]
  cases hact : (timerOf p timer).active with
  | false =>
      rw [Libev.fire_inactive _ hact]
      exact ⟨p, [], rfl, rfl⟩
  | true =>
      obtain ⟨again, hfire, hperiod⟩ := Libev.fire_active _ hact
      obtain ⟨hoptions, hhandles, hdevices⟩ := setTimer_frame p again timer
      have hcb : ∃ r, exportTimerCb quietTick (setTimer p again timer) timer = .ok r := by
        cases timer with
        | pkid => exact ⟨_, rfl⟩
        | stats => exact ⟨_, rfl⟩
        | location => exact ⟨_, rfl⟩
        | sampling =>
            obtain ⟨r, hr⟩ := exportTimerSamplingCb_defined quietTick
              (setTimer p again .sampling).devices (setTimer p again .sampling).interfaces_le
            have hok : pcapStatsHandles (setTimer p again .sampling)
                (setTimer p again .sampling).interfaces = .ok () := by
              refine pcapStatsHandles_ok fun i hi htype => ?_
              rw [Probe.mem_interfaces, hoptions] at hi
              rw [hdevices] at htype
              rw [hhandles]
              exact hp i hi htype
            refine ⟨({ setTimer p again .sampling with devices := r.1 },
              r.2.map Output.exported), ?_⟩
            rw [exportTimerCb, hok, hr]
      obtain ⟨⟨p', out⟩, hcb⟩ := hcb
      rw [hfire, ← hperiod]
      simp only [if_true, hcb]
      exact ⟨p', _, rfl, rfl⟩

theorem sameTimer_of_sameExports [Libev] (h : SameExports p q) (hp : LiveHandles p)
    (hq : LiveHandles q) (timer : Timer) : SameTimer (timerOf p timer) (timerOf q timer) := by
  obtain ⟨p', out, hstep, hhead⟩ := tick_shows hp timer
  obtain ⟨q', out', hstep', hhead'⟩ := tick_shows hq timer
  have hkinds := h [.timer timer quietTick] p' (out ++ []) q' (out' ++ [])
    (fun e he => List.mem_singleton.mp he ▸ trivial)
    (Machine.run_cons_eq_some.mpr ⟨p', out, [], probe_eq_some.mpr hstep, rfl, rfl⟩)
    (Machine.run_cons_eq_some.mpr ⟨q', out', [], probe_eq_some.mpr hstep', rfl, rfl⟩)
  rw [List.append_nil, List.append_nil] at hkinds
  rw [hkinds, hhead'] at hhead
  cases hpact : (timerOf p timer).active with
  | false =>
      rw [hpact] at hhead
      cases hqact : (timerOf q timer).active with
      | false => exact ⟨hpact.trans hqact.symm, fun h => by rw [hpact] at h; cases h⟩
      | true => rw [hqact] at hhead; cases hhead
  | true =>
      rw [hpact] at hhead
      cases hqact : (timerOf q timer).active with
      | false => rw [hqact] at hhead; cases hhead
      | true =>
          rw [hqact] at hhead
          exact ⟨hpact.trans hqact.symm,
            fun _ => (Kind.callback.inj (Option.some.inj hhead)).2.symm⟩

/-- A packet that is exported behind an open gate shows the gate. -/
theorem exported_shows_gate {o a : Options} {caplen : Nat} {r : Handled}
    (ha : a = { o with exportPktidInterval := a.exportPktidInterval })
    (hr : Arrival.handle ⟨{ o with exportPktidInterval := 1 }, ts, caplen, m⟩ d = .ok r)
    (hexp : r.exported ≠ none) :
    ∃ r', Arrival.handle ⟨a, ts, caplen, m⟩ d = .ok r' ∧
      (r'.exported.isSome = true ↔ ¬ a.exportPktidInterval ≤ 0) := by
  by_cases hclosed : a.exportPktidInterval ≤ 0
  · obtain ⟨r', hr'⟩ := handle_closed_defined
      (a := { o with exportPktidInterval := 1 }) (o := a) (by rw [ha]) hclosed hr
    refine ⟨r', hr', ?_⟩
    rw [handle_closed hclosed hr']
    constructor
    · intro h
      cases h
    · exact fun hopen => absurd hclosed hopen
  · have hopened : Arrival.handle ⟨a, ts, caplen, m⟩ d = .ok r :=
      (handle_opened (by rw [ha]) hclosed).trans hr
    exact ⟨r, hopened, fun _ => hclosed, fun _ => Option.isSome_iff_ne_none.mpr hexp⟩

/-- Probes that export the same export the same of one packet. -/
theorem packet_of_sameExports [Libev] {i : Fin maxInterfaces} {caplen : Nat} {r r' : Handled}
    (h : SameExports p q) (hi : i.val < p.options.numberInterfaces)
    (hi' : i.val < q.options.numberInterfaces)
    (hr : Arrival.handle ⟨p.options, ts, caplen, m⟩ (p.devices i) = .ok r)
    (hr' : Arrival.handle ⟨q.options, ts, caplen, m⟩ (q.devices i) = .ok r') :
    r.exported.isSome = r'.exported.isSome := by
  have hkinds := h [.packet i ts caplen m] _ _ _ _
    (fun e he => List.mem_singleton.mp he ▸ trivial)
    (Machine.run_cons_eq_some.mpr ⟨_, _, [], probe_eq_some.mpr (step_packet hi hr), rfl, rfl⟩)
    (Machine.run_cons_eq_some.mpr ⟨_, _, [], probe_eq_some.mpr (step_packet hi' hr'), rfl, rfl⟩)
  rw [List.append_nil, List.append_nil, kinds_received, kinds_received] at hkinds
  cases hp : r.exported.isSome <;> cases hq : r'.exported.isSome
  · rfl
  · rw [hp, hq] at hkinds
    cases hkinds
  · rw [hp, hq] at hkinds
    cases hkinds
  · rfl

/-- The gate shows, where a packet can be exported at all. -/
theorem gate_of_sameExports [Libev] {v : Double} (h : SameExports p q)
    (hoptions : q.options = { p.options with exportPktidInterval := v })
    (hdevices : q.devices = p.devices) :
    (v ≤ 0 ↔ p.options.exportPktidInterval ≤ 0) ∨ Unselected p.options p.devices := by
  by_contra hnot
  obtain ⟨hgate, hun⟩ := not_or.mp hnot
  -- a packet that is exported behind the open gate
  obtain ⟨i, hi, ts, caplen, frame, r, hr, hexp⟩ : ∃ i : Fin maxInterfaces,
      i.val < p.options.numberInterfaces ∧ ∃ ts caplen frame r,
        Arrival.handle ⟨{ p.options with exportPktidInterval := 1 }, ts, caplen, frame⟩
          (p.devices i) = .ok r ∧ r.exported ≠ none := by
    by_contra hnone
    exact hun fun i hi ts caplen frame r hr => by_contra fun hexp =>
      hnone ⟨i, hi, ts, caplen, frame, r, hr, hexp⟩
  obtain ⟨rp, hrp, hshowp⟩ := exported_shows_gate (a := p.options) rfl hr hexp
  obtain ⟨rq, hrq, hshowq⟩ := exported_shows_gate (a := q.options) (by rw [hoptions]) hr hexp
  rw [← hdevices] at hrq
  have hi' : i.val < q.options.numberInterfaces := by
    rw [hoptions]
    exact hi
  have hsame := packet_of_sameExports h hi hi' hrp hrq
  have hqv : q.options.exportPktidInterval = v := by rw [hoptions]
  rw [← hsame, hshowp, hqv, not_iff_not] at hshowq
  exact hgate hshowq.symm

/-- **INTERVALS AT RUN TIME** — in every state of every run, an interval command
    makes the probe export like one started with that option just where the two
    readings of its number, and for `I` the gate, agree. -/
theorem agreesAfter_iff [Libev] {c : Config} {p₀ : Probe} {es : List Event} {out₀ : List Output}
    {msg : CStr} (x : IntervalCommand) (hp₀ : Started c p₀)
    (h : Machine.run probe p₀ es = some (p, out₀)) :
    AgreesAfter x msg p ↔ Agreeing x msg p := by
  refine ⟨fun hagrees => ?_, agrees_of_agreeing⟩
  have hlive : LiveHandles p := run_live (started_live hp₀) h
  obtain ⟨hoptions, hhandles, hdevices⟩ := startedWith_frame x (strtod msg) p
  have hlive' : LiveHandles (startedWith x (strtod msg) p) := by
    intro i hi htype
    rw [hoptions] at hi
    rw [hdevices] at htype
    rw [hhandles]
    refine hlive i ?_ htype
    cases x <;> exact hi
  obtain ⟨p', reply, hcall⟩ : ∃ p' reply,
      x.command.call ⟨fun _ _ => false, fun _ _ => false⟩ msg p = .ok (p', reply) := by
    rcases lt_or_ge (toInt (strtol0 msg)) 0 with hneg | hnonneg
    · exact ⟨_, _, x.call_none (newTimeout_of_neg hneg)⟩
    · exact ⟨_, _, x.call_some (newTimeout_of_nonneg hnonneg)⟩
  have hsame := hagrees _ p' reply hcall _ (startedWith_started x msg p)
  obtain ⟨timer, rfl, hset⟩ := call_interval x hcall
  obtain ⟨hkeep, hkeep', hkeep''⟩ := setTimer_frame p timer x.timer
  constructor
  · have hlive'' : LiveHandles (setTimer p timer x.timer) := by
      intro i hi htype
      rw [hkeep] at hi
      rw [hkeep''] at htype
      rw [hkeep']
      exact hlive i hi htype
    have htimer := sameTimer_of_sameExports hsame hlive'' hlive' x.timer
    rw [timerOf_setTimer_self, startedWith, timerOf_setTimer_self] at htimer
    rcases hset with ⟨hnonneg, rfl⟩ | ⟨hneg, rfl⟩
    · exact Or.inl ⟨hnonneg, (sameTimer_registered hnonneg).mp htimer⟩
    · exact Or.inr ⟨hneg, htimer⟩
  · rintro rfl
    have hgate := gate_of_sameExports (v := strtod msg) hsame (by rw [hoptions, hkeep]; rfl)
      (by rw [hdevices, hkeep''])
    rwa [hkeep, hkeep''] at hgate

open scoped Libev.Repeating

/-- `J 5` on a probe that has just been started. -/
theorem agreesAfter_five : AgreesAfter .J (str "5") TemplateAgreement.lpProbe := by
  have hfive : strtod (str "5") = .finite 5 := by decide +kernel
  have hrun : Machine.run probe TemplateAgreement.lpProbe [] =
      some (TemplateAgreement.lpProbe, []) := rfl
  refine (agreesAfter_iff .J (startUp_started _ _ TemplateAgreement.lpConfig) hrun).mpr ?_
  have hint : toInt (strtol0 (str "5")) = 5 := by decide
  refine ⟨Or.inl ?_, fun h => by cases h⟩
  rw [hint, hfive]
  exact ⟨by decide, Or.inl rfl⟩

/-- `I 0` stops the timer, and the packets are exported as before. -/
theorem interval_zero_still_exports :
    Started TemplateAgreement.lpConfig TemplateAgreement.lpProbe ∧
      strtod (str "0") = .finite 0 ∧ ¬ AgreesAfter .I (str "0") TemplateAgreement.lpProbe := by
  have hzero : strtod (str "0") = .finite 0 := by decide +kernel
  refine ⟨startUp_started _ _ _, hzero, fun h => ?_⟩
  obtain ⟨p', reply, hcall⟩ : ∃ p' reply, IntervalCommand.I.command.call
      ⟨fun _ _ => false, fun _ _ => false⟩ (str "0") TemplateAgreement.lpProbe
        = .ok (p', reply) := ⟨_, _, rfl⟩
  have hsame := h _ p' reply hcall _ (startedWith_started .I _ _)
  rw [hzero] at hsame
  obtain ⟨timer, rfl, -⟩ := call_interval .I hcall
  -- the packet is exported behind the command, and not behind the option
  obtain ⟨r, hr, hexp⟩ : ∃ r, Arrival.handle ⟨TemplateAgreement.lpProbe.options, ⟨1, 0⟩, 28,
      ofList Datagrams.udpDatagram.bytes⟩ (TemplateAgreement.lpProbe.devices 0) = .ok r ∧
        r.exported.isSome = true :=
    ⟨_, (@handlePacket_ip _ _ _ _ _ 0x0800 rfl rfl).trans rfl, rfl⟩
  obtain ⟨r', hr'⟩ : ∃ r', Arrival.handle
      ⟨setInterval TemplateAgreement.lpProbe.options 0 .I, ⟨1, 0⟩, 28,
        ofList Datagrams.udpDatagram.bytes⟩ (TemplateAgreement.lpProbe.devices 0) = .ok r' :=
    ⟨_, (@handlePacket_ip _ _ _ _ _ 0x0800 rfl rfl).trans rfl⟩
  have hnone : r'.exported = none := handle_closed (by decide) hr'
  have hi : (0 : Fin maxInterfaces).val < TemplateAgreement.lpProbe.options.numberInterfaces := by
    decide
  have hstep := step_packet (p := setTimer TemplateAgreement.lpProbe timer .pkid) hi hr
  have hstep' := step_packet (p := startedWith .I 0 TemplateAgreement.lpProbe) hi hr'
  have hkinds := hsame [TemplateAgreement.udpPacket] _ _ _ _
    (fun e he => List.mem_singleton.mp he ▸ trivial)
    (Machine.run_cons_eq_some.mpr ⟨_, _, [], probe_eq_some.mpr hstep, rfl, rfl⟩)
    (Machine.run_cons_eq_some.mpr ⟨_, _, [], probe_eq_some.mpr hstep', rfl, rfl⟩)
  rw [List.append_nil, List.append_nil, kinds_received, kinds_received, hexp, hnone] at hkinds
  cases hkinds

end Impd4e.IntervalReconfig
