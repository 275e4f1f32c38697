import Impd4e.ConfigHandler
import Impd4e.LinkTypes

/-! # The event loop

    `main` opens the devices and registers the export timers; from then on
    packets arrive, timers call back, and commands come from the console and
    from the collectors.  Each is one step of the probe. -/

namespace Impd4e.EventLoop

open Impd4e.CString Impd4e.PacketHandler Impd4e.Traffic Impd4e.ExportHandler Impd4e.CmdLine
  Impd4e.ConfigHandler Impd4e.LinkTypes Binary64 Machine

/-! ## Start-up -/

/-- What the system answers when a device is opened. -/
structure Opening where
  pcapDatalink : LinkType
  ipv4Address : Ipv4Address
  filter : Option CStr
  socket : Int

/-- `open_device`, where it succeeds. -/
def openDevice (opening : Opening) (dev : DeviceDev) : DeviceDev × DeviceHandle :=
  match dev.deviceType with
  | .pcapFile => (determineLinkType opening.pcapDatalink dev, .pcap ⟨opening.filter⟩)
  | .pcap =>
      (determineLinkType opening.pcapDatalink { dev with ipv4Address := opening.ipv4Address },
        .pcap ⟨opening.filter⟩)
  | .socketInet => (dev, .socket opening.socket)
  | .socketUnix => (dev, .socket opening.socket)
  | .file => (dev, .unset)
  | .unknown => (dev, .unset)

/-- `event_register_timer`: the first call at once. -/
def eventRegisterTimer [Libev] (timeout : Double) : EvTimer := Libev.start ⟨timeout, false⟩

/-- `event_register_timer_w`: the first call after the timeout. -/
def eventRegisterTimerW [Libev] (timeout : Double) : EvTimer := Libev.again ⟨timeout, false⟩

/-- The probe `p` is what `main` makes of the configuration `c`.  The options
    that are set elsewhere are whatever they are. -/
structure Started [Libev] (c : Config) (p : Probe) : Prop where
  numberInterfaces : p.options.numberInterfaces = c.options.numberInterfaces
  templateID : p.options.templateID = c.options.templateID
  exportPacketCount : p.options.exportPacketCount = c.options.exportPacketCount
  exportPktidInterval : p.options.exportPktidInterval = c.options.exportPktidInterval
  exportSamplingInterval : p.options.exportSamplingInterval = c.options.exportSamplingInterval
  exportStatsInterval : p.options.exportStatsInterval = c.options.exportStatsInterval
  opened : ∀ i : Fin maxInterfaces, i.val < c.options.numberInterfaces →
    ∃ opening, openDevice opening (c.devices i) = (p.devices i, p.handles i)
  exportTimerPkid : p.exportTimerPkid = eventRegisterTimerW c.options.exportPktidInterval
  exportTimerSampling :
    p.exportTimerSampling = eventRegisterTimerW c.options.exportSamplingInterval
  exportTimerStats : p.exportTimerStats = eventRegisterTimer c.options.exportStatsInterval

/-- `main` up to the event loop, where no option is set elsewhere. -/
def startUp [Libev] (opening : Fin maxInterfaces → Opening) (exportLocationInterval : Double)
    (c : Config) : Probe where
  options := c.options
  devices i :=
    if i.val < c.options.numberInterfaces then (openDevice (opening i) (c.devices i)).1
    else c.devices i
  handles i :=
    if i.val < c.options.numberInterfaces then (openDevice (opening i) (c.devices i)).2
    else .unset
  exportTimerPkid := eventRegisterTimerW c.options.exportPktidInterval
  exportTimerSampling := eventRegisterTimerW c.options.exportSamplingInterval
  exportTimerStats := eventRegisterTimer c.options.exportStatsInterval
  exportTimerLocation := eventRegisterTimer exportLocationInterval
  interfaces_le := c.interfaces_le

theorem startUp_started [Libev] (opening : Fin maxInterfaces → Opening)
    (exportLocationInterval : Double) (c : Config) :
    Started c (startUp opening exportLocationInterval c) where
  numberInterfaces := rfl
  templateID := rfl
  exportPacketCount := rfl
  exportPktidInterval := rfl
  exportSamplingInterval := rfl
  exportStatsInterval := rfl
  opened i hi := ⟨opening i, (Prod.ext (if_pos hi) (if_pos hi)).symm⟩
  exportTimerPkid := rfl
  exportTimerSampling := rfl
  exportTimerStats := rfl

/-- Opening sets the link data of a device and leaves the rest. -/
theorem openDevice_eq (opening : Opening) (dev : DeviceDev) :
    ∃ linkType pktOffset ipv4Address, (openDevice opening dev).1 =
      { dev with linkType := linkType, pktOffset := pktOffset, ipv4Address := ipv4Address } := by
  unfold openDevice
  split
  · exact ⟨_, _, dev.ipv4Address, rfl⟩
  · exact ⟨_, _, _, rfl⟩
  · exact ⟨dev.linkType, dev.pktOffset, dev.ipv4Address, rfl⟩
  · exact ⟨dev.linkType, dev.pktOffset, dev.ipv4Address, rfl⟩
  · exact ⟨dev.linkType, dev.pktOffset, dev.ipv4Address, rfl⟩
  · exact ⟨dev.linkType, dev.pktOffset, dev.ipv4Address, rfl⟩

/-! ## Timers -/

/-- The timers of export_handler.c. -/
inductive Timer where
  | pkid
  | sampling
  | stats
  | location
  deriving DecidableEq, Repr

def timerOf (p : Probe) : Timer → EvTimer
  | .pkid => p.exportTimerPkid
  | .sampling => p.exportTimerSampling
  | .stats => p.exportTimerStats
  | .location => p.exportTimerLocation

def setTimer (p : Probe) (timer : EvTimer) : Timer → Probe
  | .pkid => { p with exportTimerPkid := timer }
  | .sampling => { p with exportTimerSampling := timer }
  | .stats => { p with exportTimerStats := timer }
  | .location => { p with exportTimerLocation := timer }

/-- What the probe does that can be seen from outside. -/
inductive Output where
  /-- the callback of a timer, with the value `repeat` it is armed again with -/
  | timer (timer : Timer) (period : Double)
  | exported (output : ExportHandler.Output)
  | probeStats
  | location
  | sync (i : Fin maxInterfaces) (message : CStr)
  | reply (message : CStr)

/-- The look of `export_data_interface_stats` at the handle of a device. -/
def pcapStatsHandle (dev : DeviceDev) (handle : DeviceHandle) : Except Undefined Unit :=
  match dev.deviceType, handle with
  | .pcap, .socket _ => .error .wrongMember
  | .pcap, .unset => .error .other
  | _, _ => .ok ()

/-- The handles the loop of `export_timer_sampling_cb` looks at. -/
def pcapStatsHandles (p : Probe) : List (Fin maxInterfaces) → Except Undefined Unit
  | [] => .ok ()
  | i :: rest =>
      match pcapStatsHandle (p.devices i) (p.handles i) with
      | .error u => .error u
      | .ok _ => pcapStatsHandles p rest

/-- The callbacks of the timers.  For the probe statistics and the location,
    `t.accepted 0` tells whether the record is accepted. -/
def exportTimerCb (t : Tick) (p : Probe) : Timer → Except Undefined (Probe × List Output)
  | .pkid =>
      .ok ({ p with devices := (exportTimerPktidCb p.devices).1 },
        (exportTimerPktidCb p.devices).2.map Output.exported)
  | .sampling =>
      match pcapStatsHandles p p.interfaces with
      | .error u => .error u
      | .ok _ =>
          match exportTimerSamplingCb p.options.numberInterfaces t p.devices with
          | none => .error .other
          | some (devices, out) => .ok ({ p with devices := devices }, out.map Output.exported)
  | .stats => .ok (p, if t.accepted 0 then [.probeStats, .exported .exportFlush] else [])
  | .location => .ok (p, if t.accepted 0 then [.location, .exported .exportFlush] else [])

/-! ## One event -/

/-- What the event loop calls. -/
inductive Event where
  /-- `handle_packet` on a device -/
  | packet (i : Fin maxInterfaces) (ts : Timeval) (caplen : Nat) (frame : Nat → Option UInt8)
  /-- the moment a timer is due -/
  | timer (timer : Timer) (t : Tick)
  /-- `user_input_cb`, with the command it finds -/
  | userInput (libpcap : FilterOracle) (cmd : Command) (msg : CStr)
  /-- `runtime_configuration_cb`, with the command it finds -/
  | message (libpcap : FilterOracle) (cmd : Command) (msg : CStr) (accepted : Nat → Bool)

/-- `export_data_sync` for every interface. -/
def exportDataSync (p : Probe) (accepted : Nat → Bool) (message : CStr) : List Output :=
  p.interfaces.flatMap fun i : Fin maxInterfaces =>
    if accepted i.val then [.sync i message, .exported .exportFlush] else []

def step [Libev] (p : Probe) : Event → Except Undefined (Probe × List Output)
  | .packet i ts caplen frame =>
      if i.val < p.options.numberInterfaces then
        match receive i ⟨p.options, ts, caplen, frame⟩ p.devices with
        | none => .error .other
        | some (devices, out) => .ok ({ p with devices := devices }, out.map Output.exported)
      else .ok (p, [])
  | .timer timer t =>
      match Libev.fire (timerOf p timer) with
      | none => .ok (p, [])
      | some again =>
          match exportTimerCb t (setTimer p again timer) timer with
          | .error u => .error u
          | .ok (p', out) => .ok (p', .timer timer again.period :: out)
  | .userInput libpcap cmd msg =>
      match cmd.call libpcap msg p with
      | .error u => .error u
      | .ok (p', message) => .ok (p', [.reply message])
  | .message libpcap cmd msg accepted =>
      match cmd.call libpcap msg p with
      | .error u => .error u
      | .ok (p', message) => .ok (p', exportDataSync p' accepted message)

/-- The probe as a machine, which stops where a step has no meaning. -/
def probe [Libev] : Machine.Step Probe Event Output := fun p e => (step p e).toOption

theorem probe_eq_some [Libev] {p p' : Probe} {e : Event} {out : List Output} :
    probe p e = some (p', out) ↔ step p e = .ok (p', out) := by
  rw [probe]
  cases step p e with
  | error u => exact ⟨fun h => (Option.some_ne_none _ h.symm).elim, fun h => by cases h⟩
  | ok r => exact ⟨fun h => congrArg _ (Option.some.inj h), fun h => congrArg _ (Except.ok.inj h)⟩

/-! ## What one step can do -/

variable {p p' : Probe} {e : Event} {out : List Output}

/-- A tick leaves all but timers and the counters it reports. -/
structure Ticked (p p' : Probe) : Prop where
  options : p'.options = p.options
  handles : p'.handles = p.handles
  devices : ∀ i, ∃ size delta, p'.devices i =
    { p.devices i with samplingSize := size, samplingDeltaCount := delta }

/-- No packet record among the outputs. -/
def Quiet (out : List Output) : Prop := ∀ o ∈ out, ∀ i record, o ≠ .exported (.record i record)

theorem quiet_nil : Quiet [] := fun _ ho => absurd ho List.not_mem_nil

theorem Quiet.cons {o : Output} (ho : ∀ i record, o ≠ .exported (.record i record))
    (h : Quiet out) : Quiet (o :: out) := by
  intro o' ho'
  rcases List.mem_cons.mp ho' with rfl | hmem
  · exact ho
  · exact h o' hmem

theorem Ticked.of_devices (hoptions : p'.options = p.options) (hhandles : p'.handles = p.handles)
    (hdevices : p'.devices = p.devices) : Ticked p p' :=
  ⟨hoptions, hhandles, fun i =>
    ⟨(p.devices i).samplingSize, (p.devices i).samplingDeltaCount, by rw [hdevices]⟩⟩

theorem setTimer_frame (p : Probe) (again : EvTimer) (timer : Timer) :
    (setTimer p again timer).options = p.options ∧
      (setTimer p again timer).handles = p.handles ∧
      (setTimer p again timer).devices = p.devices := by
  cases timer with
  | pkid => exact ⟨rfl, rfl, rfl⟩
  | sampling => exact ⟨rfl, rfl, rfl⟩
  | stats => exact ⟨rfl, rfl, rfl⟩
  | location => exact ⟨rfl, rfl, rfl⟩

/-- The loop of the sampling timer clears counters and exports statistics. -/
theorem exportTimerSamplingCb_frame {n : Nat} {t : Tick} {devices devices' : Devices}
    {out : List ExportHandler.Output}
    (h : exportTimerSamplingCb n t devices = some (devices', out)) :
    (∀ i, ∃ size delta, devices' i =
      { devices i with samplingSize := size, samplingDeltaCount := delta }) ∧
    ∀ o ∈ out, ∀ i record, o ≠ .record i record := by
  obtain ⟨reported, hrun, rfl⟩ := exportTimerSamplingCb_eq_some h
  have hframe := run_rule (P := fun _ (d : Devices) (out : List ExportHandler.Output) =>
    (∀ i, ∃ size delta, d i =
      { devices i with samplingSize := size, samplingDeltaCount := delta }) ∧
    ∀ o ∈ out, ∀ i record, o ≠ .record i record)
    ⟨fun i => ⟨_, _, rfl⟩, fun _ ho => absurd ho List.not_mem_nil⟩ ?_ hrun
  · refine ⟨hframe.1, ?_⟩
    intro o ho
    rcases List.mem_append.mp ho with hmem | hmem
    · exact hframe.2 o hmem
    · rw [List.mem_singleton.mp hmem]
      intro i record hne
      cases hne
  · intro _ d out j d' out' ih hround
    obtain ⟨hj, ⟨-, rfl, rfl⟩ | ⟨-, rfl, stats, rfl, -, -⟩⟩ := samplingRound_eq_some hround
    · rw [List.append_nil]
      exact ih
    · constructor
      · intro i
        by_cases hij : i = ⟨j, hj⟩
        · obtain ⟨size, delta, hd⟩ := ih.1 ⟨j, hj⟩
          subst hij
          exact ⟨0, 0, by rw [Function.update_self, hd]⟩
        · rw [Function.update_of_ne hij]
          exact ih.1 i
      · intro o ho
        rcases List.mem_append.mp ho with hmem | hmem
        · exact ih.2 o hmem
        · rw [List.mem_singleton.mp hmem]
          intro i record hne
          cases hne

theorem quiet_map {out : List ExportHandler.Output}
    (h : ∀ o ∈ out, ∀ i record, o ≠ .record i record) : Quiet (out.map Output.exported) := by
  intro o ho i record heq
  obtain ⟨o', ho', rfl⟩ := List.mem_map.mp ho
  exact h o' ho' i record (Output.exported.inj heq)

/-- What the sampling callback comes from. -/
theorem exportTimerCb_sampling {t : Tick}
    (h : exportTimerCb t p .sampling = .ok (p', out)) :
    ∃ devices out', exportTimerSamplingCb p.options.numberInterfaces t p.devices
        = some (devices, out') ∧
      p' = { p with devices := devices } ∧ out = out'.map Output.exported := by
  rw [exportTimerCb] at h
  split at h
  · cases h
  · split at h
    · cases h
    · rename_i devices out' hcb
      obtain ⟨rfl, rfl⟩ := Prod.mk.inj (Except.ok.inj h)
      exact ⟨devices, out', hcb, rfl, rfl⟩

theorem exportTimerCb_ticked {t : Tick} {timer : Timer}
    (h : exportTimerCb t p timer = .ok (p', out)) : Ticked p p' ∧ Quiet out := by
  -- a record of its own and a flush
  have own : ∀ o, (∀ i record, o ≠ .exported (.record i record)) →
      Quiet (if t.accepted 0 then [o, .exported .exportFlush] else []) := by
    intro o ho
    split
    · exact (quiet_nil.cons fun _ _ hne => by cases hne).cons ho
    · exact quiet_nil
  cases timer with
  | pkid =>
      obtain ⟨rfl, rfl⟩ := Prod.mk.inj (Except.ok.inj h)
      exact ⟨.of_devices rfl rfl rfl, quiet_nil.cons fun _ _ hne => by cases hne⟩
  | sampling =>
      obtain ⟨devices, out', hcb, rfl, rfl⟩ := exportTimerCb_sampling h
      obtain ⟨hdevices, hquiet⟩ := exportTimerSamplingCb_frame hcb
      exact ⟨⟨rfl, rfl, hdevices⟩, quiet_map hquiet⟩
  | stats =>
      obtain ⟨rfl, rfl⟩ := Prod.mk.inj (Except.ok.inj h)
      exact ⟨.of_devices rfl rfl rfl, own .probeStats fun _ _ hne => by cases hne⟩
  | location =>
      obtain ⟨rfl, rfl⟩ := Prod.mk.inj (Except.ok.inj h)
      exact ⟨.of_devices rfl rfl rfl, own .location fun _ _ hne => by cases hne⟩

theorem exportDataSync_quiet (p : Probe) (accepted : Nat → Bool) (message : CStr) :
    Quiet (exportDataSync p accepted message) := by
  intro o ho i record heq
  obtain ⟨j, -, hmem⟩ := List.mem_flatMap.mp ho
  split at hmem
  · rw [heq] at hmem
    simp at hmem
  · cases hmem

/-- What the handling of a packet puts out. -/
def received (i : Fin maxInterfaces) (r : Handled) : List ExportHandler.Output :=
  .decided i r.decision :: r.exported.toList.map (ExportHandler.Output.record i)
    ++ if r.flushed then [.exportFlush] else []

theorem step_packet [Libev] {i : Fin maxInterfaces} {ts : Timeval} {caplen : Nat}
    {frame : Nat → Option UInt8} {r : Handled} (hi : i.val < p.options.numberInterfaces)
    (hr : Arrival.handle ⟨p.options, ts, caplen, frame⟩ (p.devices i) = .ok r) :
    step p (.packet i ts caplen frame) =
      .ok ({ p with devices := Function.update p.devices i r.device },
        (received i r).map Output.exported) := by
  rw [step, if_pos hi, receive_eq_some.mpr ⟨r, hr, rfl, rfl⟩]
  rfl

theorem step_packet_ok [Libev] {i : Fin maxInterfaces} {ts : Timeval} {caplen : Nat}
    {frame : Nat → Option UInt8} (hi : i.val < p.options.numberInterfaces)
    (h : step p (.packet i ts caplen frame) = .ok (p', out)) :
    ∃ r, Arrival.handle ⟨p.options, ts, caplen, frame⟩ (p.devices i) = .ok r ∧
      p' = { p with devices := Function.update p.devices i r.device } ∧
      out = (received i r).map Output.exported := by
  rw [step, if_pos hi] at h
  split at h
  · cases h
  · rename_i devices out' hreceive
    obtain ⟨rfl, rfl⟩ := Prod.mk.inj (Except.ok.inj h)
    obtain ⟨r, hr, rfl, rfl⟩ := receive_eq_some.mp hreceive
    exact ⟨r, hr, rfl, rfl⟩

/-- A timer that is not active is never due. -/
theorem step_timer_idle [Libev] {timer : Timer} {t : Tick}
    (hidle : (timerOf p timer).active = false) (h : step p (.timer timer t) = .ok (p', out)) :
    p' = p ∧ out = [] := by
  rw [step, Libev.fire_inactive _ hidle] at h
  obtain ⟨rfl, rfl⟩ := Prod.mk.inj (Except.ok.inj h)
  exact ⟨rfl, rfl⟩

/-- An active timer is armed again and calls back. -/
theorem step_timer_due [Libev] {timer : Timer} {t : Tick}
    (hactive : (timerOf p timer).active = true) (h : step p (.timer timer t) = .ok (p', out)) :
    Ticked p p' ∧ ∃ again out', Libev.fire (timerOf p timer) = some again ∧
      exportTimerCb t (setTimer p again timer) timer = .ok (p', out') ∧
      out = .timer timer again.period :: out' := by
  obtain ⟨again, hfire, -⟩ := Libev.fire_active _ hactive
  rw [step, hfire] at h
  dsimp only at h
  split at h
  · cases h
  · rename_i q out' hcb
    obtain ⟨rfl, rfl⟩ := Prod.mk.inj (Except.ok.inj h)
    obtain ⟨hticked, -⟩ := exportTimerCb_ticked hcb
    obtain ⟨hoptions, hhandles, hdevices⟩ := setTimer_frame p again timer
    refine ⟨⟨hticked.options.trans hoptions, hticked.handles.trans hhandles, fun i => ?_⟩,
      again, out', hfire, hcb, rfl⟩
    rw [← hdevices]
    exact hticked.devices i

/-- **ONE STEP** — a packet is handled, a timer ticks, or a command is carried
    out. -/
theorem step_cases [Libev] (h : step p e = .ok (p', out)) :
    (∃ i ts caplen frame r, e = .packet i ts caplen frame ∧ i.val < p.options.numberInterfaces ∧
      Arrival.handle ⟨p.options, ts, caplen, frame⟩ (p.devices i) = .ok r ∧
      p' = { p with devices := Function.update p.devices i r.device } ∧
      out = (received i r).map Output.exported) ∨
    (Ticked p p' ∧ Quiet out) ∨
    (Reconfigured p p' ∧ Quiet out) := by
  cases e with
  | packet i ts caplen frame =>
      by_cases hi : i.val < p.options.numberInterfaces
      · obtain ⟨r, hr, hp', hout⟩ := step_packet_ok hi h
        exact Or.inl ⟨i, ts, caplen, frame, r, rfl, hi, hr, hp', hout⟩
      · rw [step, if_neg hi] at h
        obtain ⟨rfl, rfl⟩ := Prod.mk.inj (Except.ok.inj h)
        exact Or.inr (Or.inl ⟨.of_devices rfl rfl rfl, quiet_nil⟩)
  | timer timer t =>
      cases hact : (timerOf p timer).active with
      | false =>
          obtain ⟨rfl, rfl⟩ := step_timer_idle hact h
          exact Or.inr (Or.inl ⟨.of_devices rfl rfl rfl, quiet_nil⟩)
      | true =>
          obtain ⟨hticked, again, out', -, hcb, rfl⟩ := step_timer_due hact h
          obtain ⟨-, hquiet⟩ := exportTimerCb_ticked hcb
          exact Or.inr (Or.inl ⟨hticked, hquiet.cons fun _ _ hne => by cases hne⟩)
  | userInput libpcap cmd msg =>
      rw [step] at h
      split at h
      · cases h
      · rename_i q message hcall
        obtain ⟨rfl, rfl⟩ := Prod.mk.inj (Except.ok.inj h)
        exact Or.inr (Or.inr ⟨Command.call_reconfigured hcall,
          quiet_nil.cons fun _ _ hne => by cases hne⟩)
  | message libpcap cmd msg accepted =>
      rw [step] at h
      split at h
      · cases h
      · rename_i q message hcall
        obtain ⟨rfl, rfl⟩ := Prod.mk.inj (Except.ok.inj h)
        exact Or.inr (Or.inr ⟨Command.call_reconfigured hcall, exportDataSync_quiet _ _ _⟩)

/-- Of the options, only commands change any, and only these. -/
theorem step_options [Libev] (h : step p e = .ok (p', out)) :
    ∃ templateID selRangeMin selRangeMax, p'.options =
      { p.options with
        templateID := templateID, selRangeMin := selRangeMin, selRangeMax := selRangeMax } := by
  obtain ⟨i, ts, caplen, frame, r, rfl, -, -, rfl, -⟩ | ⟨hticked, -⟩ | ⟨hconf, -⟩ := step_cases h
  · exact ⟨_, _, _, rfl⟩
  · exact ⟨p.options.templateID, p.options.selRangeMin, p.options.selRangeMax, hticked.options⟩
  · exact hconf.options

/-! ## When a tick has a meaning -/

/-- The handle of a live capture holds its `pcap_t`. -/
def LiveHandles (p : Probe) : Prop :=
  ∀ i : Fin maxInterfaces, i.val < p.options.numberInterfaces →
    (p.devices i).deviceType = .pcap → ∃ q, p.handles i = .pcap q

/-- The statistics look at the type before they read the handle. -/
theorem pcapStatsHandles_ok {is : List (Fin maxInterfaces)}
    (h : ∀ i ∈ is, (p.devices i).deviceType = .pcap → ∃ q, p.handles i = .pcap q) :
    pcapStatsHandles p is = .ok () := by
  induction is with
  | nil => rfl
  | cons i is ih =>
      obtain ⟨hi, his⟩ := List.forall_mem_cons.mp h
      have hlook : pcapStatsHandle (p.devices i) (p.handles i) = .ok () := by
        unfold pcapStatsHandle
        cases htype : (p.devices i).deviceType with
        | pcap =>
            obtain ⟨q, hq⟩ := hi htype
            rw [hq]
        | unknown => rfl
        | pcapFile => rfl
        | socketUnix => rfl
        | socketInet => rfl
        | file => rfl
      rw [pcapStatsHandles, hlook]
      exact ih his

theorem openDevice_live (opening : Opening) (dev : DeviceDev)
    (h : (openDevice opening dev).1.deviceType = .pcap) :
    ∃ q, (openDevice opening dev).2 = .pcap q := by
  obtain ⟨linkType, pktOffset, ipv4Address, hdev⟩ := openDevice_eq opening dev
  have htype : dev.deviceType = .pcap := by
    rw [hdev] at h
    exact h
  unfold openDevice
  rw [htype]
  exact ⟨_, rfl⟩

theorem started_live [Libev] {c : Config} (hp : Started c p) : LiveHandles p := by
  intro i hi htype
  obtain ⟨opening, hopen⟩ := hp.opened i (hp.numberInterfaces ▸ hi)
  have hlive := openDevice_live opening (c.devices i)
  rw [hopen] at hlive
  exact hlive htype

theorem step_live [Libev] (hp : LiveHandles p) (h : step p e = .ok (p', out)) : LiveHandles p' := by
  intro i hi
  obtain ⟨templateID, selRangeMin, selRangeMax, hoptions⟩ := step_options h
  rw [hoptions] at hi
  obtain ⟨j, ts, caplen, frame, r, rfl, -, hr, rfl, -⟩ | ⟨hticked, -⟩ | ⟨hconf, -⟩ := step_cases h
  · -- a packet leaves the type of its device
    refine (Function.forall_update_iff p.devices fun (i : Fin maxInterfaces) dev =>
      i.val < p.options.numberInterfaces → dev.deviceType = .pcap →
        ∃ q, p.handles i = .pcap q).mpr ⟨fun hj htype => ?_, fun i _ => hp i⟩ i hi
    rw [(handlePacket_setup hr).deviceType] at htype
    exact hp j hj htype
  · obtain ⟨size, delta, hdev⟩ := hticked.devices i
    rw [hdev, hticked.handles]
    exact hp i hi
  · intro htype
    have htype' : (p.devices i).deviceType = .pcap := by
      rw [← htype]
      rcases hconf.templates with ⟨-, hdevices⟩ | ⟨msg, -, hdevices⟩
      · rw [hdevices]
      · rw [hdevices]
        split <;> rfl
    obtain ⟨q, hq⟩ := hp i hi htype'
    rcases hconf.handles i with heq | ⟨q₁, q₂, -, heq⟩
    · exact ⟨q, heq.trans hq⟩
    · exact ⟨q₂, heq⟩

theorem run_live [Libev] {es : List Event} (hp : LiveHandles p)
    (h : Machine.run probe p es = some (p', out)) : LiveHandles p' :=
  run_rule (P := fun _ p _ => LiveHandles p) hp
    (fun _ _ _ _ _ _ ih hstep => step_live ih (probe_eq_some.mp hstep)) h

end Impd4e.EventLoop
