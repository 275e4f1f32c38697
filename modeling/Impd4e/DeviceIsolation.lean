import Impd4e.EventLoop
import Impd4e.Lib.Simulation

/-! # Devices do not see each other

    The devices of a probe share its options, its filters, its timers and its
    export buffer; a packet on one of them still changes nothing that another
    one ever reports.  So the packets of the other devices may be struck from a
    run: the device is left in the same state and exports the same records and
    the same statistics.  Only when the shared buffer is flushed depends on all. -/

namespace Impd4e.DeviceIsolation

open ReadProg Machine Impd4e.CString Impd4e.CmdLine Impd4e.ConfigHandler Impd4e.PacketHandler
  Impd4e.Traffic Impd4e.ExportHandler Impd4e.EventLoop

/-- The probe with other devices. -/
def withDevices (p : Probe) (devices : Devices) : Probe := { p with devices := devices }

/-- What an observer of the device `i` sees of the export; a flush is nobody's. -/
def concerns (i : Fin maxInterfaces) : ExportHandler.Output → Bool
  | .decided j _ => j == i
  | .record j _ => j == i
  | .interfaceStats j _ => j == i
  | .exportFlush => false

/-- What he sees of all the probe puts out. -/
def visible (i : Fin maxInterfaces) : EventLoop.Output → Bool
  | .exported output => concerns i output
  | _ => true

/-- All but the packets of the other devices. -/
def seen (i : Fin maxInterfaces) : EventLoop.Event → Bool
  | .packet j _ _ _ => j == i
  | _ => true

/-- The same device `i`, among others of the same types. -/
structure SameDevice (i : Fin maxInterfaces) (devices devices' : Devices) : Prop where
  device : devices' i = devices i
  deviceType : ∀ j, (devices' j).deviceType = (devices j).deviceType

/-- The same probe, but for devices other than `i`. -/
def SeenFrom (i : Fin maxInterfaces) (p q : Probe) : Prop :=
  ∃ others, q = withDevices p others ∧ SameDevice i p.devices others

variable {i : Fin maxInterfaces} {p p' : Probe} {devices devices' others : Devices}

/-- One device more or less updated on both sides. -/
theorem SameDevice.update (h : SameDevice i devices others) {j : Fin maxInterfaces}
    {dev dev' : DeviceDev} (heq : j = i → dev' = dev)
    (htype : dev'.deviceType = dev.deviceType) :
    SameDevice i (Function.update devices j dev) (Function.update others j dev') := by
  constructor
  · by_cases hij : j = i
    · subst hij
      rw [Function.update_self, Function.update_self, heq rfl]
    · rw [Function.update_of_ne (Ne.symm hij), Function.update_of_ne (Ne.symm hij), h.device]
  · intro k
    by_cases hkj : k = j
    · subst hkj
      rw [Function.update_self, Function.update_self, htype]
    · rw [Function.update_of_ne hkj, Function.update_of_ne hkj, h.deviceType k]

/-! ## Packets -/

/-- A packet on another device leaves this one alone. -/
theorem SameDevice.update_other (h : SameDevice i devices others) {j : Fin maxInterfaces}
    {dev : DeviceDev} (hij : j ≠ i) (htype : dev.deviceType = (devices j).deviceType) :
    SameDevice i (Function.update devices j dev) others := by
  constructor
  · rw [Function.update_of_ne hij.symm, h.device]
  · intro k
    by_cases hkj : k = j
    · subst hkj
      rw [Function.update_self, htype, h.deviceType k]
    · rw [Function.update_of_ne hkj, h.deviceType k]

/-- Of the handling of a packet on another device nothing is seen. -/
theorem received_unseen {j : Fin maxInterfaces} (hij : j ≠ i) (r : Handled) :
    ((received j r).map Output.exported).filter (visible i) = [] := by
  refine List.filter_eq_nil_iff.mpr fun o ho => ?_
  obtain ⟨o', ho', rfl⟩ := List.mem_map.mp ho
  have hne : (j == i) = false := beq_false_of_ne hij
  have hunseen : concerns i o' = false := by
    rcases List.mem_append.mp ho' with hmem | hmem
    · rcases List.mem_cons.mp hmem with rfl | hmem
      · exact hne
      · obtain ⟨record, -, rfl⟩ := List.mem_map.mp hmem
        exact hne
    · split at hmem
      · obtain rfl := List.mem_singleton.mp hmem
        rfl
      · exact absurd hmem List.not_mem_nil
  show ¬ concerns i o' = true
  rw [hunseen]
  exact Bool.false_ne_true

theorem step_unseen [Libev] {e : EventLoop.Event} {q : Probe} {out : List EventLoop.Output}
    (he : seen i e = false) (hq : SeenFrom i p q) (h : EventLoop.step p e = .ok (p', out)) :
    SeenFrom i p' q ∧ out.filter (visible i) = [] := by
  cases e with
  | timer timer t => cases he
  | userInput libpcap cmd msg => cases he
  | message libpcap cmd msg accepted => cases he
  | packet j ts caplen frame =>
      have hij : j ≠ i := ne_of_beq_false he
      by_cases hj : j.val < p.options.numberInterfaces
      · obtain ⟨r, hr, rfl, rfl⟩ := step_packet_ok hj h
        obtain ⟨others, rfl, hd⟩ := hq
        have htype : r.device.deviceType = (p.devices j).deviceType :=
          (handlePacket_setup hr).deviceType
        exact ⟨⟨others, rfl, hd.update_other hij htype⟩, received_unseen hij r⟩
      · rw [EventLoop.step, if_neg hj] at h
        obtain ⟨rfl, rfl⟩ := Prod.mk.inj (Except.ok.inj h)
        exact ⟨hq, rfl⟩

/-- A packet on the device itself is handled in the same way. -/
theorem packet_follows [Libev] {ts : Timeval} {caplen : Nat} {frame : Nat → Option UInt8}
    {out : List EventLoop.Output} (hd : SameDevice i p.devices others)
    (h : EventLoop.step p (.packet i ts caplen frame) = .ok (p', out)) :
    ∃ others', EventLoop.step (withDevices p others) (.packet i ts caplen frame)
        = .ok (withDevices p' others', out) ∧ SameDevice i p'.devices others' := by
  by_cases hi : i.val < p.options.numberInterfaces
  · obtain ⟨r, hr, rfl, rfl⟩ := step_packet_ok hi h
    have hr' : Arrival.handle ⟨p.options, ts, caplen, frame⟩ (others i) = .ok r := by
      rw [hd.device]
      exact hr
    exact ⟨Function.update others i r.device,
      step_packet (p := withDevices p others) hi hr', hd.update (fun _ => rfl) rfl⟩
  · rw [EventLoop.step, if_neg hi] at h
    obtain ⟨rfl, rfl⟩ := Prod.mk.inj (Except.ok.inj h)
    refine ⟨others, ?_, hd⟩
    rw [EventLoop.step]
    exact if_neg hi

/-! ## Timers -/

/-- The statistics of the device are the same. -/
theorem samplingRound_follows {t : Tick} {j : Nat} {out : List ExportHandler.Output}
    (hd : SameDevice i devices others)
    (h : samplingRound t devices j = some (devices', out)) :
    ∃ others' out', samplingRound t others j = some (others', out') ∧
      SameDevice i devices' others' ∧ out'.filter (concerns i) = out.filter (concerns i) := by
  rw [samplingRound] at h ⊢
  by_cases hj : j < maxInterfaces
  · rw [dif_pos hj] at h ⊢
    obtain ⟨rfl, rfl⟩ := Prod.mk.inj (Option.some.inj h)
    refine ⟨_, _, rfl, hd.update ?_ ?_, ?_⟩
    · intro hij
      rw [hij, hd.device]
    · cases hacc : t.accepted j with
      | false => exact hd.deviceType ⟨j, hj⟩
      | true => exact hd.deviceType ⟨j, hj⟩
    · by_cases hij : (⟨j, hj⟩ : Fin maxInterfaces) = i
      · rw [hij, hd.device]
      · have hnothing : ∀ stats : List InterfaceStats,
            (stats.map (ExportHandler.Output.interfaceStats ⟨j, hj⟩)).filter (concerns i)
              = [] := by
          intro stats
          refine List.filter_eq_nil_iff.mpr fun o ho => ?_
          obtain ⟨s, -, rfl⟩ := List.mem_map.mp ho
          show ¬ ((⟨j, hj⟩ : Fin maxInterfaces) == i) = true
          rw [beq_false_of_ne hij]
          exact Bool.false_ne_true
        rw [hnothing, hnothing]
  · rw [dif_neg hj] at h
    cases h

theorem exportTimerSamplingCb_follows {n : Nat} {t : Tick} {out : List ExportHandler.Output}
    (hd : SameDevice i devices others)
    (h : exportTimerSamplingCb n t devices = some (devices', out)) :
    ∃ others' out', exportTimerSamplingCb n t others = some (others', out') ∧
      SameDevice i devices' others' ∧ out'.filter (concerns i) = out.filter (concerns i) := by
  obtain ⟨reported, hrun, rfl⟩ := exportTimerSamplingCb_eq_some h
  obtain ⟨others', reported', hrun', hd', hview⟩ := run_follows
    (fun _ j _ _ _ hd hround => samplingRound_follows (j := j) hd hround) hd hrun
  refine ⟨others', reported' ++ [.exportFlush], ?_, hd', ?_⟩
  · rw [exportTimerSamplingCb, hrun']
  · rw [List.filter_append, List.filter_append, hview]

/-- The look at the handles asks for the types only. -/
theorem pcapStatsHandles_eq {q : Probe} (hhandles : q.handles = p.handles)
    (htype : ∀ j, (q.devices j).deviceType = (p.devices j).deviceType)
    (is : List (Fin maxInterfaces)) : pcapStatsHandles q is = pcapStatsHandles p is := by
  have hlook : ∀ j, pcapStatsHandle (q.devices j) (q.handles j)
      = pcapStatsHandle (p.devices j) (p.handles j) := by
    intro j
    unfold pcapStatsHandle
    rw [htype j, hhandles]
  induction is with
  | nil => rfl
  | cons j is ih => rw [pcapStatsHandles, pcapStatsHandles, ih, hlook j]

theorem filter_exported (out : List ExportHandler.Output) :
    (out.map Output.exported).filter (visible i) = (out.filter (concerns i)).map Output.exported :=
  List.filter_map

theorem setTimer_withDevices (again : EvTimer) (timer : Timer) :
    setTimer (withDevices p others) again timer = withDevices (setTimer p again timer) others := by
  cases timer with
  | pkid => rfl
  | sampling => rfl
  | stats => rfl
  | location => rfl

theorem exportTimerCb_follows {t : Tick} {timer : Timer} {out : List EventLoop.Output}
    (hd : SameDevice i p.devices others) (h : exportTimerCb t p timer = .ok (p', out)) :
    ∃ others' out', exportTimerCb t (withDevices p others) timer
        = .ok (withDevices p' others', out') ∧ SameDevice i p'.devices others' ∧
      out'.filter (visible i) = out.filter (visible i) := by
  cases timer with
  | pkid =>
      obtain ⟨rfl, rfl⟩ := Prod.mk.inj (Except.ok.inj h)
      exact ⟨others, _, rfl, hd, rfl⟩
  | stats =>
      obtain ⟨rfl, rfl⟩ := Prod.mk.inj (Except.ok.inj h)
      exact ⟨others, _, rfl, hd, rfl⟩
  | location =>
      obtain ⟨rfl, rfl⟩ := Prod.mk.inj (Except.ok.inj h)
      exact ⟨others, _, rfl, hd, rfl⟩
  | sampling =>
      obtain ⟨devices', out', hcb, rfl, rfl⟩ := exportTimerCb_sampling h
      obtain ⟨others', out'', hcb', hd', hview⟩ := exportTimerSamplingCb_follows hd hcb
      have hhandles : pcapStatsHandles (withDevices p others) (withDevices p others).interfaces
          = .ok () := by
        have heq : pcapStatsHandles (withDevices p others) p.interfaces
            = pcapStatsHandles p p.interfaces :=
          @pcapStatsHandles_eq p (withDevices p others) rfl hd.deviceType _
        rw [exportTimerCb] at h
        split at h
        · cases h
        · rename_i hlook
          exact heq.trans hlook
      have hcb'' : exportTimerSamplingCb (withDevices p others).options.numberInterfaces t
          (withDevices p others).devices = some (others', out'') := hcb'
      refine ⟨others', out''.map Output.exported, ?_, hd', ?_⟩
      · rw [exportTimerCb, hhandles, hcb'']
        rfl
      · rw [filter_exported, filter_exported, hview]

theorem timer_follows [Libev] {t : Tick} {timer : Timer} {out : List EventLoop.Output}
    (hd : SameDevice i p.devices others) (h : EventLoop.step p (.timer timer t) = .ok (p', out)) :
    ∃ others' out', EventLoop.step (withDevices p others) (.timer timer t)
        = .ok (withDevices p' others', out') ∧ SameDevice i p'.devices others' ∧
      out'.filter (visible i) = out.filter (visible i) := by
  have htimer : timerOf (withDevices p others) timer = timerOf p timer := by
    cases timer with
    | pkid => rfl
    | sampling => rfl
    | stats => rfl
    | location => rfl
  cases hactive : (timerOf p timer).active with
  | false =>
      obtain ⟨rfl, rfl⟩ := step_timer_idle hactive h
      refine ⟨others, [], ?_, hd, rfl⟩
      rw [EventLoop.step, htimer, Libev.fire_inactive _ hactive]
  | true =>
      obtain ⟨-, again, out', hfire, hcb, rfl⟩ := step_timer_due hactive h
      obtain ⟨-, -, hdevices⟩ := setTimer_frame p again timer
      obtain ⟨others', out'', hcb', hd', hview⟩ :=
        exportTimerCb_follows (hdevices.symm ▸ hd) hcb
      refine ⟨others', .timer timer again.period :: out'', ?_, hd', ?_⟩
      · rw [EventLoop.step, htimer, hfire]
        dsimp only
        rw [setTimer_withDevices, hcb']
      · rw [List.filter_cons_of_pos rfl, List.filter_cons_of_pos rfl, hview]

/-! ## Commands -/

/-- A configuration function that knows of no device. -/
structure Oblivious (call : Probe → Probe × CStr) : Prop where
  devices : ∀ p, (call p).1.devices = p.devices
  commutes : ∀ p others, call (withDevices p others) = (withDevices (call p).1 others, (call p).2)

theorem minSelection_oblivious (msg : CStr) : Oblivious (configurationSetMinSelection msg) :=
  ⟨fun _ => rfl, fun _ _ => rfl⟩

theorem maxSelection_oblivious (msg : CStr) : Oblivious (configurationSetMaxSelection msg) :=
  ⟨fun _ => rfl, fun _ _ => rfl⟩

theorem pktid_oblivious [Libev] (msg : CStr) : Oblivious (configurationSetExportToPktid msg) := by
  constructor
  · intro p
    unfold configurationSetExportToPktid
    cases newTimeout msg p.exportTimerPkid with
    | none => rfl
    | some timer => rfl
  · intro p others
    have htimer : (withDevices p others).exportTimerPkid = p.exportTimerPkid := rfl
    unfold configurationSetExportToPktid
    rw [htimer]
    cases newTimeout msg p.exportTimerPkid with
    | none => rfl
    | some timer => rfl

theorem probestats_oblivious [Libev] (msg : CStr) :
    Oblivious (configurationSetExportToProbestats msg) := by
  constructor
  · intro p
    unfold configurationSetExportToProbestats
    cases newTimeout msg p.exportTimerStats with
    | none => rfl
    | some timer => rfl
  · intro p others
    have htimer : (withDevices p others).exportTimerStats = p.exportTimerStats := rfl
    unfold configurationSetExportToProbestats
    rw [htimer]
    cases newTimeout msg p.exportTimerStats with
    | none => rfl
    | some timer => rfl

theorem ifstats_oblivious [Libev] (msg : CStr) :
    Oblivious (configurationSetExportToIfstats msg) := by
  constructor
  · intro p
    unfold configurationSetExportToIfstats
    cases newTimeout msg p.exportTimerSampling with
    | none => rfl
    | some timer => rfl
  · intro p others
    have htimer : (withDevices p others).exportTimerSampling = p.exportTimerSampling := rfl
    unfold configurationSetExportToIfstats
    rw [htimer]
    cases newTimeout msg p.exportTimerSampling with
    | none => rfl
    | some timer => rfl

theorem Oblivious.follows {call : Probe → Probe × CStr} (hcall : Oblivious call) {text : CStr}
    (hd : SameDevice i p.devices others) (h : call p = (p', text)) :
    ∃ others', call (withDevices p others) = (withDevices p' others', text) ∧
      SameDevice i p'.devices others' := by
  refine ⟨others, ?_, ?_⟩
  · rw [hcall.commutes, h]
  · have hdevices := hcall.devices p
    rw [h] at hdevices
    rw [hdevices]
    exact hd

theorem template_follows {msg text : CStr} (hd : SameDevice i p.devices others)
    (h : configurationSetTemplate msg p = (p', text)) :
    ∃ others', configurationSetTemplate msg (withDevices p others)
        = (withDevices p' others', text) ∧ SameDevice i p'.devices others' := by
  unfold configurationSetTemplate at h ⊢
  cases hparse : parseTemplate msg with
  | none =>
      rw [hparse] at h
      obtain ⟨rfl, rfl⟩ := Prod.mk.inj h
      exact ⟨others, rfl, hd⟩
  | some tId =>
      rw [hparse] at h
      obtain ⟨rfl, rfl⟩ := Prod.mk.inj h
      refine ⟨fun j => if j.val < p.options.numberInterfaces then
        { others j with templateId := absent } else others j, rfl, ?_, fun j => ?_⟩
      · show (if _ then _ else _) = if _ then _ else _
        rw [hd.device]
      · have htype := hd.deviceType j
        show (if _ then _ else _ : DeviceDev).deviceType
          = (if _ then _ else _ : DeviceDev).deviceType
        split
        · exact htype
        · exact htype

theorem filter_follows {libpcap : FilterOracle} {msg text : CStr}
    (hd : SameDevice i p.devices others)
    (h : configurationSetFilter libpcap msg p = .ok (p', text)) :
    ∃ others', configurationSetFilter libpcap msg (withDevices p others)
        = .ok (withDevices p' others', text) ∧ SameDevice i p'.devices others' := by
  obtain ⟨handles, hset, rfl, rfl⟩ := configurationSetFilter_eq_ok h
  have hset' : setFilters libpcap msg (withDevices p others).interfaces
      (withDevices p others).handles = .ok handles := hset
  refine ⟨others, ?_, hd⟩
  rw [configurationSetFilter, setAllFilter, hset']
  rfl

theorem ratio_follows {msg text : CStr} (hd : SameDevice i p.devices others)
    (h : configurationSetRatio msg p = .ok (p', text)) :
    ∃ others', configurationSetRatio msg (withDevices p others)
        = .ok (withDevices p' others', text) ∧ SameDevice i p'.devices others' := by
  rw [configurationSetRatio] at h
  split at h
  · cases h
  · rename_i options hset
    obtain ⟨rfl, rfl⟩ := Prod.mk.inj (Except.ok.inj h)
    refine ⟨others, ?_, hd⟩
    have hoptions : (withDevices p others).options = p.options := rfl
    rw [configurationSetRatio]
    split
    · rename_i hnone
      rw [hoptions, hset] at hnone
      cases hnone
    · rename_i options' hset'
      rw [hoptions, hset] at hset'
      obtain rfl := Option.some.inj hset'
      rfl

/-- **COMMANDS** — none of them does, or replies, anything else on account of the
    other devices. -/
theorem call_follows [Libev] {libpcap : FilterOracle} {cmd : Command} {msg text : CStr}
    (hd : SameDevice i p.devices others) (h : cmd.call libpcap msg p = .ok (p', text)) :
    ∃ others', cmd.call libpcap msg (withDevices p others) = .ok (withDevices p' others', text) ∧
      SameDevice i p'.devices others' := by
  have total : ∀ call : Probe → Probe × CStr,
      (∃ others', call (withDevices p others) = (withDevices p' others', text) ∧
        SameDevice i p'.devices others') →
      ∃ others', Except.ok (ε := Undefined) (call (withDevices p others))
          = .ok (withDevices p' others', text) ∧ SameDevice i p'.devices others' := by
    rintro call ⟨others', hcall, hd'⟩
    exact ⟨others', congrArg Except.ok hcall, hd'⟩
  cases cmd with
  | r => exact ratio_follows hd h
  | f => exact filter_follows hd h
  | m => exact total _ ((minSelection_oblivious msg).follows hd (Except.ok.inj h))
  | M => exact total _ ((maxSelection_oblivious msg).follows hd (Except.ok.inj h))
  | t => exact total _ (template_follows hd (Except.ok.inj h))
  | I => exact total _ ((pktid_oblivious msg).follows hd (Except.ok.inj h))
  | J => exact total _ ((probestats_oblivious msg).follows hd (Except.ok.inj h))
  | K => exact total _ ((ifstats_oblivious msg).follows hd (Except.ok.inj h))

/-! ## Runs -/

theorem step_follows [Libev] {e : EventLoop.Event} {q : Probe} {out : List EventLoop.Output}
    (he : seen i e = true) (hq : SeenFrom i p q) (h : EventLoop.step p e = .ok (p', out)) :
    ∃ q' out', EventLoop.step q e = .ok (q', out') ∧ SeenFrom i p' q' ∧
      out'.filter (visible i) = out.filter (visible i) := by
  obtain ⟨others, rfl, hd⟩ := hq
  cases e with
  | packet j ts caplen frame =>
      obtain rfl : j = i := eq_of_beq he
      obtain ⟨others', h', hd'⟩ := packet_follows hd h
      exact ⟨_, out, h', ⟨others', rfl, hd'⟩, rfl⟩
  | timer timer t =>
      obtain ⟨others', out', h', hd', hview⟩ := timer_follows hd h
      exact ⟨_, out', h', ⟨others', rfl, hd'⟩, hview⟩
  | userInput libpcap cmd msg =>
      rw [EventLoop.step] at h
      split at h
      · cases h
      · rename_i q message hcall
        obtain ⟨rfl, rfl⟩ := Prod.mk.inj (Except.ok.inj h)
        obtain ⟨others', h', hd'⟩ := call_follows hd hcall
        refine ⟨_, [.reply message], ?_, ⟨others', rfl, hd'⟩, rfl⟩
        rw [EventLoop.step, h']
  | message libpcap cmd msg accepted =>
      rw [EventLoop.step] at h
      split at h
      · cases h
      · rename_i q message hcall
        obtain ⟨rfl, rfl⟩ := Prod.mk.inj (Except.ok.inj h)
        obtain ⟨others', h', hd'⟩ := call_follows hd hcall
        refine ⟨_, exportDataSync q accepted message, ?_, ⟨others', rfl, hd'⟩, rfl⟩
        rw [EventLoop.step, h']
        rfl

/-- **ISOLATION** — with the packets of all other devices struck from a run the
    device `i` ends in the same state, and so do the options, the filters and the
    timers; and the records, the decisions and the statistics of `i`, the replies
    and the reports of the timers come out the same, in the same order. -/
theorem device_isolation [Libev] (i : Fin maxInterfaces) {es : List EventLoop.Event}
    {out : List EventLoop.Output} (h : run probe p es = some (p', out)) :
    ∃ others out', run probe p (es.filter (seen i)) = some (withDevices p' others, out') ∧
      others i = p'.devices i ∧ out'.filter (visible i) = out.filter (visible i) := by
  have hstart : SeenFrom i p p := ⟨p.devices, rfl, rfl, fun _ => rfl⟩
  have unseen : ∀ s e t out u, seen i e = false → SeenFrom i s u → probe s e = some (t, out) →
      SeenFrom i t u ∧ out.filter (visible i) = [] := by
    intro s e t out u he hR hstep
    exact step_unseen he hR (probe_eq_some.mp hstep)
  have follows : ∀ s e t out u, seen i e = true → SeenFrom i s u → probe s e = some (t, out) →
      ∃ u' out', probe u e = some (u', out') ∧ SeenFrom i t u' ∧
        out'.filter (visible i) = out.filter (visible i) := by
    intro s e t out u he hR hstep
    obtain ⟨u', out', h', hR', hview⟩ := step_follows he hR (probe_eq_some.mp hstep)
    exact ⟨u', out', probe_eq_some.mpr h', hR', hview⟩
  obtain ⟨q', out', hrun, ⟨others, rfl, hd⟩, hview⟩ := run_purge unseen follows hstart h
  exact ⟨others, out', hrun, hd.device, hview⟩

open scoped Libev.Repeating

/-- A probe on two sockets. -/
def twoSockets : Config :=
  (parseCmdlineV2 (defaults fun _ => 0x20000000) [.i (str "u:x"), .i (str "u:y")]).getD
    (defaults fun _ => 0)

def twoSocketProbe : Probe := startUp (fun _ => ⟨.raw, ⟨0, 0, 0, 0⟩, none, 3⟩) 0 twoSockets

/-- A UDP datagram on one of them. -/
def udpOn (j : Fin maxInterfaces) : EventLoop.Event :=
  .packet j ⟨1, 0⟩ 28 (ofList Datagrams.udpDatagram.bytes)

/-- A datagram on both, and what the first one shows for its own. -/
theorem device_isolation_two : ∃ p' out others out',
    run probe twoSocketProbe [udpOn 1, udpOn 0] = some (p', out) ∧
      run probe twoSocketProbe [udpOn 0] = some (withDevices p' others, out') ∧
      others 0 = p'.devices 0 ∧ out'.filter (visible 0) = out.filter (visible 0) := by
  obtain ⟨r, hr⟩ : ∃ r, Arrival.handle
      ⟨twoSocketProbe.options, ⟨1, 0⟩, 28, ofList Datagrams.udpDatagram.bytes⟩
      (twoSocketProbe.devices 1) = .ok r :=
    ⟨_, (@handlePacket_ip _ _ _ _ _ 0x0800 rfl rfl).trans rfl⟩
  obtain ⟨s, hs⟩ : ∃ s, Arrival.handle
      ⟨twoSocketProbe.options, ⟨1, 0⟩, 28, ofList Datagrams.udpDatagram.bytes⟩
      (twoSocketProbe.devices 0) = .ok s :=
    ⟨_, (@handlePacket_ip _ _ _ _ _ 0x0800 rfl rfl).trans rfl⟩
  have hfirst := probe_eq_some.mpr (step_packet (i := 1) (by decide) hr)
  have hopen : (0 : Fin maxInterfaces).val < twoSocketProbe.options.numberInterfaces := by decide
  have hsecond := probe_eq_some.mpr (step_packet (i := 0)
    (p := withDevices twoSocketProbe (Function.update twoSocketProbe.devices 1 r.device)) hopen hs)
  have hrun : run probe twoSocketProbe [udpOn 1, udpOn 0] = some (_, _) :=
    run_cons_eq_some.mpr ⟨_, _, _, hfirst,
      run_cons_eq_some.mpr ⟨_, _, [], hsecond, rfl, rfl⟩, rfl⟩
  obtain ⟨others, out', h⟩ := device_isolation 0 hrun
  exact ⟨_, _, others, out', hrun, h⟩

end Impd4e.DeviceIsolation
