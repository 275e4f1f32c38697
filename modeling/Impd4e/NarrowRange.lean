import Impd4e.DeviceIsolation
import Impd4e.IntervalReconfig
import Impd4e.Lib.Simulation
import Impd4e.PathAgreement

/-! # A part of the selection range

    A probe on a part of another one's selection range, with everything else the
    same, exports a part of what the other one exports: the records whose digests
    are in its range, in the same order, whatever packets arrive, timers are due
    and commands come.  So probes whose ranges adjoin share the work. -/

namespace Impd4e.NarrowRange

open ReadProg Machine Impd4e.CString Impd4e.CmdLine Impd4e.ConfigHandler Impd4e.PacketHandler
  Impd4e.Traffic Impd4e.PacketId Impd4e.EventLoop
open Impd4e.ExportHandler (maxInterfaces Devices Tick)
open Impd4e.IntervalReconfig (SameConfig handle_transfer handle_config timerOf_setTimer_self
  timerOf_setTimer_of_ne)
open Impd4e.PathAgreement (packetDecision_setup)

/-! ## One packet -/

/-- The options with another selection range. -/
def withRange (lo hi : UInt32) (o : Options) : Options :=
  { o with selRangeMin := lo, selRangeMax := hi }

/-- The decision of the wider range as the narrower one takes it. -/
def narrow (lo hi : UInt32) : Decision → Decision
  | .unsupported => .unsupported
  | .noSelection => .noSelection
  | .dropped hashId => .dropped hashId
  | .selected hashId => if lo ≤ hashId ∧ hashId ≤ hi then .selected hashId else .dropped hashId

/-- The digest of the record is in the range. -/
def inRange (lo hi : UInt32) (record : Record) : Bool :=
  match digestField record with
  | some (.num n, _) => decide (lo.toNat ≤ n ∧ n ≤ hi.toNat)
  | _ => false

section Packet

variable {m : Nat → Option UInt8} {o : Options} {ts : Timeval} {d d' : DeviceDev}
  {lo hi : UInt32} {r : Handled}

theorem rangeTest_narrow (hlo : o.selRangeMin ≤ lo) (hhi : hi ≤ o.selRangeMax)
    (contents : List UInt8) :
    rangeTest (withRange lo hi o) contents = narrow lo hi (rangeTest o contents) := by
  rw [rangeTest, rangeTest]
  by_cases hempty : contents.length = 0
  · rw [if_pos hempty, if_pos hempty]
    rfl
  · rw [if_neg hempty, if_neg hempty]
    show (if lo ≤ o.hashFunction contents ∧ o.hashFunction contents ≤ hi then _ else _) =
      narrow lo hi (if o.selRangeMin ≤ o.hashFunction contents ∧
        o.hashFunction contents ≤ o.selRangeMax then _ else _)
    by_cases hwide : o.selRangeMin ≤ o.hashFunction contents ∧
        o.hashFunction contents ≤ o.selRangeMax
    · rw [if_pos hwide]
      rfl
    · have hnarrow : ¬ (lo ≤ o.hashFunction contents ∧ o.hashFunction contents ≤ hi) :=
        fun h => hwide ⟨UInt32.le_trans hlo h.1, UInt32.le_trans h.2 hhi⟩
      rw [if_neg hwide, if_neg hnarrow]
      rfl

theorem selectPacket_narrow {b : Buffer} {len : Nat} {s : Selection}
    (hlo : o.selRangeMin ≤ lo) (hhi : hi ≤ o.selRangeMax)
    (h : run m (selectPacket o b len) = .ok s) :
    run m (selectPacket (withRange lo hi o) b len)
      = .ok { s with decision := narrow lo hi s.decision } := by
  obtain ⟨⟨buffer, offsets, layers⟩, hsel, hret⟩ := (run_bind_eq_ok m).mp h
  obtain rfl := Except.ok.inj hret
  have hsel' : run m (selectFields (withRange lo hi o) b len) = .ok (buffer, offsets, layers) :=
    hsel
  refine (run_bind_ok m hsel' _).trans ?_
  show Except.ok (Selection.mk buffer offsets layers (rangeTest (withRange lo hi o) _)) = _
  rw [rangeTest_narrow hlo hhi]

/-- The record of a selected packet is in the range where its hash is. -/
theorem inRange_of_selected {hashId : UInt32} {offsets : HeaderOffset} {layers : Layers}
    (h : run m (handleSelected o ts d hashId offsets layers) = .ok r) :
    r.decision = .selected hashId ∧
      ∀ record, r.exported = some record →
        inRange lo hi record = decide (lo ≤ hashId ∧ hashId ≤ hi) := by
  rcases handleSelected_cases h with rfl | ⟨fields, hfields, rfl⟩
  · exact ⟨rfl, fun record hrecord => by cases hrecord⟩
  · refine ⟨?_, fun record hrecord => ?_⟩
    · exact exportRecord_decision ..
    · rw [exportRecord_exported] at hrecord
      obtain rfl := Option.some.inj hrecord
      rw [inRange, digestField_of_fillFields hfields]
      rfl

/-- All of it is kept, or nothing. -/
theorem filter_exported {keep : Record → Bool} {exported : Option Record} {b : Bool}
    (h : ∀ record, exported = some record → keep record = b) :
    exported.filter keep = if b then exported else none := by
  cases exported with
  | none => cases b <;> rfl
  | some record =>
      rw [Option.filter_some, h record rfl]

/-- **THE IP STAGE** on a part of the range. -/
theorem handleIpPacket_narrow {len : Nat} (hlo : o.selRangeMin ≤ lo) (hhi : hi ≤ o.selRangeMax)
    (h : run m (handleIpPacket o ts d len) = .ok r) :
    ∃ r', run m (handleIpPacket (withRange lo hi o) ts d len) = .ok r' ∧
      r'.decision = narrow lo hi r.decision ∧ r'.exported = r.exported.filter (inRange lo hi) := by
  obtain ⟨s, hs, hcases⟩ := handleIpPacket_cases h
  have hs' := selectPacket_narrow hlo hhi hs
  have hrun : run m (handleIpPacket (withRange lo hi o) ts d len) = run m _ :=
    run_bind_ok m hs' _
  obtain ⟨hd, rfl⟩ | ⟨hashId, hd, rfl⟩ | ⟨hashId, hd, hr⟩ := hcases
  · simp only [hd, narrow] at hrun
    exact ⟨_, hrun, rfl, rfl⟩
  · simp only [hd, narrow] at hrun
    exact ⟨_, hrun, rfl, rfl⟩
  · obtain ⟨hdec, hin⟩ := @inRange_of_selected _ _ _ _ lo hi _ _ _ _ hr
    rw [hdec, filter_exported hin]
    by_cases hrange : lo ≤ hashId ∧ hashId ≤ hi
    · simp only [hd, narrow, if_pos hrange] at hrun
      refine ⟨r, hrun.trans hr, ?_, ?_⟩
      · rw [hdec, narrow, if_pos hrange]
      · rw [decide_eq_true hrange]
        rfl
    · simp only [hd, narrow, if_neg hrange] at hrun
      refine ⟨_, hrun, ?_, ?_⟩
      · rw [narrow, if_neg hrange]
      · rw [decide_eq_false hrange]
        rfl

/-- **ONE PACKET** on a part of the range, on a device of the same setup. -/
theorem handle_narrow {caplen : Nat} (hlo : o.selRangeMin ≤ lo) (hhi : hi ≤ o.selRangeMax)
    (hd : SameConfig d d') (h : Arrival.handle ⟨o, ts, caplen, m⟩ d = .ok r) :
    ∃ r', Arrival.handle ⟨withRange lo hi o, ts, caplen, m⟩ d' = .ok r' ∧
      r'.decision = narrow lo hi r.decision ∧ r'.exported = r.exported.filter (inRange lo hi) := by
  -- first the other device, with the range as it is
  obtain ⟨r₁, hr₁, hexp⟩ := handle_transfer hd h
  have hdec : r₁.decision = r.decision := by
    have hdecision := handlePacket_decision h
    rw [← packetDecision_setup hd.setup ⟨o, ts, caplen, m⟩, handlePacket_decision hr₁] at hdecision
    exact Except.ok.inj hdecision
  rw [← hdec, ← hexp]
  obtain ⟨nt, hnt, ⟨hip, rfl⟩ | ⟨hip, hr⟩⟩ := handlePacket_cases hr₁
  · exact ⟨_, handlePacket_other hnt hip, rfl, rfl⟩
  · obtain ⟨r', hr', hdec', hexp'⟩ := handleIpPacket_narrow hlo hhi hr
    exact ⟨r', (handlePacket_ip hnt hip).trans hr', hdec', hexp'⟩

end Packet

/-! ## Two probes -/

/-- What does not depend on how many packets were selected before: all but the
    flushes, and of a sampling report all but the count of the selected packets. -/
def kept : EventLoop.Output → Option EventLoop.Output
  | .exported (.interfaceStats i stats) =>
      some (.exported (.interfaceStats i { stats with size := 0 }))
  | .exported .exportFlush => none
  | output => some output

/-- An output of the wider range as the narrower one has it. -/
def narrowOutput (lo hi : UInt32) : EventLoop.Output → Option EventLoop.Output
  | .exported (.decided i decision) => some (.exported (.decided i (narrow lo hi decision)))
  | .exported (.record i record) =>
      if inRange lo hi record then some (.exported (.record i record)) else none
  | output => some output

/-- Both in one. -/
def shown (lo hi : UInt32) (output : EventLoop.Output) : Option EventLoop.Output :=
  (kept output).bind (narrowOutput lo hi)

/-- Two devices with the same configuration and the same name that have got as
    many packets since their last reports, whatever they have selected of them. -/
structure SameArrivals (d d' : DeviceDev) : Prop where
  config : SameConfig d d'
  deviceName : d'.deviceName = d.deviceName
  ipv4Address : d'.ipv4Address = d.ipv4Address
  samplingDeltaCount : d'.samplingDeltaCount = d.samplingDeltaCount

/-- The probe `q` is on a part of the range of `p`; otherwise the two differ in
    what they have counted of the selected packets. -/
structure Narrower (lo hi : UInt32) (p q : Probe) : Prop where
  options : q.options = withRange lo hi p.options
  lower : p.options.selRangeMin ≤ lo
  upper : hi ≤ p.options.selRangeMax
  devices : ∀ i, SameArrivals (p.devices i) (q.devices i)
  handles : q.handles = p.handles
  timers : ∀ timer, timerOf q timer = timerOf p timer

section Probes

variable {lo hi : UInt32} {p p' q : Probe} {out : List EventLoop.Output}

theorem Narrower.numberInterfaces (h : Narrower lo hi p q) :
    q.options.numberInterfaces = p.options.numberInterfaces := by
  rw [h.options]
  rfl

theorem Narrower.interfaces (h : Narrower lo hi p q) : q.interfaces = p.interfaces := by
  rw [Probe.interfaces, Probe.interfaces, h.numberInterfaces]

/-! ### Packets -/

theorem filterMap_received (view : EventLoop.Output → Option EventLoop.Output)
    (hflush : view (.exported .exportFlush) = none) (i : Fin maxInterfaces) (r : Handled) :
    ((received i r).map Output.exported).filterMap view =
      (view (.exported (.decided i r.decision))).toList ++
        r.exported.toList.filterMap fun record => view (.exported (.record i record)) := by
  have hrest : ((if r.flushed then [ExportHandler.Output.exportFlush] else []).map
      Output.exported).filterMap view = [] := by
    cases r.flushed with
    | false => rfl
    | true => exact List.filterMap_cons_none hflush
  rw [received, List.map_append, List.filterMap_append, hrest, List.append_nil, List.map_cons,
    List.filterMap_cons, List.map_map, List.filterMap_map]
  cases view (.exported (.decided i r.decision)) with
  | none => rfl
  | some output => rfl

theorem received_narrow {i : Fin maxInterfaces} {r r' : Handled}
    (hdec : r'.decision = narrow lo hi r.decision)
    (hexp : r'.exported = r.exported.filter (inRange lo hi)) :
    ((received i r').map Output.exported).filterMap kept =
      ((received i r).map Output.exported).filterMap (shown lo hi) := by
  rw [filterMap_received kept rfl, filterMap_received (shown lo hi) rfl, hdec, hexp]
  refine congrArg (List.cons _) ?_
  cases r.exported with
  | none => rfl
  | some record =>
      rw [Option.filter_some]
      show _ = [record].filterMap fun record => narrowOutput lo hi (.exported (.record i record))
      rw [List.filterMap_cons, narrowOutput]
      split
      · rfl
      · rfl

/-- No packet changes the name of a device. -/
theorem handle_name {a : Arrival} {d : DeviceDev} {r : Handled} (h : a.handle d = .ok r) :
    r.device.deviceName = d.deviceName ∧ r.device.ipv4Address = d.ipv4Address := by
  obtain ⟨buffer, count, total, dropped, size, delta, -, hdevice⟩ := handlePacket_frame h
  rw [hdevice]
  exact ⟨rfl, rfl⟩

/-- A packet on both sides. -/
theorem SameArrivals.handle {d d' : DeviceDev} {a a' : Arrival} {r r' : Handled}
    (hd : SameArrivals d d') (h : a.handle d = .ok r) (h' : a'.handle d' = .ok r') :
    SameArrivals r.device r'.device := by
  obtain ⟨hname, haddress⟩ := handle_name h
  obtain ⟨hname', haddress'⟩ := handle_name h'
  obtain ⟨-, hdelta, -⟩ := handlePacket_counters h
  obtain ⟨-, hdelta', -⟩ := handlePacket_counters h'
  refine ⟨((handle_config h).symm.trans hd.config).trans (handle_config h'), ?_, ?_, ?_⟩
  · rw [hname', hname, hd.deviceName]
  · rw [haddress', haddress, hd.ipv4Address]
  · rw [hdelta', hdelta, hd.samplingDeltaCount]

theorem packet_follows [Libev] {i : Fin maxInterfaces} {ts : Timeval} {caplen : Nat}
    {frame : Nat → Option UInt8} (hq : Narrower lo hi p q)
    (h : EventLoop.step p (.packet i ts caplen frame) = .ok (p', out)) :
    ∃ q' out', EventLoop.step q (.packet i ts caplen frame) = .ok (q', out') ∧
      Narrower lo hi p' q' ∧ out'.filterMap kept = out.filterMap (shown lo hi) := by
  by_cases hi' : i.val < p.options.numberInterfaces
  · obtain ⟨r, hr, rfl, rfl⟩ := step_packet_ok hi' h
    obtain ⟨r', hr', hdec, hexp⟩ := handle_narrow hq.lower hq.upper (hq.devices i).config hr
    rw [← hq.options] at hr'
    refine ⟨_, _, step_packet (hq.numberInterfaces ▸ hi') hr', ?_, received_narrow hdec hexp⟩
    refine ⟨hq.options, hq.lower, hq.upper, fun j => ?_, hq.handles, hq.timers⟩
    show SameArrivals (Function.update p.devices i r.device j)
      (Function.update q.devices i r'.device j)
    by_cases hji : j = i
    · rw [hji, Function.update_self, Function.update_self]
      exact (hq.devices i).handle hr hr'
    · rw [Function.update_of_ne hji, Function.update_of_ne hji]
      exact hq.devices j
  · rw [EventLoop.step, if_neg hi'] at h
    obtain ⟨rfl, rfl⟩ := Prod.mk.inj (Except.ok.inj h)
    refine ⟨q, [], ?_, hq, rfl⟩
    rw [EventLoop.step, if_neg (hq.numberInterfaces ▸ hi')]

/-! ### Timers -/

/-- A report of a device on both sides. -/
theorem exportDataInterfaceStats_follows {dev dev' : DeviceDev} {time : Nat}
    {pcapStat : ExportHandler.PcapStat} {accepted : Bool} {i : Fin maxInterfaces}
    (hd : SameArrivals dev dev') :
    SameArrivals
        (ExportHandler.exportDataInterfaceStats dev time dev.samplingSize
          dev.samplingDeltaCount pcapStat accepted).1
        (ExportHandler.exportDataInterfaceStats dev' time dev'.samplingSize
          dev'.samplingDeltaCount pcapStat accepted).1 ∧
      ((ExportHandler.exportDataInterfaceStats dev' time dev'.samplingSize
          dev'.samplingDeltaCount pcapStat accepted).2.toList.map
            (ExportHandler.Output.interfaceStats i)).filterMap (fun o => kept (.exported o)) =
        ((ExportHandler.exportDataInterfaceStats dev time dev.samplingSize
          dev.samplingDeltaCount pcapStat accepted).2.toList.map
            (ExportHandler.Output.interfaceStats i)).filterMap
              fun o => shown lo hi (.exported o) := by
  cases accepted with
  | false => exact ⟨hd, rfl⟩
  | true =>
      have hsetup := hd.config.setup
      refine ⟨⟨⟨⟨hsetup.deviceType, hsetup.linkType, hsetup.pktOffset, hsetup.size⟩,
        hd.config.templateId⟩, hd.deviceName, hd.ipv4Address, rfl⟩, ?_⟩
      rw [ExportHandler.exportDataInterfaceStats, ExportHandler.exportDataInterfaceStats,
        hsetup.deviceType, hd.deviceName, hd.ipv4Address, hd.samplingDeltaCount]
      rfl

theorem samplingRound_follows {t : Tick} {j : Nat} {devices devices' others : Devices}
    {out : List ExportHandler.Output} (hd : ∀ i, SameArrivals (devices i) (others i))
    (h : ExportHandler.samplingRound t devices j = some (devices', out)) :
    ∃ others' out', ExportHandler.samplingRound t others j = some (others', out') ∧
      (∀ i, SameArrivals (devices' i) (others' i)) ∧
      out'.filterMap (fun o => kept (.exported o)) =
        out.filterMap fun o => shown lo hi (.exported o) := by
  rw [ExportHandler.samplingRound] at h
  by_cases hj : j < maxInterfaces
  · rw [dif_pos hj] at h
    obtain ⟨rfl, rfl⟩ := Prod.mk.inj (Option.some.inj h)
    obtain ⟨hdevice, hview⟩ := exportDataInterfaceStats_follows (hd ⟨j, hj⟩)
    refine ⟨_, _, dif_pos hj, fun i => ?_, hview⟩
    by_cases hij : i = ⟨j, hj⟩
    · rw [hij, Function.update_self, Function.update_self]
      exact hdevice
    · rw [Function.update_of_ne hij, Function.update_of_ne hij]
      exact hd i
  · rw [dif_neg hj] at h
    cases h

/-- The sampling timer reports the same of both, but for the selected packets. -/
theorem exportTimerSamplingCb_follows {n : Nat} {t : Tick} {devices devices' others : Devices}
    {out : List ExportHandler.Output} (hd : ∀ i, SameArrivals (devices i) (others i))
    (h : ExportHandler.exportTimerSamplingCb n t devices = some (devices', out)) :
    ∃ others' out', ExportHandler.exportTimerSamplingCb n t others = some (others', out') ∧
      (∀ i, SameArrivals (devices' i) (others' i)) ∧
      (out'.map Output.exported).filterMap kept =
        (out.map Output.exported).filterMap (shown lo hi) := by
  obtain ⟨reported, hrun, rfl⟩ := ExportHandler.exportTimerSamplingCb_eq_some h
  obtain ⟨others', reported', hrun', hd', hview⟩ :=
    @run_lockstep _ _ _ _ _ _ (ExportHandler.samplingRound t) (ExportHandler.samplingRound t)
      (fun d d' : Devices => ∀ i, SameArrivals (d i) (d' i)) (fun _ => True)
      (fun o => shown lo hi (.exported o)) (fun o => kept (.exported o))
      (fun _ _ _ _ _ _ hd hround => samplingRound_follows hd hround) _ _ _ _ _
      (fun _ _ => trivial) hd hrun
  refine ⟨others', reported' ++ [.exportFlush], ?_, hd', ?_⟩
  · rw [ExportHandler.exportTimerSamplingCb, hrun']
  · rw [List.filterMap_map, List.filterMap_map, List.filterMap_append, List.filterMap_append]
    exact congrArg₂ (· ++ ·) hview rfl

theorem exportTimerCb_follows {t : Tick} {timer : Timer} (hq : Narrower lo hi p q)
    (h : exportTimerCb t p timer = .ok (p', out)) :
    ∃ q' out', exportTimerCb t q timer = .ok (q', out') ∧ Narrower lo hi p' q' ∧
      out'.filterMap kept = out.filterMap (shown lo hi) := by
  cases timer with
  | pkid =>
      obtain ⟨rfl, rfl⟩ := Prod.mk.inj (Except.ok.inj h)
      exact ⟨q, _, rfl, hq, rfl⟩
  | stats =>
      obtain ⟨rfl, rfl⟩ := Prod.mk.inj (Except.ok.inj h)
      refine ⟨q, _, rfl, hq, ?_⟩
      cases t.accepted 0 with
      | false => rfl
      | true => rfl
  | location =>
      obtain ⟨rfl, rfl⟩ := Prod.mk.inj (Except.ok.inj h)
      refine ⟨q, _, rfl, hq, ?_⟩
      cases t.accepted 0 with
      | false => rfl
      | true => rfl
  | sampling =>
      obtain ⟨devices', out', hcb, rfl, rfl⟩ := exportTimerCb_sampling h
      have hhandles : pcapStatsHandles q q.interfaces = .ok () := by
        rw [hq.interfaces, DeviceIsolation.pcapStatsHandles_eq hq.handles
          fun j => (hq.devices j).config.setup.deviceType]
        rw [exportTimerCb] at h
        split at h
        · cases h
        · rename_i hlook
          exact hlook
      obtain ⟨others, out'', hcb', hd, hview⟩ := exportTimerSamplingCb_follows hq.devices hcb
      rw [← hq.numberInterfaces] at hcb'
      refine ⟨{ q with devices := others }, _, ?_,
        ⟨hq.options, hq.lower, hq.upper, hd, hq.handles, hq.timers⟩, hview⟩
      rw [exportTimerCb, hhandles, hcb']

theorem Narrower.setTimer (hq : Narrower lo hi p q) (again : EvTimer) (timer : Timer) :
    Narrower lo hi (setTimer p again timer) (setTimer q again timer) := by
  obtain ⟨hoptions, hhandles, hdevices⟩ := setTimer_frame p again timer
  obtain ⟨hoptions', hhandles', hdevices'⟩ := setTimer_frame q again timer
  refine ⟨?_, ?_, ?_, fun i => ?_, ?_, fun timer' => ?_⟩
  · rw [hoptions', hoptions, hq.options]
  · rw [hoptions]
    exact hq.lower
  · rw [hoptions]
    exact hq.upper
  · rw [hdevices', hdevices]
    exact hq.devices i
  · rw [hhandles', hhandles, hq.handles]
  · by_cases heq : timer' = timer
    · rw [heq, timerOf_setTimer_self, timerOf_setTimer_self]
    · rw [timerOf_setTimer_of_ne _ _ heq, timerOf_setTimer_of_ne _ _ heq, hq.timers]

theorem timer_follows [Libev] {t : Tick} {timer : Timer} (hq : Narrower lo hi p q)
    (h : EventLoop.step p (.timer timer t) = .ok (p', out)) :
    ∃ q' out', EventLoop.step q (.timer timer t) = .ok (q', out') ∧ Narrower lo hi p' q' ∧
      out'.filterMap kept = out.filterMap (shown lo hi) := by
  cases hactive : (timerOf p timer).active with
  | false =>
      obtain ⟨rfl, rfl⟩ := step_timer_idle hactive h
      refine ⟨q, [], ?_, hq, rfl⟩
      rw [EventLoop.step, hq.timers, Libev.fire_inactive _ hactive]
  | true =>
      obtain ⟨-, again, out', hfire, hcb, rfl⟩ := step_timer_due hactive h
      obtain ⟨q', out'', hcb', hq', hview⟩ :=
        exportTimerCb_follows (hq.setTimer again timer) hcb
      refine ⟨q', .timer timer again.period :: out'', ?_, hq', congrArg (List.cons _) hview⟩
      rw [EventLoop.step, hq.timers, hfire]
      dsimp only
      rw [hcb']

/-! ### Commands -/

/-- The commands that set an end of the selection range. -/
def setsRange : Command → Bool
  | .r => true
  | .m => true
  | .M => true
  | _ => false

variable {libpcap : FilterOracle} {msg text : CStr}

/-- An interval command sets its timer on both sides, or on neither. -/
theorem interval_follows {timer : Option EvTimer} {which : Timer} {changed unchanged : CStr}
    (hq : Narrower lo hi p q)
    (h : (match timer with
      | some t => (setTimer p t which, changed)
      | none => (p, unchanged)) = (p', text)) :
    ∃ q', (match timer with
      | some t => (setTimer q t which, changed)
      | none => (q, unchanged)) = (q', text) ∧ Narrower lo hi p' q' := by
  cases timer with
  | none =>
      obtain ⟨rfl, rfl⟩ := Prod.mk.inj h
      exact ⟨q, rfl, hq⟩
  | some t =>
      obtain ⟨rfl, rfl⟩ := Prod.mk.inj h
      exact ⟨_, rfl, hq.setTimer t which⟩

theorem pktid_follows [Libev] (hq : Narrower lo hi p q)
    (h : configurationSetExportToPktid msg p = (p', text)) :
    ∃ q', configurationSetExportToPktid msg q = (q', text) ∧ Narrower lo hi p' q' := by
  have htimer : q.exportTimerPkid = p.exportTimerPkid := hq.timers .pkid
  unfold configurationSetExportToPktid at h ⊢
  rw [htimer]
  exact @interval_follows _ _ _ _ _ _ _ .pkid _ _ hq h

theorem probestats_follows [Libev] (hq : Narrower lo hi p q)
    (h : configurationSetExportToProbestats msg p = (p', text)) :
    ∃ q', configurationSetExportToProbestats msg q = (q', text) ∧ Narrower lo hi p' q' := by
  have htimer : q.exportTimerStats = p.exportTimerStats := hq.timers .stats
  unfold configurationSetExportToProbestats at h ⊢
  rw [htimer]
  exact @interval_follows _ _ _ _ _ _ _ .stats _ _ hq h

theorem ifstats_follows [Libev] (hq : Narrower lo hi p q)
    (h : configurationSetExportToIfstats msg p = (p', text)) :
    ∃ q', configurationSetExportToIfstats msg q = (q', text) ∧ Narrower lo hi p' q' := by
  have htimer : q.exportTimerSampling = p.exportTimerSampling := hq.timers .sampling
  unfold configurationSetExportToIfstats at h ⊢
  rw [htimer]
  exact @interval_follows _ _ _ _ _ _ _ .sampling _ _ hq h

theorem filter_follows (hq : Narrower lo hi p q)
    (h : configurationSetFilter libpcap msg p = .ok (p', text)) :
    ∃ q', configurationSetFilter libpcap msg q = .ok (q', text) ∧ Narrower lo hi p' q' := by
  obtain ⟨handles, hset, rfl, rfl⟩ := configurationSetFilter_eq_ok h
  have hset' : setFilters libpcap msg q.interfaces q.handles = .ok handles := by
    rw [hq.interfaces, hq.handles]
    exact hset
  refine ⟨{ q with handles := handles }, ?_,
    hq.options, hq.lower, hq.upper, hq.devices, rfl, hq.timers⟩
  rw [configurationSetFilter, setAllFilter, hset']
  rfl

theorem template_follows (hq : Narrower lo hi p q)
    (h : configurationSetTemplate msg p = (p', text)) :
    ∃ q', configurationSetTemplate msg q = (q', text) ∧ Narrower lo hi p' q' := by
  unfold configurationSetTemplate at h ⊢
  cases hparse : parseTemplate msg with
  | none =>
      rw [hparse] at h
      obtain ⟨rfl, rfl⟩ := Prod.mk.inj h
      exact ⟨q, rfl, hq⟩
  | some tId =>
      rw [hparse] at h
      obtain ⟨rfl, rfl⟩ := Prod.mk.inj h
      refine ⟨_, rfl, ?_, hq.lower, hq.upper, fun i => ?_, hq.handles, hq.timers⟩
      · show { q.options with templateID := tId } = withRange lo hi _
        rw [hq.options]
        rfl
      · show SameArrivals (if _ then _ else _)
          (if i.val < q.options.numberInterfaces then _ else _)
        rw [hq.numberInterfaces]
        split
        · have hsetup := (hq.devices i).config.setup
          exact ⟨⟨⟨hsetup.deviceType, hsetup.linkType, hsetup.pktOffset, hsetup.size⟩, rfl⟩,
            (hq.devices i).deviceName, (hq.devices i).ipv4Address,
            (hq.devices i).samplingDeltaCount⟩
        · exact hq.devices i

theorem call_follows [Libev] {cmd : Command} (hcmd : setsRange cmd = false)
    (hq : Narrower lo hi p q) (h : cmd.call libpcap msg p = .ok (p', text)) :
    ∃ q', cmd.call libpcap msg q = .ok (q', text) ∧ Narrower lo hi p' q' := by
  have total : ∀ call : Probe → Probe × CStr,
      (∃ q', call q = (q', text) ∧ Narrower lo hi p' q') →
      ∃ q', Except.ok (ε := Undefined) (call q) = .ok (q', text) ∧ Narrower lo hi p' q' := by
    rintro call ⟨q', hcall, hq'⟩
    exact ⟨q', congrArg Except.ok hcall, hq'⟩
  cases cmd with
  | r => cases hcmd
  | m => cases hcmd
  | M => cases hcmd
  | f => exact filter_follows hq h
  | t => exact total _ (template_follows hq (Except.ok.inj h))
  | I => exact total _ (pktid_follows hq (Except.ok.inj h))
  | J => exact total _ (probestats_follows hq (Except.ok.inj h))
  | K => exact total _ (ifstats_follows hq (Except.ok.inj h))

/-! ### Runs -/

/-- All events but the commands that set the range. -/
def KeepsRange : EventLoop.Event → Prop
  | .userInput _ cmd _ => setsRange cmd = false
  | .message _ cmd _ _ => setsRange cmd = false
  | _ => True

theorem exportDataSync_shown (p : Probe) (accepted : Nat → Bool) (message : CStr) :
    (exportDataSync p accepted message).filterMap (shown lo hi) =
      (exportDataSync p accepted message).filterMap kept := by
  refine List.filterMap_congr fun o ho => ?_
  obtain ⟨i, -, hmem⟩ := List.mem_flatMap.mp ho
  split at hmem
  · rcases List.mem_pair.mp hmem with rfl | rfl
    · rfl
    · rfl
  · cases hmem

/-- **ONE STEP** side by side. -/
theorem step_follows [Libev] {e : EventLoop.Event} (he : KeepsRange e) (hq : Narrower lo hi p q)
    (h : EventLoop.step p e = .ok (p', out)) :
    ∃ q' out', EventLoop.step q e = .ok (q', out') ∧ Narrower lo hi p' q' ∧
      out'.filterMap kept = out.filterMap (shown lo hi) := by
  cases e with
  | packet i ts caplen frame => exact packet_follows hq h
  | timer timer t => exact timer_follows hq h
  | userInput libpcap cmd msg =>
      rw [EventLoop.step] at h
      split at h
      · cases h
      · rename_i p₁ message hcall
        obtain ⟨rfl, rfl⟩ := Prod.mk.inj (Except.ok.inj h)
        obtain ⟨q', hcall', hq'⟩ := call_follows he hq hcall
        refine ⟨q', [.reply message], ?_, hq', rfl⟩
        rw [EventLoop.step, hcall']
  | message libpcap cmd msg accepted =>
      rw [EventLoop.step] at h
      split at h
      · cases h
      · rename_i p₁ message hcall
        obtain ⟨rfl, rfl⟩ := Prod.mk.inj (Except.ok.inj h)
        obtain ⟨q', hcall', hq'⟩ := call_follows he hq hcall
        refine ⟨q', exportDataSync q' accepted message, ?_, hq', ?_⟩
        · rw [EventLoop.step, hcall']
        · rw [exportDataSync_shown, exportDataSync, exportDataSync, hq'.interfaces]

theorem run_follows [Libev] {es : List EventLoop.Event} (hes : ∀ e ∈ es, KeepsRange e)
    (hq : Narrower lo hi p q) (h : run probe p es = some (p', out)) :
    ∃ q' out', run probe q es = some (q', out') ∧ Narrower lo hi p' q' ∧
      out'.filterMap kept = out.filterMap (shown lo hi) := by
  refine run_lockstep ?_ hes hq h
  intro p e p' out q he hq hstep
  obtain ⟨q', out', hstep', hq', hview⟩ := step_follows he hq (probe_eq_some.mp hstep)
  exact ⟨q', out', probe_eq_some.mpr hstep', hq', hview⟩

/-- The probe on another range. -/
def onRange (lo hi : UInt32) (p : Probe) : Probe where
  options := withRange lo hi p.options
  devices := p.devices
  handles := p.handles
  exportTimerPkid := p.exportTimerPkid
  exportTimerSampling := p.exportTimerSampling
  exportTimerStats := p.exportTimerStats
  exportTimerLocation := p.exportTimerLocation
  interfaces_le := p.interfaces_le

theorem narrower_onRange (hlo : p.options.selRangeMin ≤ lo) (hhi : hi ≤ p.options.selRangeMax) :
    Narrower lo hi p (onRange lo hi p) := by
  refine ⟨rfl, hlo, hhi, fun _ => ⟨.refl _, rfl, rfl, rfl⟩, rfl, fun timer => ?_⟩
  cases timer with
  | pkid => rfl
  | sampling => rfl
  | stats => rfl
  | location => rfl

/-! ## The records -/

/-- The packet records among the outputs, each with its device. -/
def recordOf : EventLoop.Output → Option (Fin maxInterfaces × Record)
  | .exported (.record i record) => some (i, record)
  | _ => none

def records (out : List EventLoop.Output) : List (Fin maxInterfaces × Record) :=
  out.filterMap recordOf

theorem records_kept (out : List EventLoop.Output) :
    records (out.filterMap kept) = records out := by
  rw [records, records, List.filterMap_filterMap]
  refine List.filterMap_congr fun o _ => ?_
  cases o with
  | exported output => cases output <;> rfl
  | _ => rfl

theorem records_narrow (out : List EventLoop.Output) :
    records (out.filterMap (narrowOutput lo hi)) =
      (records out).filter fun r => inRange lo hi r.2 := by
  rw [records, records, List.filterMap_filterMap, List.filter_filterMap]
  refine List.filterMap_congr fun o _ => ?_
  cases o with
  | exported output =>
      cases output with
      | record i record =>
          rw [narrowOutput, recordOf, Option.filter_some]
          split
          · rfl
          · rfl
      | _ => rfl
  | _ => rfl

theorem filterMap_shown (out : List EventLoop.Output) :
    out.filterMap (shown lo hi) = (out.filterMap kept).filterMap (narrowOutput lo hi) :=
  List.filterMap_filterMap.symm

theorem records_of_shown {out' : List EventLoop.Output}
    (h : out'.filterMap kept = out.filterMap (shown lo hi)) :
    records out' = (records out).filter fun r => inRange lo hi r.2 := by
  rw [← records_kept, h, filterMap_shown, records_narrow, records_kept]

/-- **A PART OF THE RANGE** — put on a part of its selection range, a probe makes
    of the same events the same decisions, but that packets outside the range are
    dropped, and exports the same records, but for those outside the range; the
    replies and the other exports of the timers are the same, and so are the
    sampling reports but for their counts of the selected packets.  Only the
    flushes are left out.  The range commands themselves would end that. -/
theorem narrower_range [Libev] {es : List EventLoop.Event} (hlo : p.options.selRangeMin ≤ lo)
    (hhi : hi ≤ p.options.selRangeMax) (hes : ∀ e ∈ es, KeepsRange e)
    (h : run probe p es = some (p', out)) :
    ∃ q' out', run probe (onRange lo hi p) es = some (q', out') ∧
      out'.filterMap kept = (out.filterMap kept).filterMap (narrowOutput lo hi) ∧
      records out' = (records out).filter fun r => inRange lo hi r.2 := by
  obtain ⟨q', out', hrun, -, hview⟩ := run_follows hes (narrower_onRange hlo hhi) h
  exact ⟨q', out', hrun, hview.trans (filterMap_shown out), records_of_shown hview⟩

section Repeating

open scoped Libev.Repeating

/-- A datagram on a socket. -/
theorem run_udp : ∃ p' out, run probe DeviceIsolation.twoSocketProbe [DeviceIsolation.udpOn 0] =
    some (p', out) := by
  obtain ⟨r, hr⟩ : ∃ r, Arrival.handle ⟨DeviceIsolation.twoSocketProbe.options, ⟨1, 0⟩, 28,
      ofList Datagrams.udpDatagram.bytes⟩ (DeviceIsolation.twoSocketProbe.devices 0) = .ok r :=
    ⟨_, (@handlePacket_ip _ _ _ _ _ 0x0800 rfl rfl).trans rfl⟩
  exact ⟨_, _, run_cons_eq_some.mpr
    ⟨_, _, [], probe_eq_some.mpr (step_packet (i := 0) (by decide) hr), rfl, rfl⟩⟩

/-- Its hash is the lower end of a part of the range. -/
theorem narrower_range_udp : ∃ p' out q' out',
    run probe DeviceIsolation.twoSocketProbe [DeviceIsolation.udpOn 0] = some (p', out) ∧
      run probe (onRange 0x20000000 0x20000005 DeviceIsolation.twoSocketProbe)
        [DeviceIsolation.udpOn 0] = some (q', out') ∧
      out'.filterMap kept =
        (out.filterMap kept).filterMap (narrowOutput 0x20000000 0x20000005) ∧
      records out' = (records out).filter fun r => inRange 0x20000000 0x20000005 r.2 := by
  obtain ⟨p', out, hrun⟩ := run_udp
  have hes : ∀ e ∈ [DeviceIsolation.udpOn 0], KeepsRange e :=
    fun e he => List.mem_singleton.mp he ▸ trivial
  obtain ⟨q', out', h⟩ := @narrower_range 0x20000000 0x20000005 _ _ _ _ _ (by decide) (by decide)
    hes hrun
  exact ⟨p', out, q', out', hrun, h⟩

end Repeating

/-! ## Sharing the work -/

/-- Ranges, each of which begins where the one before it ends. -/
inductive Adjoin : UInt32 → UInt32 → List (UInt32 × UInt32) → Prop where
  | one (lo hi : UInt32) : Adjoin lo hi [(lo, hi)]
  | cut {lo mid hi : UInt32} {ranges : List (UInt32 × UInt32)} (hlo : lo ≤ mid) (hhi : mid < hi)
      (h : Adjoin (mid + 1) hi ranges) : Adjoin lo hi ((lo, mid) :: ranges)

theorem toNat_add_one {mid : UInt32} (h : mid < hi) : (mid + 1).toNat = mid.toNat + 1 := by
  have := UInt32.lt_iff_toNat_lt.mp h
  have := hi.toNat_lt
  rw [UInt32.toNat_add]
  exact Nat.mod_eq_of_lt (show mid.toNat + 1 < 4294967296 by omega)

/-- A record of the whole is in the lower part or in the upper one. -/
theorem inRange_cut {mid : UInt32} (hlo : lo ≤ mid) (hhi : mid < hi) (record : Record) :
    inRange lo mid record = (inRange lo mid record && inRange lo hi record) ∧
      inRange (mid + 1) hi record = (!inRange lo mid record && inRange lo hi record) := by
  have := UInt32.le_iff_toNat_le.mp hlo
  have := UInt32.lt_iff_toNat_lt.mp hhi
  rw [inRange, inRange, inRange, toNat_add_one hhi]
  cases digestField record with
  | none => exact ⟨rfl, rfl⟩
  | some field =>
      obtain ⟨value, length⟩ := field
      cases value with
      | num n =>
          dsimp only
          rw [← Bool.decide_and, ← decide_not, ← Bool.decide_and]
          exact ⟨decide_eq_decide.mpr (by omega), decide_eq_decide.mpr (by omega)⟩
      | addr bytes => exact ⟨rfl, rfl⟩
      | text s => exact ⟨rfl, rfl⟩

/-- What the two parts filter out of a list is the whole. -/
theorem filter_cut {mid : UInt32} (hlo : lo ≤ mid) (hhi : mid < hi)
    (l : List (Fin maxInterfaces × Record)) :
    ((l.filter fun r => inRange lo mid r.2) ++ l.filter fun r => inRange (mid + 1) hi r.2).Perm
      (l.filter fun r => inRange lo hi r.2) := by
  have hlower : (l.filter fun r => inRange lo mid r.2) =
      (l.filter fun r => inRange lo hi r.2).filter fun r => inRange lo mid r.2 := by
    rw [List.filter_filter]
    exact List.filter_congr fun r _ => (inRange_cut hlo hhi r.2).1
  have hupper : (l.filter fun r => inRange (mid + 1) hi r.2) =
      (l.filter fun r => inRange lo hi r.2).filter fun r => !inRange lo mid r.2 := by
    rw [List.filter_filter]
    exact List.filter_congr fun r _ => (inRange_cut hlo hhi r.2).2
  rw [hlower, hupper]
  exact List.filter_append_perm _ _

/-- A probe on its own range is the same probe. -/
theorem onRange_self (p : Probe) : onRange p.options.selRangeMin p.options.selRangeMax p = p := rfl

theorem records_inRange [Libev] {es : List EventLoop.Event} (hes : ∀ e ∈ es, KeepsRange e)
    (h : run probe p es = some (p', out)) :
    ((records out).filter fun r => inRange p.options.selRangeMin p.options.selRangeMax r.2) =
      records out := by
  obtain ⟨q', out', hrun, -, hview⟩ :=
    run_follows hes (narrower_onRange (UInt32.le_refl _) (UInt32.le_refl _)) h
  rw [onRange_self, h] at hrun
  obtain ⟨-, rfl⟩ := Prod.mk.inj (Option.some.inj hrun)
  exact (records_of_shown hview).symm

/-- The probes on adjoining ranges inside the range of `p`. -/
theorem runs_adjoin [Libev] {es : List EventLoop.Event} {ranges : List (UInt32 × UInt32)}
    (hes : ∀ e ∈ es, KeepsRange e) (h : run probe p es = some (p', out))
    (hranges : Adjoin lo hi ranges) (hlo : p.options.selRangeMin ≤ lo)
    (hhi : hi ≤ p.options.selRangeMax) :
    ∃ outs, List.Forall₂ (fun range out' => (∃ q',
        run probe (onRange range.1 range.2 p) es = some (q', out')) ∧
          (records out').Sublist (records out)) ranges outs ∧
      (outs.flatMap records).Perm ((records out).filter fun r => inRange lo hi r.2) := by
  induction hranges with
  | one lo hi =>
      obtain ⟨q', out', hrun, -, hview⟩ := run_follows hes (narrower_onRange hlo hhi) h
      have hrecords := records_of_shown hview
      refine ⟨[out'], .cons ⟨⟨q', hrun⟩, ?_⟩ .nil, ?_⟩
      · rw [hrecords]
        exact List.filter_sublist
      · rw [List.flatMap_singleton, hrecords]
  | @cut lo mid hi ranges hcut hcut' _ ih =>
      have hmid : mid ≤ hi := UInt32.le_of_lt hcut'
      have hnext : mid ≤ mid + 1 := by
        rw [UInt32.le_iff_toNat_le, toNat_add_one hcut']
        exact Nat.le_succ _
      obtain ⟨outs, hruns, hperm⟩ :=
        ih (UInt32.le_trans hlo (UInt32.le_trans hcut hnext)) hhi
      obtain ⟨q', out', hrun, -, hview⟩ :=
        run_follows hes (narrower_onRange hlo (UInt32.le_trans hmid hhi)) h
      have hrecords := records_of_shown hview
      refine ⟨out' :: outs, .cons ⟨⟨q', hrun⟩, ?_⟩ hruns, ?_⟩
      · rw [hrecords]
        exact List.filter_sublist
      · rw [List.flatMap_cons, hrecords]
        exact (hperm.append_left _).trans (filter_cut hcut hcut' _)

/-- **SHARED WORK** — probes whose ranges adjoin, and together make up the range
    of one probe, export together of the same events what it exports: every record
    is exported by one of them, as often as by that probe, and each of them keeps
    the order. -/
theorem ranges_share_the_work [Libev] {es : List EventLoop.Event} {ranges : List (UInt32 × UInt32)}
    (hranges : Adjoin p.options.selRangeMin p.options.selRangeMax ranges)
    (hes : ∀ e ∈ es, KeepsRange e) (h : run probe p es = some (p', out)) :
    ∃ outs, List.Forall₂ (fun range out' => (∃ q',
        run probe (onRange range.1 range.2 p) es = some (q', out')) ∧
          (records out').Sublist (records out)) ranges outs ∧
      (outs.flatMap records).Perm (records out) := by
  obtain ⟨outs, hruns, hperm⟩ :=
    runs_adjoin hes h hranges (UInt32.le_refl _) (UInt32.le_refl _)
  rw [records_inRange hes h] at hperm
  exact ⟨outs, hruns, hperm⟩

open scoped Libev.Repeating in
/-- Two probes for one. -/
theorem ranges_share_the_work_udp : ∃ p' out outs,
    run probe DeviceIsolation.twoSocketProbe [DeviceIsolation.udpOn 0] = some (p', out) ∧
      List.Forall₂ (fun range out' => (∃ q',
        run probe (onRange range.1 range.2 DeviceIsolation.twoSocketProbe)
          [DeviceIsolation.udpOn 0] = some (q', out')) ∧ (records out').Sublist (records out))
        [(0x19999999, 0x20000000), (0x20000001, 0x33333333)] outs ∧
      (outs.flatMap records).Perm (records out) := by
  obtain ⟨p', out, hrun⟩ := run_udp
  have hes : ∀ e ∈ [DeviceIsolation.udpOn 0], KeepsRange e :=
    fun e he => List.mem_singleton.mp he ▸ trivial
  have hranges : Adjoin 0x19999999 0x33333333
      [(0x19999999, 0x20000000), (0x20000001, 0x33333333)] :=
    .cut (by decide) (by decide) (.one 0x20000001 0x33333333)
  obtain ⟨outs, h⟩ := ranges_share_the_work hranges hes hrun
  exact ⟨p', out, outs, hrun, h⟩

end Probes

end Impd4e.NarrowRange
