import Impd4e.ExportHandler
import Impd4e.Datagrams
import Impd4e.Settings
import Mathlib.Data.ZMod.Basic
import Mathlib.Tactic.LinearCombination
import Mathlib.Tactic.Ring

/-! # The books of the sampling statistics

    A device counts its packets in `totalpacketcount` for good, and in
    `sampling_delta_count` and `sampling_size` until they are reported.  What is
    reported and what is still held make up what arrived, in every run: the
    counters are accounts, and a step moves between account and report. -/

namespace Impd4e.SamplingLedger

open ReadProg Machine Impd4e.PacketHandler Impd4e.Traffic Impd4e.ExportHandler
  Impd4e.Settings Impd4e.Datagrams

variable {i : Fin maxInterfaces} {devices devices' devices₀ : Devices} {out : List Output}

/-! ## What was reported -/

/-- The statistics of the device `i` in an output. -/
def reportOf (i : Fin maxInterfaces) : Output → Option InterfaceStats
  | .decided _ _ => none
  | .record _ _ => none
  | .interfaceStats j stats => if j = i then some stats else none
  | .exportFlush => none

/-- The successful interface-statistics exports of the device `i`, in order. -/
def reports (i : Fin maxInterfaces) (out : List Output) : List InterfaceStats :=
  out.filterMap (reportOf i)

/-- Does the output say that a packet of the device `i` was selected? -/
def selects (i : Fin maxInterfaces) : Output → Bool
  | .decided j decision => j == i && decision.isSelected
  | .record _ _ => false
  | .interfaceStats _ _ => false
  | .exportFlush => false

/-- How many packets were ever selected on the device `i`. -/
def selectedPackets (i : Fin maxInterfaces) (out : List Output) : Nat :=
  out.countP (selects i)

/-! ## Accounts -/

/-- An account of the device `i`: what its state holds, and what an output
    carries out of it, so that no packet and no report changes the sum. -/
structure Account (M : Type) [AddCommGroup M] (i : Fin maxInterfaces) where
  held : DeviceDev → M
  value : Output → M
  record : ∀ j r, value (.record j r) = 0
  flush : value .exportFlush = 0
  decided_other : ∀ j decision, j ≠ i → value (.decided j decision) = 0
  stats_other : ∀ j stats, j ≠ i → value (.interfaceStats j stats) = 0
  packet : ∀ (a : Arrival) (dev : DeviceDev) (r : Handled), a.handle dev = .ok r →
    value (.decided i r.decision) + held r.device = held dev
  report : ∀ (dev : DeviceDev) (stats : InterfaceStats), stats.size = dev.samplingSize →
    stats.deltaCount = dev.samplingDeltaCount →
    value (.interfaceStats i stats)
      + held { dev with samplingSize := 0, samplingDeltaCount := 0 } = held dev

namespace Account

variable {M : Type} [AddCommGroup M] (acc : Account M i)

theorem sum_records (j : Fin maxInterfaces) (r : Option Record) (flushed : Bool) :
    ((r.toList.map (Output.record j) ++ if flushed then [Output.exportFlush] else []).map
      acc.value).sum = 0 := by
  rw [List.map_append, List.sum_append]
  have hrecords : ((r.toList.map (Output.record j)).map acc.value).sum = 0 := by
    cases r with
    | none => rfl
    | some r => exact (List.sum_singleton).trans (acc.record j r)
  have hflush : ((if flushed then [Output.exportFlush] else []).map acc.value).sum = 0 := by
    cases flushed with
    | false => rfl
    | true => exact (List.sum_singleton).trans acc.flush
  rw [hrecords, hflush, add_zero]

theorem receive_conserves {j : Fin maxInterfaces} {a : Arrival}
    (h : receive j a devices = some (devices', out)) :
    (out.map acc.value).sum + acc.held (devices' i) = acc.held (devices i) := by
  obtain ⟨r, hr, rfl, rfl⟩ := receive_eq_some.mp h
  rw [List.cons_append, List.map_cons, List.sum_cons, acc.sum_records, add_zero]
  by_cases hj : j = i
  · subst hj
    rw [Function.update_self]
    exact acc.packet a _ r hr
  · rw [acc.decided_other j _ hj, zero_add, Function.update_of_ne (Ne.symm hj)]

theorem samplingRound_conserves {t : Tick} {j : Nat}
    (h : samplingRound t devices j = some (devices', out)) :
    (out.map acc.value).sum + acc.held (devices' i) = acc.held (devices i) := by
  obtain ⟨hj, ⟨-, rfl, rfl⟩ | ⟨-, rfl, stats, rfl, hsize, hdelta⟩⟩ := samplingRound_eq_some h
  · exact zero_add _
  · rw [List.map_singleton, List.sum_singleton]
    by_cases hji : ⟨j, hj⟩ = i
    · subst hji
      rw [Function.update_self]
      exact acc.report _ stats hsize hdelta
    · rw [acc.stats_other _ stats hji, zero_add, Function.update_of_ne (Ne.symm hji)]

/-- No event changes what an account holds and has paid out. -/
theorem step_conserves {e : Event} (h : step devices e = some (devices', out)) :
    (out.map acc.value).sum + acc.held (devices' i) = acc.held (devices i) := by
  cases e with
  | packet j a => exact acc.receive_conserves h
  | exportTimerPktid =>
      obtain ⟨rfl, rfl⟩ := Prod.mk.inj (Option.some.inj h)
      rw [List.map_singleton, List.sum_singleton, acc.flush, zero_add]
  | exportTimerSampling n t =>
      obtain ⟨reported, hrun, rfl⟩ := exportTimerSamplingCb_eq_some h
      rw [List.map_append, List.sum_append, List.map_singleton, List.sum_singleton, acc.flush,
        add_zero]
      -- the loop is a run of its own, and each round conserves
      exact run_conserves (fun d : Devices => acc.held (d i)) acc.value
        (fun _ _ _ _ hround => acc.samplingRound_conserves hround) hrun

/-- **ACCOUNTS BALANCE** — over whole runs. -/
theorem balance {es : List Event} (h : run step devices₀ es = some (devices, out)) :
    (out.map acc.value).sum + acc.held (devices i) = acc.held (devices₀ i) :=
  run_conserves (fun d : Devices => acc.held (d i)) acc.value
    (fun _ _ _ _ hstep => acc.step_conserves hstep) h

end Account

/-! ## The three accounts of a device -/

/-- The packets not yet reported, against all packets. -/
def packetAccount (i : Fin maxInterfaces) : Account ℤ i where
  held dev := dev.samplingDeltaCount - dev.totalpacketcount
  value o := ((reportOf i o).map fun stats => (stats.deltaCount : ℤ)).getD 0
  record _ _ := rfl
  flush := rfl
  decided_other _ _ _ := rfl
  stats_other j stats hj := by
    rw [reportOf, if_neg hj]
    rfl
  packet a dev r hr := by
    obtain ⟨htotal, hdelta, -⟩ := handlePacket_counters hr
    rw [htotal, hdelta, Nat.cast_add, Nat.cast_add]
    show 0 + _ = _
    ring
  report dev stats _ hdelta := by
    rw [reportOf, if_pos rfl]
    show (stats.deltaCount : ℤ) + (((0 : ℕ) : ℤ) - _) = _
    rw [hdelta, Nat.cast_zero]
    ring

/-- The selected packets not yet reported, against all selected ones; the
    counter wraps. -/
def selectionAccount (i : Fin maxInterfaces) : Account (ZMod 4294967296) i where
  held dev := dev.samplingSize
  value o := ((reportOf i o).map fun stats => (stats.size : ZMod 4294967296)).getD 0
    - if selects i o then 1 else 0
  record _ _ := sub_zero _
  flush := sub_zero _
  decided_other j decision hj := by
    have hsel : selects i (.decided j decision) = false := by
      rw [selects, beq_eq_false_iff_ne.mpr hj, Bool.false_and]
    rw [hsel]
    exact sub_zero _
  stats_other j stats hj := by
    rw [reportOf, if_neg hj]
    exact sub_zero _
  packet a dev r hr := by
    obtain ⟨-, -, hsize⟩ := handlePacket_counters hr
    have hsel : selects i (.decided i r.decision) = r.decision.isSelected := by
      rw [selects, beq_self_eq_true, Bool.true_and]
    rw [hsel, hsize]
    show (0 - _) + _ = _
    cases r.decision.isSelected with
    | false =>
        show (0 - 0) + (dev.samplingSize : ZMod 4294967296) = _
        ring
    | true =>
        show (0 - 1) + ((u32 (dev.samplingSize + 1) : ℕ) : ZMod 4294967296) = _
        rw [u32, ZMod.natCast_mod, Nat.cast_add, Nat.cast_one]
        ring
  report dev stats hsize _ := by
    rw [reportOf, if_pos rfl]
    show (stats.size : ZMod 4294967296) - 0 + ((0 : ℕ) : ZMod 4294967296) = _
    rw [hsize, Nat.cast_zero]
    ring

/-- What the reports say in all, summed over the outputs. -/
theorem sum_reports {M : Type} [AddCommMonoidWithOne M] (f : InterfaceStats → ℕ)
    (out : List Output) :
    ((((reports i out).map f).sum : ℕ) : M)
      = (out.map fun o => ((reportOf i o).map fun stats => (f stats : M)).getD 0).sum := by
  induction out with
  | nil => exact Nat.cast_zero
  | cons o out ih =>
      rw [List.map_cons, List.sum_cons, ← ih, reports]
      cases ho : reportOf i o with
      | none =>
          rw [List.filterMap_cons_none ho]
          exact (zero_add _).symm
      | some stats =>
          rw [List.filterMap_cons_some ho, List.map_cons, List.sum_cons, Nat.cast_add]
          rfl

theorem sum_selections (out : List Output) :
    (out.map (selectionAccount i).value).sum
      = ((((reports i out).map InterfaceStats.size).sum : ℕ) : ZMod 4294967296)
        - (selectedPackets i out : ZMod 4294967296) := by
  rw [sum_reports]
  induction out with
  | nil => exact (sub_zero _).symm
  | cons o out ih =>
      rw [List.map_cons, List.sum_cons, ih, List.map_cons, List.sum_cons, selectedPackets,
        selectedPackets, List.countP_cons]
      show _ - (if selects i o then 1 else 0) + _ = _
      cases selects i o with
      | false =>
          rw [if_neg Bool.false_ne_true, if_neg Bool.false_ne_true, Nat.add_zero]
          ring
      | true =>
          rw [if_pos rfl, if_pos rfl, Nat.cast_add, Nat.cast_one]
          ring

/-! ## Conservation -/

/-- The counters of a device before anything happened. -/
structure Fresh (dev : DeviceDev) : Prop where
  total : dev.totalpacketcount = 0
  delta : dev.samplingDeltaCount = 0
  size : dev.samplingSize = 0

/-- The books of the device `i` balance. -/
structure Balanced (i : Fin maxInterfaces) (dev : DeviceDev) (out : List Output) : Prop where
  packets : dev.totalpacketcount =
    ((reports i out).map InterfaceStats.deltaCount).sum + dev.samplingDeltaCount
  selected : selectedPackets i out ≡
    ((reports i out).map InterfaceStats.size).sum + dev.samplingSize [MOD 4294967296]
  bounded : dev.samplingSize ≤ dev.samplingDeltaCount

theorem packets_balanced {es : List Event} (hfresh : Fresh (devices₀ i))
    (h : run step devices₀ es = some (devices, out)) :
    (devices i).totalpacketcount =
      ((reports i out).map InterfaceStats.deltaCount).sum + (devices i).samplingDeltaCount := by
  have hbalance := (packetAccount i).balance h
  have hsum := sum_reports (M := ℤ) (i := i) InterfaceStats.deltaCount out
  change (out.map fun o => ((reportOf i o).map fun stats => (stats.deltaCount : ℤ)).getD 0).sum
    + (((devices i).samplingDeltaCount : ℤ) - (devices i).totalpacketcount)
      = ((devices₀ i).samplingDeltaCount : ℤ) - (devices₀ i).totalpacketcount at hbalance
  rw [← hsum, hfresh.total, hfresh.delta] at hbalance
  omega

theorem selected_balanced {es : List Event} (hfresh : Fresh (devices₀ i))
    (h : run step devices₀ es = some (devices, out)) :
    selectedPackets i out ≡
      ((reports i out).map InterfaceStats.size).sum + (devices i).samplingSize
        [MOD 4294967296] := by
  have hbalance := (selectionAccount i).balance h
  rw [sum_selections] at hbalance
  change _ - _ + ((devices i).samplingSize : ZMod 4294967296)
    = ((devices₀ i).samplingSize : ZMod 4294967296) at hbalance
  rw [hfresh.size, Nat.cast_zero] at hbalance
  refine (ZMod.natCast_eq_natCast_iff _ _ _).mp ?_
  rw [Nat.cast_add]
  linear_combination -hbalance

/-- Fewer packets are selected than counted. -/
theorem sampling_bounded {es : List Event}
    (hstart : (devices₀ i).samplingSize ≤ (devices₀ i).samplingDeltaCount)
    (h : run step devices₀ es = some (devices, out)) :
    (devices i).samplingSize ≤ (devices i).samplingDeltaCount := by
  -- a round of the timer clears both counters or neither
  have round : ∀ (t : Tick) (j : Nat) (d d' : Devices) (out : List Output),
      (d i).samplingSize ≤ (d i).samplingDeltaCount →
      samplingRound t d j = some (d', out) →
      (d' i).samplingSize ≤ (d' i).samplingDeltaCount := by
    intro t j d d' out hle hround
    obtain ⟨hj, ⟨-, rfl, -⟩ | ⟨-, rfl, -⟩⟩ := samplingRound_eq_some hround
    · exact hle
    · by_cases hji : i = ⟨j, hj⟩
      · rw [hji, Function.update_self]
      · rwa [Function.update_of_ne hji]
  refine run_rule (P := fun _ d _ => (d i).samplingSize ≤ (d i).samplingDeltaCount)
    hstart ?_ h
  intro _ d _ e d' out' hle hstep
  cases e with
  | packet j a =>
      obtain ⟨r, hr, rfl, -⟩ := receive_eq_some.mp hstep
      by_cases hji : i = j
      · subst hji
        -- every packet counts, only a selected one is added to the selected; wrapping lowers it
        obtain ⟨-, hdelta, hsize⟩ := handlePacket_counters hr
        rw [Function.update_self, hdelta, hsize]
        have hwrap : u32 ((d i).samplingSize + 1) ≤ (d i).samplingSize + 1 := Nat.mod_le _ _
        split
        · omega
        · omega
      · rwa [Function.update_of_ne hji]
  | exportTimerPktid =>
      obtain ⟨rfl, -⟩ := Prod.mk.inj (Option.some.inj hstep)
      exact hle
  | exportTimerSampling n t =>
      obtain ⟨reported, hrun, -⟩ := exportTimerSamplingCb_eq_some hstep
      exact run_rule (P := fun _ d _ => (d i).samplingSize ≤ (d i).samplingDeltaCount) hle
        (fun _ d _ j d' out hle hround => round t j d d' out hle hround) hrun

/-- What one tick of the sampling timer does to the device `i`: it reports the
    counters and clears them, or leaves the device and reports nothing. -/
structure Ticked (i : Fin maxInterfaces) (t : Tick) (rounds : List Nat)
    (dev dev' : DeviceDev) (out : List Output) : Prop where
  skipped : (i : Nat) ∉ rounds ∨ t.accepted i = false → dev' = dev ∧ reports i out = []
  reported : (i : Nat) ∈ rounds → t.accepted i = true →
    dev' = { dev with samplingSize := 0, samplingDeltaCount := 0 } ∧
    ∃ stats : InterfaceStats, reports i out = [stats] ∧ stats.size = dev.samplingSize ∧
      stats.deltaCount = dev.samplingDeltaCount

theorem run_ticked {t : Tick} {rounds : List Nat} (hnodup : rounds.Nodup)
    (h : run (samplingRound t) devices₀ rounds = some (devices, out)) :
    Ticked i t rounds (devices₀ i) (devices i) out := by
  refine run_rule (P := fun rounds devices out => rounds.Nodup →
    Ticked i t rounds (devices₀ i) (devices i) out) ?_ ?_ h hnodup
  · intro _
    exact ⟨fun _ => ⟨rfl, rfl⟩, fun h => absurd h List.not_mem_nil⟩
  · intro rounds d out j d' out' ih hround hnodup
    obtain ⟨hnodup', -, hfresh⟩ := List.nodup_append.mp hnodup
    obtain ⟨hskip, hrep⟩ := ih hnodup'
    have hreports : reports i (out ++ out') = reports i out ++ reports i out' :=
      List.filterMap_append
    obtain ⟨hj, hcases⟩ := samplingRound_eq_some hround
    by_cases hji : (i : Nat) = j
    · -- this is the round of the device; it was not in an earlier one
      have hnot : (i : Nat) ∉ rounds := fun hmem =>
        hfresh _ hmem j (List.mem_singleton.mpr rfl) hji
      obtain ⟨hdev, hnone⟩ := hskip (Or.inl hnot)
      obtain rfl : i = ⟨j, hj⟩ := Fin.ext hji
      rcases hcases with ⟨hacc, rfl, rfl⟩ | ⟨hacc, rfl, stats, rfl, hsize, hdelta⟩
      · constructor
        · intro _
          exact ⟨hdev, by rw [List.append_nil]; exact hnone⟩
        · intro _ hacc'
          exact absurd (hacc.symm.trans hacc') (by decide)
      · constructor
        · rintro (hmem | hacc')
          · exact absurd (List.mem_append_right _ (List.mem_singleton.mpr rfl)) hmem
          · exact absurd (hacc.symm.trans hacc') (by decide)
        · intro _ _
          have hown : reportOf ⟨j, hj⟩ (.interfaceStats ⟨j, hj⟩ stats) = some stats :=
            if_pos rfl
          rw [Function.update_self, hreports, hnone]
          rw [hdev] at hsize hdelta ⊢
          exact ⟨rfl, stats, List.filterMap_cons_some hown, hsize, hdelta⟩
    · -- another device's round
      have hmem : (i : Nat) ∈ rounds ++ [j] ↔ (i : Nat) ∈ rounds := by
        rw [List.mem_append, List.mem_singleton, or_iff_left hji]
      have hdev : d' i = d i := by
        rcases hcases with ⟨-, rfl, -⟩ | ⟨-, rfl, -⟩
        · rfl
        · exact Function.update_of_ne (fun h => hji (congrArg Fin.val h)) _ _
      have hnone : reports i out' = [] := by
        rcases hcases with ⟨-, -, rfl⟩ | ⟨-, -, stats, rfl, -⟩
        · rfl
        · have hother : reportOf i (.interfaceStats ⟨j, hj⟩ stats) = none :=
            if_neg fun h => hji (congrArg Fin.val h).symm
          exact List.filterMap_cons_none hother
      have hsame : reports i (out ++ out') = reports i out := by
        rw [hreports, hnone, List.append_nil]
      constructor
      · intro h
        rw [hdev, hsame]
        exact hskip (h.imp_left (mt hmem.mpr))
      · intro h
        rw [hdev, hsame]
        exact hrep (hmem.mp h)

theorem sampling_ticked {n : Nat} {t : Tick}
    (h : step devices (.exportTimerSampling n t) = some (devices', out)) :
    Ticked i t (List.range n) (devices i) (devices' i) out := by
  obtain ⟨reported, hrun, rfl⟩ := exportTimerSamplingCb_eq_some h
  have hsame : reports i (reported ++ [.exportFlush]) = reports i reported :=
    List.filterMap_append.trans (List.append_nil _)
  obtain ⟨hskip, hrep⟩ := run_ticked (i := i) List.nodup_range hrun
  constructor
  · rw [hsame]
    exact hskip
  · rw [hsame]
    exact hrep

/-- **THE STATISTICS ARE CONSERVED** — in every state of every run the books of
    every device balance; and the next tick of the sampling timer leaves the
    counters of a device whose export fails, and otherwise reports them. -/
theorem statistics_conserved {es : List Event} (hfresh : Fresh (devices₀ i))
    (h : run step devices₀ es = some (devices, out)) :
    Balanced i (devices i) out ∧
      ∀ n t devices' out', step devices (.exportTimerSampling n t) = some (devices', out') →
        Ticked i t (List.range n) (devices i) (devices' i) out' := by
  constructor
  · exact ⟨packets_balanced hfresh h, selected_balanced hfresh h,
      sampling_bounded (by rw [hfresh.size]; exact Nat.zero_le _) h⟩
  · intro n t devices' out' htick
    exact sampling_ticked htick

/-- A device starts with its counters at zero. -/
theorem setDefaultsDevice_fresh (options : Options) (deviceType : DeviceType)
    (linkType : LinkType) (pktOffset : Nat) :
    Fresh (setDefaultsDevice options
      { zeroDevice with deviceType := deviceType, linkType := linkType, pktOffset := pktOffset }) :=
  ⟨rfl, rfl, rfl⟩

/-- A small datagram that the probe selects. -/
def udpArrival : Arrival := ⟨selectAll, ⟨1, 0⟩, 28, ofList udpDatagram.bytes⟩

/-- Sockets only. -/
def socketDevices : Devices := fun _ => socketDevice selectAll

/-- An export that fails and one that succeeds. -/
def twoTicks : List Event :=
  [.exportTimerSampling 1 ⟨0, fun _ => ⟨0, 0⟩, fun _ => false⟩,
    .exportTimerSampling 1 ⟨0, fun _ => ⟨0, 0⟩, fun _ => true⟩]

/-- The packet counted between them balances the books. -/
theorem statistics_conserved_udp :
    ∃ devices out,
      run step socketDevices (.packet 0 udpArrival :: twoTicks) = some (devices, out) ∧
      Balanced 0 (devices 0) out := by
  obtain ⟨r, hr⟩ : ∃ r, udpArrival.handle (socketDevices 0) = .ok r :=
    ⟨_, (@handlePacket_ip _ _ _ _ _ 0x0800 rfl rfl).trans rfl⟩
  have hpacket : step socketDevices (.packet 0 udpArrival) = some _ :=
    receive_eq_some.mpr ⟨r, hr, rfl, rfl⟩
  obtain ⟨devices, out, hticks⟩ : ∃ devices out,
      run step (Function.update socketDevices 0 r.device) twoTicks = some (devices, out) :=
    ⟨_, _, rfl⟩
  have fresh : Fresh (socketDevices 0) :=
    setDefaultsDevice_fresh selectAll .socketInet (.other 0) 0
  have hrun := run_cons_eq_some.mpr ⟨_, _, _, hpacket, hticks, rfl⟩
  exact ⟨_, _, hrun, (statistics_conserved fresh hrun).1⟩

end Impd4e.SamplingLedger
