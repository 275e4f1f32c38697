import Impd4e.FieldMap
import Impd4e.Settings

/-! # Runs of packets through a device

    What one call of `handle_packet` can do to a device, read off its code once
    (`handlePacket_cases`, `handleIpPacket_cases`, `handleSelected_cases`), and
    from it what any traffic does to the hash buffer. -/

namespace Impd4e.Traffic

open ReadProg Impd4e.Hash Impd4e.IpfixTemplates Impd4e.PacketHandler Impd4e.FieldMap

variable {m : Nat → Option UInt8} {o : Options} {ts : Timeval} {device : DeviceDev}

/-! ## One packet -/

/-- `selectPacket` succeeds on what `findHeaders` finds and the pieces hold. -/
theorem selectPacket_cases {b : Buffer} {len : Nat} {s : Selection}
    (h : run m (selectPacket o b len) = .ok s) :
    ∃ bytes,
      run m (findHeaders (u16 len) zeroOffsets zeroLayers) = .ok (s.offsets, s.layers) ∧
      run m (blocks (pieces o.selectionFunction o.rSel len b.size s.offsets s.layers))
        = .ok bytes ∧
      s.buffer = (if keeps o.selectionFunction s.offsets s.layers then b.reset.append bytes
        else (b.reset.append bytes).reset) ∧
      s.decision = rangeTest o s.buffer.contents := by
  obtain ⟨⟨buffer, offsets, layers⟩, hsel, hret⟩ := (run_bind_eq_ok _).mp h
  obtain rfl := Except.ok.inj hret
  obtain ⟨⟨offsets', layers'⟩, hfind, hcopy⟩ := (run_bind_eq_ok _).mp hsel
  obtain ⟨buffer', hcopy', hret'⟩ := (run_bind_eq_ok _).mp hcopy
  rw [selectionFunction_eq] at hcopy'
  obtain ⟨bytes, hbytes, hbuf⟩ := (run_bind_eq_ok _).mp hcopy'
  have hbuf' := Except.ok.inj hbuf
  obtain ⟨rfl, rfl, rfl⟩ : buffer' = buffer ∧ offsets' = offsets ∧ layers' = layers := by
    have := Except.ok.inj hret'
    exact ⟨congrArg (fun r => r.1) this, congrArg (fun r => r.2.1) this,
      congrArg (fun r => r.2.2) this⟩
  exact ⟨bytes, hfind, hbytes, hbuf'.symm, rfl⟩

/-- The device after the counters of the selected branch. -/
def countSelected (device : DeviceDev) : DeviceDev :=
  { device with
    exportPacketCount := u32 (device.exportPacketCount + 1)
    samplingSize := u32 (device.samplingSize + 1) }

/-- The selected branch counts, and either exports nothing or one record. -/
theorem handleSelected_cases {hashId : UInt32} {offsets : HeaderOffset} {layers : Layers}
    {r : Handled}
    (h : run m (handleSelected o ts device hashId offsets layers) = .ok r) :
    r = ⟨countSelected device, .selected hashId, none, false⟩ ∨
      ∃ fields,
        run m (fillFields (effectiveTemplate o device) ts hashId offsets layers)
          = .ok (some fields) ∧
        r = exportRecord o (countSelected device) (.selected hashId)
          ⟨effectiveTemplate o device, fields⟩ := by
  unfold handleSelected at h
  by_cases hoff : o.exportPktidInterval ≤ 0
  · simp only [if_pos hoff] at h
    exact Or.inl (Except.ok.inj h).symm
  · simp only [if_neg hoff] at h
    cases hid : packetId o hashId device.hashBuffer.contents with
    | none => simp only [hid] at h; cases h
    | some pktId =>
        simp only [hid] at h
        -- counting does not touch the template
        cases htemp : getTemplate (effectiveTemplate o (countSelected device)) with
        | none =>
            simp only [countSelected] at htemp
            simp only [htemp] at h
            cases h
        | some template =>
            simp only [countSelected] at htemp
            simp only [htemp] at h
            obtain ⟨fields, hf, hr⟩ := (run_bind_eq_ok _).mp h
            cases fields with
            | none => exact Or.inl (Except.ok.inj hr).symm
            | some fields => exact Or.inr ⟨fields, hf, (Except.ok.inj hr).symm⟩

/-- What `handle_ip_packet` can do. -/
theorem handleIpPacket_cases {len : Nat} {r : Handled}
    (h : run m (handleIpPacket o ts device len) = .ok r) :
    ∃ s, run m (selectPacket o device.hashBuffer len) = .ok s ∧
      ((s.decision = .noSelection ∧
          r = ⟨{ device with hashBuffer := s.buffer }, .noSelection, none, false⟩) ∨
        (∃ hashId, s.decision = .dropped hashId ∧
          r = ⟨{ device with
                  hashBuffer := s.buffer
                  packetsDropped := u32 (device.packetsDropped + 1) },
                .dropped hashId, none, false⟩) ∨
        (∃ hashId, s.decision = .selected hashId ∧
          run m (handleSelected o ts { device with hashBuffer := s.buffer } hashId
            s.offsets s.layers) = .ok r)) := by
  obtain ⟨s, hs, hr⟩ := (run_bind_eq_ok _).mp h
  refine ⟨s, hs, ?_⟩
  cases hd : s.decision with
  | unsupported =>
      -- the range test never answers so
      obtain ⟨bytes, -, -, -, htest⟩ := selectPacket_cases hs
      rw [hd, rangeTest] at htest
      split at htest
      · cases htest
      · dsimp only at htest
        split at htest <;> cases htest
  | noSelection =>
      simp only [hd] at hr
      exact Or.inl ⟨rfl, (Except.ok.inj hr).symm⟩
  | dropped hashId =>
      simp only [hd] at hr
      exact Or.inr (Or.inl ⟨hashId, rfl, (Except.ok.inj hr).symm⟩)
  | selected hashId =>
      simp only [hd] at hr
      exact Or.inr (Or.inr ⟨hashId, rfl, hr⟩)

/-- An IP packet is handled behind its link header. -/
theorem handlePacket_ip {caplen nt : Nat} (hnt : run m (nettype device caplen) = .ok nt)
    (hip : isIpType nt = true) :
    run m (handlePacket o ts caplen device)
      = run (fun i => m ((networkPacket o device caplen).ptr + i))
          (handleIpPacket o ts (countPacket device) (networkPacket o device caplen).len) := by
  show run m ((nettype device caplen).bind _) = _
  rw [run_bind_ok m hnt, if_pos hip]
  exact run_rebase m _ _

theorem handlePacket_other {caplen nt : Nat}
    (hnt : run m (nettype device caplen) = .ok nt) (hip : isIpType nt = false) :
    run m (handlePacket o ts caplen device)
      = .ok ⟨countPacket device, .unsupported, none, false⟩ := by
  show run m ((nettype device caplen).bind _) = _
  rw [run_bind_ok m hnt, if_neg (by rw [hip]; decide)]
  rfl

/-- What `handle_packet` can do. -/
theorem handlePacket_cases {caplen : Nat} {r : Handled}
    (h : run m (handlePacket o ts caplen device) = .ok r) :
    ∃ nt, run m (nettype device caplen) = .ok nt ∧
      ((isIpType nt = false ∧ r = ⟨countPacket device, .unsupported, none, false⟩) ∨
        (isIpType nt = true ∧
          run (fun i => m ((networkPacket o device caplen).ptr + i))
            (handleIpPacket o ts (countPacket device) (networkPacket o device caplen).len)
              = .ok r)) := by
  obtain ⟨nt, hnt, -⟩ := (run_bind_eq_ok _).mp h
  have hnt' : run m (nettype device caplen) = .ok nt := hnt
  refine ⟨nt, hnt', ?_⟩
  cases hip : isIpType nt with
  | false =>
      rw [handlePacket_other hnt' hip] at h
      exact Or.inl ⟨rfl, (Except.ok.inj h).symm⟩
  | true =>
      rw [handlePacket_ip hnt' hip] at h
      exact Or.inr ⟨rfl, h⟩

/-- The end of the selected branch hands out its record, and clears counters at most. -/
theorem exportRecord_eq (o : Options) (device : DeviceDev) (decision : Decision)
    (record : Record) : ∃ count flushed, exportRecord o device decision record =
      ⟨{ device with exportPacketCount := count, packetsDropped := 0 }, decision, some record,
        flushed⟩ := by
  rw [exportRecord]
  split
  · exact ⟨0, true, rfl⟩
  · exact ⟨device.exportPacketCount, false, rfl⟩

theorem exportRecord_exported (o : Options) (device : DeviceDev) (decision : Decision)
    (record : Record) : (exportRecord o device decision record).exported = some record := by
  obtain ⟨count, flushed, heq⟩ := exportRecord_eq o device decision record
  rw [heq]

theorem exportRecord_decision (o : Options) (device : DeviceDev) (decision : Decision)
    (record : Record) : (exportRecord o device decision record).decision = decision := by
  obtain ⟨count, flushed, heq⟩ := exportRecord_eq o device decision record
  rw [heq]

/-- Selected or not, the device keeps the buffer and the decision of the
    selection stage. -/
theorem handleIpPacket_selection {len : Nat} {r : Handled}
    (h : run m (handleIpPacket o ts device len) = .ok r) :
    ∃ s, run m (selectPacket o device.hashBuffer len) = .ok s ∧
      r.decision = s.decision ∧ r.device.hashBuffer = s.buffer := by
  obtain ⟨s, hs, ⟨hd, rfl⟩ | ⟨hashId, hd, rfl⟩ | ⟨hashId, hd, hr⟩⟩ := handleIpPacket_cases h
  · exact ⟨s, hs, hd.symm, rfl⟩
  · exact ⟨s, hs, hd.symm, rfl⟩
  · refine ⟨s, hs, ?_⟩
    rcases handleSelected_cases hr with rfl | ⟨fields, -, rfl⟩
    · exact ⟨hd.symm, rfl⟩
    · obtain ⟨count, flushed, heq⟩ := exportRecord_eq o (countSelected
        { device with hashBuffer := s.buffer }) (.selected hashId) ⟨_, fields⟩
      rw [heq]
      exact ⟨hd.symm, rfl⟩

/-- `packetDecision` is the decision `handle_packet` takes. -/
theorem handlePacket_decision {caplen : Nat} {r : Handled}
    (h : run m (handlePacket o ts caplen device) = .ok r) :
    run m (packetDecision o caplen device) = .ok r.decision := by
  obtain ⟨nt, hnt, ⟨hip, rfl⟩ | ⟨hip, hr⟩⟩ := handlePacket_cases h
  · show run m ((nettype device caplen).bind _) = _
    rw [run_bind_ok m hnt, if_neg (by rw [hip]; decide)]
    rfl
  · obtain ⟨s, hs, hdec, -⟩ := handleIpPacket_selection hr
    have hs' : run m ((selectPacket o device.hashBuffer
        (networkPacket o device caplen).len).rebase (networkPacket o device caplen).ptr)
          = .ok s := (run_rebase m _ _).trans hs
    show run m ((nettype device caplen).bind _) = _
    rw [run_bind_ok m hnt, if_pos hip, hdec]
    exact run_bind_ok m hs' _

/-- One packet raises the high-water mark to the extent of its pieces, kept or
    not, and leaves the buffer's size. -/
theorem selectPacket_written {b : Buffer} {len : Nat} {s : Selection}
    (h : run m (selectPacket o b len) = .ok s) :
    s.buffer.size = b.size ∧
      s.buffer.written = max b.written
        (extent (pieces o.selectionFunction o.rSel len b.size s.offsets s.layers)) := by
  obtain ⟨bytes, -, hbytes, hbuf, -⟩ := selectPacket_cases h
  have hlen := (blocks_triple (P := fun _ => True) _ (fun _ _ _ _ _ => trivial)).2 bytes hbytes
  rw [hbuf, ← hlen]
  split
  · refine ⟨rfl, ?_⟩
    rw [Buffer.append_written, Buffer.reset_len, Buffer.reset_written, Nat.zero_add]
  · refine ⟨rfl, ?_⟩
    rw [Buffer.reset_written, Buffer.append_written, Buffer.reset_len,
      Buffer.reset_written, Nat.zero_add]

/-- What no packet changes: where the packets of a device come from, and the
    size of its hash buffer. -/
structure SameSetup (d d' : DeviceDev) : Prop where
  deviceType : d'.deviceType = d.deviceType
  linkType : d'.linkType = d.linkType
  pktOffset : d'.pktOffset = d.pktOffset
  size : d'.hashBuffer.size = d.hashBuffer.size

theorem SameSetup.trans {d d' d'' : DeviceDev} (h : SameSetup d d')
    (h' : SameSetup d' d'') : SameSetup d d'' :=
  ⟨h'.deviceType.trans h.deviceType, h'.linkType.trans h.linkType,
    h'.pktOffset.trans h.pktOffset, h'.size.trans h.size⟩

/-- **WHAT A PACKET CHANGES** — the hash buffer, but for its size, and counters. -/
theorem handlePacket_frame {caplen : Nat} {r : Handled}
    (h : run m (handlePacket o ts caplen device) = .ok r) :
    ∃ buffer count total dropped size delta, buffer.size = device.hashBuffer.size ∧
      r.device = { device with
        hashBuffer := buffer
        exportPacketCount := count
        totalpacketcount := total
        packetsDropped := dropped
        samplingSize := size
        samplingDeltaCount := delta } := by
  obtain ⟨nt, -, ⟨-, rfl⟩ | ⟨-, hr⟩⟩ := handlePacket_cases h
  · exact ⟨_, _, _, _, _, _, rfl, rfl⟩
  · obtain ⟨s, hs, ⟨-, rfl⟩ | ⟨hashId, -, rfl⟩ | ⟨hashId, -, hr⟩⟩ := handleIpPacket_cases hr
    · exact ⟨_, _, _, _, _, _, (selectPacket_written hs).1, rfl⟩
    · exact ⟨_, _, _, _, _, _, (selectPacket_written hs).1, rfl⟩
    · rcases handleSelected_cases hr with rfl | ⟨fields, -, rfl⟩
      · exact ⟨_, _, _, _, _, _, (selectPacket_written hs).1, rfl⟩
      · obtain ⟨count, flushed, heq⟩ := exportRecord_eq o (countSelected
          { countPacket device with hashBuffer := s.buffer }) (.selected hashId) ⟨_, fields⟩
        rw [heq]
        exact ⟨_, _, _, _, _, _, (selectPacket_written hs).1, rfl⟩

theorem handlePacket_setup {caplen : Nat} {r : Handled}
    (h : run m (handlePacket o ts caplen device) = .ok r) : SameSetup device r.device := by
  obtain ⟨buffer, count, total, dropped, size, delta, hsize, hdevice⟩ := handlePacket_frame h
  rw [hdevice]
  exact ⟨rfl, rfl, rfl, hsize⟩

/-- **THE COUNTERS** — every packet counts once, and once more in
    `sampling_size` if it is selected. -/
theorem handlePacket_counters {caplen : Nat} {r : Handled}
    (h : run m (handlePacket o ts caplen device) = .ok r) :
    r.device.totalpacketcount = device.totalpacketcount + 1 ∧
      r.device.samplingDeltaCount = device.samplingDeltaCount + 1 ∧
      r.device.samplingSize =
        if r.decision.isSelected then u32 (device.samplingSize + 1)
        else device.samplingSize := by
  obtain ⟨nt, -, ⟨-, rfl⟩ | ⟨-, hr⟩⟩ := handlePacket_cases h
  · exact ⟨rfl, rfl, rfl⟩
  · obtain ⟨s, -, ⟨hd, rfl⟩ | ⟨hashId, hd, rfl⟩ | ⟨hashId, -, hr⟩⟩ := handleIpPacket_cases hr
    · exact ⟨rfl, rfl, rfl⟩
    · exact ⟨rfl, rfl, rfl⟩
    · rcases handleSelected_cases hr with rfl | ⟨fields, -, rfl⟩
      · exact ⟨rfl, rfl, rfl⟩
      · -- the flush clears the export counter and nothing else
        obtain ⟨count, flushed, heq⟩ := exportRecord_eq o (countSelected
          { countPacket device with hashBuffer := s.buffer }) (.selected hashId) ⟨_, fields⟩
        rw [heq]
        exact ⟨rfl, rfl, rfl⟩

/-! ## Any number of packets -/

/-- A call of `handle_packet`: the options in force, the time stamp, and the
    captured bytes with what lies behind them. -/
structure Arrival where
  options : Options
  ts : Timeval
  caplen : Nat
  frame : Nat → Option UInt8

/-- One call. -/
def Arrival.handle (a : Arrival) (device : DeviceDev) : Except Fault Handled :=
  run a.frame (handlePacket a.options a.ts a.caplen device)

/-- `Receives d as d'`: the device `d` receives the packets `as` and is left as `d'`. -/
inductive Receives : DeviceDev → List Arrival → DeviceDev → Prop where
  | nil (d : DeviceDev) : Receives d [] d
  | cons {d d' : DeviceDev} {a : Arrival} {as : List Arrival} {r : Handled} :
      a.handle d = .ok r → Receives r.device as d' → Receives d (a :: as) d'

theorem receives_setup {d d' : DeviceDev} {as : List Arrival} (h : Receives d as d') :
    SameSetup d d' := by
  induction h with
  | nil d => exact ⟨rfl, rfl, rfl, rfl⟩
  | cons hr _ ih => exact (handlePacket_setup hr).trans ih

end Impd4e.Traffic
