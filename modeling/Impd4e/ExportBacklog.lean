import Impd4e.TemplateAgreement

/-! # The export backlog

    Packet records wait in the one buffer of libipfix for the next flush.  A
    device counts its selected packets and flushes when it has counted `-e` of
    them; the timers and the commands flush as well, without a look at these
    counters.  So a device never has more records waiting than it has counted,
    and where the export is off by `-I 0` it has none. -/

namespace Impd4e.ExportBacklog

open ReadProg Impd4e.CString Impd4e.PacketHandler Impd4e.Traffic Impd4e.CmdLine
  Impd4e.ConfigHandler Impd4e.EventLoop Impd4e.TemplateAgreement
open Impd4e.ExportHandler (maxInterfaces Devices)

/-! ## Records that wait -/

/-- The records of the device `i` that wait behind one output more. -/
def waiting (i : Fin maxInterfaces) (n : Nat) : Output → Nat
  | .exported (.record j _) => if j = i then n + 1 else n
  | .exported .exportFlush => 0
  | .exported (.decided _ _) => n
  | .exported (.interfaceStats _ _) => n
  | .timer _ _ => n
  | .probeStats => n
  | .location => n
  | .sync _ _ => n
  | .reply _ => n

/-- The packet records of the device `i` handed to `ipfix_export_array` since
    the last flush. -/
def backlog (i : Fin maxInterfaces) (out : List Output) : Nat := out.foldl (waiting i) 0

variable {i : Fin maxInterfaces} {p p' : Probe} {e : Event} {out out' : List Output}

theorem foldl_waiting_le (h : Quiet out) (n : Nat) : out.foldl (waiting i) n ≤ n := by
  induction out generalizing n with
  | nil => exact Nat.le_refl n
  | cons o out ih =>
      have hrest : Quiet out := fun o' ho' => h o' (List.mem_cons_of_mem o ho')
      have hhead : waiting i n o ≤ n := by
        cases o with
        | exported output =>
            cases output with
            | record j record => exact absurd rfl (h _ (List.mem_cons_self ..) j record)
            | exportFlush => exact Nat.zero_le n
            | decided j decision => exact Nat.le_refl n
            | interfaceStats j stats => exact Nat.le_refl n
        | timer timer period => exact Nat.le_refl n
        | probeStats => exact Nat.le_refl n
        | location => exact Nat.le_refl n
        | sync j message => exact Nat.le_refl n
        | reply message => exact Nat.le_refl n
      exact (ih hrest _).trans hhead

/-- What is no packet record leaves the backlog or flushes it. -/
theorem backlog_quiet (h : Quiet out') : backlog i (out ++ out') ≤ backlog i out := by
  rw [backlog, List.foldl_append]
  exact foldl_waiting_le h _

/-- A packet adds its record, and may flush. -/
theorem backlog_received (j : Fin maxInterfaces) (r : Handled) :
    backlog i (out ++ (received j r).map Output.exported) =
      if r.flushed then 0
      else if j = i ∧ r.exported.isSome then backlog i out + 1 else backlog i out := by
  rw [backlog, List.foldl_append, received]
  cases hexp : r.exported with
  | none =>
      cases hflush : r.flushed with
      | true => rfl
      | false => simp [waiting, backlog]
  | some record =>
      cases hflush : r.flushed with
      | true => rfl
      | false => simp [waiting, backlog]

/-! ## What a packet does to the counter -/

/-- With the gate closed nothing is exported; with the gate open a packet
    leaves the counter, or counts itself and its record, and flushes when the
    counter has reached the flush count. -/
inductive Counted (o : Options) (device : DeviceDev) (r : Handled) : Prop where
  | closed : o.exportPktidInterval ≤ 0 → r.exported = none → r.flushed = false →
      Counted o device r
  | passed : ¬ o.exportPktidInterval ≤ 0 → r.exported = none → r.flushed = false →
      r.device.exportPacketCount = device.exportPacketCount → Counted o device r
  | kept : ¬ o.exportPktidInterval ≤ 0 → r.flushed = false →
      r.device.exportPacketCount = u32 (device.exportPacketCount + 1) →
      r.device.exportPacketCount < o.exportPacketCount → Counted o device r
  | flushed : ¬ o.exportPktidInterval ≤ 0 → r.flushed = true →
      r.device.exportPacketCount = 0 → Counted o device r

theorem handle_counted {o : Options} {ts : Timeval} {caplen : Nat} {frame : Nat → Option UInt8}
    {device : DeviceDev} {r : Handled} (hid : Known (effectiveTemplate o device))
    (h : Arrival.handle ⟨o, ts, caplen, frame⟩ device = .ok r) : Counted o device r := by
  -- a packet that is not selected
  have unselected : r.exported = none → r.flushed = false →
      r.device.exportPacketCount = device.exportPacketCount → Counted o device r := by
    intro hexp hflush hcount
    by_cases hgate : o.exportPktidInterval ≤ 0
    · exact .closed hgate hexp hflush
    · exact .passed hgate hexp hflush hcount
  obtain ⟨nt, -, ⟨-, rfl⟩ | ⟨-, hr⟩⟩ := handlePacket_cases h
  · exact unselected rfl rfl rfl
  · obtain ⟨s, -, ⟨-, rfl⟩ | ⟨hashId, -, rfl⟩ | ⟨hashId, -, hr⟩⟩ := handleIpPacket_cases hr
    · exact unselected rfl rfl rfl
    · exact unselected rfl rfl rfl
    · by_cases hgate : o.exportPktidInterval ≤ 0
      · obtain rfl := handleSelected_closed hgate hr
        exact .closed hgate rfl rfl
      · have hid' : Known (effectiveTemplate o
            { countPacket device with hashBuffer := s.buffer }) := hid
        obtain ⟨fields, rfl⟩ := handleSelected_open hgate hid'.agrees hr
        rw [exportRecord]
        split
        · exact .flushed hgate rfl rfl
        · rename_i hlt
          exact .kept hgate rfl rfl (not_le.mp hlt)

/-! ## The books of all devices -/

/-- Every device has counted at least the records that wait for it, and fewer
    than the flush count; a device that exports nothing has none waiting. -/
structure Booked (p : Probe) (out : List Output) : Prop where
  templates : TemplatesKnown p.options p.devices
  pos : 0 < p.options.exportPacketCount
  fits : p.options.exportPacketCount < 4294967296
  counted : ¬ p.options.exportPktidInterval ≤ 0 → ∀ i : Fin maxInterfaces,
    i.val < p.options.numberInterfaces →
      backlog i out ≤ (p.devices i).exportPacketCount ∧
      (p.devices i).exportPacketCount < p.options.exportPacketCount
  idle : ∀ i : Fin maxInterfaces,
    p.options.exportPktidInterval ≤ 0 ∨ p.options.numberInterfaces ≤ i.val → backlog i out = 0

theorem Booked.backlog_lt (h : Booked p out) (i : Fin maxInterfaces) :
    backlog i out < p.options.exportPacketCount := by
  by_cases hi : p.options.exportPktidInterval ≤ 0 ∨ p.options.numberInterfaces ≤ i.val
  · rw [h.idle i hi]
    exact h.pos
  · obtain ⟨hgate, hi⟩ := not_or.mp hi
    obtain ⟨hle, hlt⟩ := h.counted hgate i (not_le.mp hi)
    exact hle.trans_lt hlt

/-- Events that are no packet only flush. -/
theorem Booked.of_quiet (h : Booked p out) (hquiet : Quiet out')
    (htemplates : TemplatesKnown p'.options p'.devices)
    (hn : p'.options.numberInterfaces = p.options.numberInterfaces)
    (he : p'.options.exportPacketCount = p.options.exportPacketCount)
    (hgate : p'.options.exportPktidInterval = p.options.exportPktidInterval)
    (hcount : ∀ i, (p'.devices i).exportPacketCount = (p.devices i).exportPacketCount) :
    Booked p' (out ++ out') where
  templates := htemplates
  pos := he ▸ h.pos
  fits := he ▸ h.fits
  counted hopen i hi := by
    obtain ⟨hle, hlt⟩ := h.counted (hgate ▸ hopen) i (hn ▸ hi)
    rw [hcount, he]
    exact ⟨(backlog_quiet hquiet).trans hle, hlt⟩
  idle i hi := by
    rw [hn, hgate] at hi
    exact Nat.le_zero.mp ((backlog_quiet hquiet).trans_eq (h.idle i hi))

theorem Booked.of_packet {ts : Timeval} {caplen : Nat} {frame : Nat → Option UInt8} {r : Handled}
    (h : Booked p out) (hi : i.val < p.options.numberInterfaces)
    (hr : Arrival.handle ⟨p.options, ts, caplen, frame⟩ (p.devices i) = .ok r)
    (htemplates : TemplatesKnown p.options (Function.update p.devices i r.device)) :
    Booked { p with devices := Function.update p.devices i r.device }
      (out ++ (received i r).map Output.exported) := by
  have hcounted := handle_counted (h.templates.effective hi) hr
  -- a flush empties the backlog of every device, a record adds to that of its own
  refine ⟨htemplates, h.pos, h.fits, fun hgate => ?_, fun j hj => ?_⟩
  · refine (Function.forall_update_iff p.devices fun (j : Fin maxInterfaces) dev =>
      j.val < p.options.numberInterfaces →
        backlog j (out ++ (received i r).map Output.exported) ≤ dev.exportPacketCount ∧
        dev.exportPacketCount < p.options.exportPacketCount).mpr ⟨fun _ => ?_, fun j hji hj => ?_⟩
    · obtain ⟨hle, hlt⟩ := h.counted hgate i hi
      rw [backlog_received]
      cases hcounted with
      | closed hclosed => exact absurd hclosed hgate
      | passed _ hexp hflush hcount =>
          rw [hexp, hflush, hcount, if_neg Bool.false_ne_true, if_neg fun h => by cases h.2]
          exact ⟨hle, hlt⟩
      | kept _ hflush hcount hkept =>
          have hwrap : u32 ((p.devices i).exportPacketCount + 1)
              = (p.devices i).exportPacketCount + 1 :=
            Nat.mod_eq_of_lt ((Nat.succ_le_of_lt hlt).trans_lt h.fits)
          refine ⟨?_, hkept⟩
          rw [hflush, hcount, hwrap, if_neg Bool.false_ne_true]
          split
          · exact Nat.succ_le_succ hle
          · exact hle.trans (Nat.le_succ _)
      | flushed _ hflush hcount =>
          rw [hflush, hcount, if_pos rfl]
          exact ⟨Nat.le_refl 0, h.pos⟩
    · obtain ⟨hle, hlt⟩ := h.counted hgate j hj
      refine ⟨?_, hlt⟩
      rw [backlog_received]
      split
      · exact Nat.zero_le _
      · rw [if_neg fun hij => hji hij.1.symm]
        exact hle
  · rw [backlog_received]
    split
    · rfl
    · have hnone : ¬ (i = j ∧ r.exported.isSome) := by
        rintro ⟨rfl, hsome⟩
        rcases hj with hclosed | hge
        · cases hcounted with
          | closed _ hexp => rw [hexp] at hsome; cases hsome
          | passed hgate => exact absurd hclosed hgate
          | kept hgate => exact absurd hclosed hgate
          | flushed hgate => exact absurd hclosed hgate
        · exact absurd hi (not_lt.mpr hge)
      rw [if_neg hnone]
      exact h.idle j hj

theorem step_booked [Libev] (hp : Booked p out) (h : step p e = .ok (p', out')) :
    Booked p' (out ++ out') := by
  have htemplates := (step_known hp.templates h).1
  obtain ⟨i, ts, caplen, frame, r, rfl, hi, hr, rfl, rfl⟩ | ⟨hticked, hquiet⟩ | ⟨hconf, hquiet⟩ :=
    step_cases h
  · exact hp.of_packet hi hr htemplates
  · refine hp.of_quiet hquiet htemplates ?_ ?_ ?_ fun i => ?_
    · rw [hticked.options]
    · rw [hticked.options]
    · rw [hticked.options]
    · obtain ⟨size, delta, hdev⟩ := hticked.devices i
      rw [hdev]
  · obtain ⟨templateID, selRangeMin, selRangeMax, hoptions⟩ := hconf.options
    refine hp.of_quiet hquiet htemplates ?_ ?_ ?_ fun i => ?_
    · rw [hoptions]
    · rw [hoptions]
    · rw [hoptions]
    · rcases hconf.templates with ⟨-, hdevices⟩ | ⟨msg, -, hdevices⟩
      · rw [hdevices]
      · rw [hdevices]
        split <;> rfl

/-! ## The start -/

/-- A flush count of 32 bits, and counters at zero. -/
structure Unused (c : Config) : Prop where
  fits : c.options.exportPacketCount < 4294967296
  zero : ∀ i : Fin maxInterfaces, i.val < c.options.numberInterfaces →
    (c.devices i).exportPacketCount = 0

theorem apply_unused {c c' : Config} {o : Opt} (hc : Unused c) (h : o.apply c = some c') :
    Unused c' := by
  cases o with
  | i arg =>
      rcases opt_i_cases h with ⟨-, rfl⟩ | ⟨hlt, letter, rest, hoptions, hdevices, -⟩
      · exact hc
      · refine ⟨by rw [hoptions]; exact hc.fits, ?_⟩
        rw [hoptions, hdevices]
        refine (Function.forall_update_iff c.devices fun (j : Fin maxInterfaces) dev =>
          j.val < c.options.numberInterfaces + 1 → dev.exportPacketCount = 0).mpr
            ⟨fun _ => namedDevice_exportPacketCount .., fun j hne hj => ?_⟩
        exact hc.zero j (Nat.lt_of_le_of_ne (Nat.le_of_lt_succ hj) fun heq => hne (Fin.ext heq))
  | t arg =>
      obtain rfl := Option.some.inj h
      refine ⟨by rw [opt_t_options]; exact hc.fits, ?_⟩
      rw [opt_t_options]
      by_cases hfull : c.tIdx = maxInterfaces
      · rw [(opt_t_of_eq hfull).1]
        exact hc.zero
      · rw [(opt_t_of_lt (Nat.lt_of_le_of_ne c.tIdx_le hfull)).1]
        exact (Function.forall_update_iff c.devices fun (j : Fin maxInterfaces) dev =>
          j.val < c.options.numberInterfaces → dev.exportPacketCount = 0).mpr
            ⟨fun hj => hc.zero _ hj, fun j _ => hc.zero j⟩
  | N arg =>
      obtain rfl := Option.some.inj h
      exact ⟨hc.fits, hc.zero⟩
  | e arg =>
      obtain rfl := Option.some.inj h
      refine ⟨?_, hc.zero⟩
      show (atoi arg % 4294967296).toNat < 4294967296
      omega
  | I arg =>
      obtain rfl := Option.some.inj h
      exact ⟨hc.fits, hc.zero⟩
  | J arg =>
      obtain rfl := Option.some.inj h
      exact ⟨hc.fits, hc.zero⟩
  | K arg =>
      obtain rfl := Option.some.inj h
      exact ⟨hc.fits, hc.zero⟩

theorem parseCmdlineV2_unused {calcHashValueBob : HashFunction} {os : List Opt} {c : Config}
    (h : parseCmdlineV2 (defaults calcHashValueBob) os = some c) : Unused c := by
  refine parseCmdlineV2_rule (P := Unused) ⟨?_, fun _ hi => absurd hi (Nat.not_lt_zero _)⟩
    ?_ h
  · show 1000 < 4294967296
    decide
  intro c o c' hc happly
  exact apply_unused hc happly

theorem started_booked [Libev] {c : Config} (hp : Started c p) (hc : Unused c)
    (htemplates : TemplatesKnown c.options c.devices) (hpos : 0 < c.options.exportPacketCount) :
    Booked p [] where
  templates := started_known hp htemplates
  pos := hp.exportPacketCount ▸ hpos
  fits := hp.exportPacketCount ▸ hc.fits
  counted _ i hi := by
    rw [hp.numberInterfaces] at hi
    obtain ⟨opening, hopen⟩ := hp.opened i hi
    obtain ⟨linkType, pktOffset, ipv4Address, hdev⟩ := openDevice_eq opening (c.devices i)
    rw [hopen] at hdev
    have hzero : (p.devices i).exportPacketCount = 0 := by
      rw [show p.devices i = _ from hdev]
      exact hc.zero i hi
    rw [hzero, hp.exportPacketCount]
    exact ⟨Nat.le_refl 0, hpos⟩
  idle _ _ := rfl

/-- **THE BACKLOG IS BOUNDED** — behind any options with a flush count of at
    least 1 and any events, every device has fewer records waiting than that. -/
theorem backlog_bounded [Libev] {calcHashValueBob : HashFunction} {os : List Opt} {c : Config}
    {es : List Event} (hc : parseCmdlineV2 (defaults calcHashValueBob) os = some c)
    (he : 1 ≤ c.options.exportPacketCount) (hp : Started c p)
    (h : Machine.run probe p es = some (p', out)) (i : Fin maxInterfaces) :
    backlog i out < c.options.exportPacketCount := by
  have hstart : Booked p [] :=
    started_booked hp (parseCmdlineV2_unused hc) (parseCmdlineV2_known hc) he
  have hrun : Booked p' out ∧
      p'.options.exportPacketCount = c.options.exportPacketCount := by
    refine Machine.run_rule (P := fun _ q out => Booked q out ∧
      q.options.exportPacketCount = c.options.exportPacketCount)
      ⟨hstart, hp.exportPacketCount⟩ ?_ h
    intro _ q out e q' out' ih hstep
    have hok := probe_eq_some.mp hstep
    refine ⟨step_booked ih.1 hok, ?_⟩
    obtain ⟨templateID, selRangeMin, selRangeMax, hoptions⟩ := step_options hok
    rw [hoptions]
    exact ih.2
  rw [← hrun.2]
  exact hrun.1.backlog_lt i

open scoped Libev.Repeating

/-- A flush count of two, and a socket. -/
def flushAtTwo : List Opt := [.e (str "2"), .i (str "u:x")]

def flushConfig : Config :=
  (parseCmdlineV2 (defaults fun _ => 0x20000000) flushAtTwo).getD (defaults fun _ => 0)

def flushProbe : Probe := startUp (fun _ => ⟨.raw, ⟨0, 0, 0, 0⟩, none, 3⟩) 0 flushConfig

/-- One record waits, which is fewer than two. -/
theorem backlog_bounded_two :
    ∃ p' out, Machine.run probe flushProbe [udpPacket] = some (p', out) ∧ backlog 0 out = 1 ∧
      backlog 0 out < 2 := by
  obtain ⟨r, hr, hexp, hflush⟩ : ∃ r, Arrival.handle
      ⟨flushProbe.options, ⟨1, 0⟩, 28, ofList Datagrams.udpDatagram.bytes⟩
      (flushProbe.devices 0) = .ok r ∧ r.exported.isSome = true ∧ r.flushed = false :=
    ⟨_, (@handlePacket_ip _ _ _ _ _ 0x0800 rfl rfl).trans rfl, rfl, rfl⟩
  have hpacket := probe_eq_some.mpr (step_packet (i := 0) (by decide) hr)
  have hrun : Machine.run probe flushProbe [udpPacket] = some (_, _) :=
    Machine.run_cons_eq_some.mpr ⟨_, _, [], hpacket, rfl, rfl⟩
  have hc : parseCmdlineV2 (defaults fun _ => 0x20000000) flushAtTwo = some flushConfig := rfl
  refine ⟨_, _, hrun, ?_, backlog_bounded hc (by decide) (startUp_started _ _ _) hrun 0⟩
  have hone := @backlog_received 0 [] 0 r
  rw [List.append_nil]
  rwa [List.nil_append, hflush, hexp] at hone

end Impd4e.ExportBacklog
