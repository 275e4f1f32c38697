import Impd4e.Dissector

/-! # In which order the layers are reported

    `findHeaders` takes the transport offset from the sender's header length and
    the payload offset from the sender's data offset, and skips the latter when
    the capture ends in front of it.  `LayersOrdered` is what the users of the
    offsets rely on: no layer points back into a lower header.
    `layersOrdered_iff` says which length fields and which captures keep it. -/

namespace Impd4e.LayerOffsets

open ReadProg Impd4e.Hash Impd4e.Dissector

variable {m : Nat → Option UInt8}

/-! ## Fixed headers -/

/-- The fixed part of an IP header. -/
def ipHlen : NetProt → Nat
  | .unknown => 0
  | .ip => 20
  | .ip6 => 40

/-- The fixed header of the protocols whose payload is reported. -/
def transHlen (proto : UInt8) : Option Nat :=
  if proto = tIcmp then some 4
  else if proto = tIcmp6 then some 4
  else if proto = tUdp then some 8
  else if proto = tTcp then some 20
  else none

/-! ## What the suffix steps over -/

/-- The data offset of a TCP header, in bytes. -/
def dataOffset (b : UInt8) : Nat := ((b &&& 0xF0) >>> 2).toNat

/-- What `findHeaders` adds to the transport offset of a protocol; nothing is
    reported behind a protocol it does not support. -/
inductive StepsOver (m : Nat → Option UInt8) (packetLength offs : Nat) :
    UInt8 → Option Nat → Prop where
  | icmp : StepsOver m packetLength offs tIcmp (some icmpHlen)
  | icmp6 : StepsOver m packetLength offs tIcmp6 (some icmp6Hlen)
  | udp : StepsOver m packetLength offs tUdp (some udpHlen)
  | tcp {b : UInt8} : offs + 12 ≤ packetLength → m (offs + 12) = some b →
      StepsOver m packetLength offs tTcp (some (dataOffset b))
  | cutTcp : packetLength < offs + 12 → StepsOver m packetLength offs tTcp (some 0)
  | other {proto : UInt8} : transHlen proto = none →
      StepsOver m packetLength offs proto none

/-- The offsets reported for a transport header at `offs`. -/
def reported (packetLength offs : Nat) (headerOffset : HeaderOffset) :
    Option Nat → HeaderOffset
  | none => { headerOffset with trans := offs }
  | some hlen => findPayload packetLength (offs + hlen) { headerOffset with trans := offs }

section Reported

variable {packetLength offs : Nat} {headerOffset : HeaderOffset}

theorem reported_trans (step : Option Nat) :
    (reported packetLength offs headerOffset step).trans = offs := by
  cases step with
  | none => rfl
  | some hlen =>
      rw [reported, findPayload]
      split
      · rfl
      · rfl

/-- The payload offset is the step, when it stays inside the capture. -/
theorem reported_payload (hnone : headerOffset.payload = absent)
    (hlen : packetLength < absent) (step : Option Nat) :
    (reported packetLength offs headerOffset step).payload ≠ absent ↔
      ∃ hlen, step = some hlen ∧ offs + hlen < packetLength := by
  cases step with
  | none =>
      refine iff_of_false (fun h => h hnone) ?_
      rintro ⟨hlen, h, -⟩
      cases h
  | some hlen =>
      rw [reported, findPayload]
      by_cases hin : offs + hlen < packetLength
      · rw [if_pos hin]
        refine iff_of_true ?_ ⟨hlen, rfl, hin⟩
        show offs + hlen ≠ absent
        omega
      · rw [if_neg hin]
        refine iff_of_false (fun h => h hnone) ?_
        rintro ⟨hlen', h, hin'⟩
        obtain rfl := Option.some.inj h
        exact hin hin'

theorem reported_payload_eq {hlen : Nat} (hin : offs + hlen < packetLength) :
    (reported packetLength offs headerOffset (some hlen)).payload = offs + hlen := by
  rw [reported, findPayload, if_pos hin]

end Reported

/-- The suffix, case by case. -/
theorem findTransport_steps {packetLength offs : Nat} {proto : UInt8}
    {headerOffset : HeaderOffset} {layers : Layers} {r : HeaderOffset × Layers}
    (hin : offs < packetLength)
    (h : run m (findTransport packetLength offs proto headerOffset layers) = .ok r) :
    ∃ step, StepsOver m packetLength offs proto step ∧
      r = (reported packetLength offs headerOffset step, { layers with trans := proto }) := by
  rw [findTransport, if_pos hin] at h
  by_cases hicmp : proto = tIcmp
  · subst hicmp
    exact ⟨_, .icmp, (Except.ok.inj h).symm⟩
  rw [if_neg hicmp] at h
  by_cases hicmp6 : proto = tIcmp6
  · subst hicmp6
    exact ⟨_, .icmp6, (Except.ok.inj h).symm⟩
  rw [if_neg hicmp6] at h
  by_cases hudp : proto = tUdp
  · subst hudp
    exact ⟨_, .udp, (Except.ok.inj h).symm⟩
  rw [if_neg hudp] at h
  by_cases htcp : proto = tTcp
  · subst htcp
    rw [if_pos rfl] at h
    by_cases h12 : packetLength ≥ offs + 12
    · rw [if_pos h12] at h
      change run m (.read (offs + 12) _) = _ at h
      cases hb : m (offs + 12) with
      | none =>
          rw [run_read_none m hb] at h
          cases h
      | some b =>
          rw [run_read m hb] at h
          exact ⟨_, .tcp h12 hb, (Except.ok.inj h).symm⟩
    · rw [if_neg h12] at h
      exact ⟨_, .cutTcp (Nat.lt_of_not_ge h12), (Except.ok.inj h).symm⟩
  · rw [if_neg htcp] at h
    have hother : transHlen proto = none := by
      rw [transHlen, if_neg hicmp, if_neg hicmp6, if_neg hudp, if_neg htcp]
    exact ⟨none, .other hother, (Except.ok.inj h).symm⟩

/-! ## Is `layers[L_TRANS]` written? -/

/-- Put another value into `layers[L_TRANS]`. -/
def withTrans (t : UInt8) (layers : Layers) : Layers := { layers with trans := t }

/-- The same result for another initial value: it shows through when there is no
    transport offset. -/
def showThrough (t : UInt8) (r : HeaderOffset × Layers) : HeaderOffset × Layers :=
  if r.1.trans = absent then (r.1, withTrans t r.2) else r

theorem findPayload_trans (packetLength offs : Nat) (headerOffset : HeaderOffset) :
    (findPayload packetLength offs headerOffset).trans = headerOffset.trans := by
  rw [findPayload]
  split
  · rfl
  · rfl

theorem findTransport_withTrans {packetLength : Nat} (hlen : packetLength < absent)
    (offs : Nat) (proto t : UInt8) {headerOffset : HeaderOffset}
    (hnone : headerOffset.trans = absent) (layers : Layers) :
    findTransport packetLength offs proto headerOffset (withTrans t layers)
      = (findTransport packetLength offs proto headerOffset layers).bind
          (fun r => .ret (showThrough t r)) := by
  -- behind the assignment to `headerOffset[L_TRANS]` nothing shows through
  have hwritten : ∀ (headerOffset' : HeaderOffset) (layers' : Layers),
      headerOffset'.trans = offs → offs < packetLength →
      showThrough t (headerOffset', layers') = (headerOffset', layers') := by
    intro headerOffset' layers' htrans hin
    refine if_neg ?_
    show headerOffset'.trans ≠ absent
    omega
  rw [findTransport, findTransport]
  by_cases hin : offs < packetLength
  · rw [if_pos hin, if_pos hin]
    have hfound : ∀ k, (findPayload packetLength k { headerOffset with trans := offs }).trans
        = offs := fun k => findPayload_trans ..
    dsimp only
    split
    · rw [ret_bind, hwritten _ _ (hfound _) hin]
      rfl
    split
    · rw [ret_bind, hwritten _ _ (hfound _) hin]
      rfl
    split
    · rw [ret_bind, hwritten _ _ (hfound _) hin]
      rfl
    split
    · split
      · refine congrArg (ReadProg.read _) (funext fun b => ?_)
        show ReadProg.ret _ = ReadProg.ret (showThrough t _)
        rw [hwritten _ _ (hfound _) hin]
        rfl
      · rw [ret_bind, hwritten _ _ (hfound _) hin]
        rfl
    · rw [ret_bind, hwritten _ _ rfl hin]
      rfl
  · rw [if_neg hin, if_neg hin, ret_bind, showThrough, if_pos hnone]

/-- `findHeaders` never looks at `layers[L_TRANS]`. -/
theorem findHeaders_withTrans {packetLength : Nat} (hlen : packetLength < absent)
    {headerOffset : HeaderOffset} (hnet : headerOffset.net = 0) (t : UInt8)
    (layers : Layers) :
    findHeaders packetLength headerOffset (withTrans t layers)
      = (findHeaders packetLength headerOffset layers).bind
          (fun r => .ret (showThrough t r)) := by
  rw [findHeaders, findHeaders, findHeadersIn_eq hnet, findHeadersIn_eq hnet]
  refine congrArg (ReadProg.read 0) (funext fun first => ?_)
  by_cases h6 : first &&& 0xf0 = 0x60
  · simp only [if_pos h6]
    refine congrArg (ReadProg.read 6) (funext fun proto => ?_)
    show _ = ((skipOptions 0 maxRounds ip6Hlen proto).bind _).bind _
    rw [bind_assoc]
    refine congrArg _ (funext fun s => ?_)
    exact findTransport_withTrans hlen s.1 s.2 t rfl { layers with net := .ip6 }
  · simp only [if_neg h6]
    by_cases h4 : first &&& 0xf0 = 0x40
    · simp only [if_pos h4]
      refine congrArg (ReadProg.read 9) (funext fun proto => ?_)
      exact findTransport_withTrans hlen _ proto t rfl { layers with net := .ip }
    · simp only [if_neg h4]
      have habsent : (cleared headerOffset).trans = absent := rfl
      exact congrArg ReadProg.ret (if_pos habsent).symm

/-! ## Ordered layers -/

/-- What a result of `findHeaders` should satisfy. -/
structure LayersOrdered (m : Nat → Option UInt8) (packetLength : Nat)
    (headerOffset : HeaderOffset) (layers : Layers) (r : HeaderOffset × Layers) : Prop where
  trans : r.1.trans ≠ absent → ipHlen r.2.net ≤ r.1.trans ∧ r.1.trans < packetLength
  payload : r.1.payload ≠ absent →
    r.1.trans ≠ absent ∧ r.1.payload < packetLength ∧
      ∃ hlen, transHlen r.2.trans = some hlen ∧ r.1.trans + hlen ≤ r.1.payload
  untouched : (∀ t, run m (findHeaders packetLength headerOffset (withTrans t layers))
      = .ok (r.1, withTrans t r.2)) ↔ r.1.trans = absent

/-- The length fields in front of the payload are not below the fixed headers,
    and no TCP header is cut in front of its data offset. -/
structure LengthsSound (m : Nat → Option UInt8) (packetLength : Nat) (net : NetProt)
    (offs : Nat) (proto : UInt8) : Prop where
  ihl : net = .ip → 20 ≤ offs
  uncut : proto = tTcp → offs + 12 ≤ packetLength
  dataOffset : proto = tTcp → ∀ b, m (offs + 12) = some b →
    20 ≤ dataOffset b ∨ packetLength ≤ offs + dataOffset b

section Order

variable {packetLength : Nat} {headerOffset : HeaderOffset} {layers : Layers}
  {r : HeaderOffset × Layers}

theorem untouched_iff (hlen : packetLength < absent) (hnet : headerOffset.net = 0)
    (h : run m (findHeaders packetLength headerOffset layers) = .ok r) :
    (∀ t, run m (findHeaders packetLength headerOffset (withTrans t layers))
      = .ok (r.1, withTrans t r.2)) ↔ r.1.trans = absent := by
  have hrun : ∀ t, run m (findHeaders packetLength headerOffset (withTrans t layers))
      = .ok (showThrough t r) := by
    intro t
    rw [findHeaders_withTrans hlen hnet, run_bind_ok m h]
    rfl
  constructor
  · intro hall
    by_contra hsome
    -- a value the code did not write
    have hother := (hrun (r.2.trans + 1)).symm.trans (hall (r.2.trans + 1))
    rw [showThrough, if_neg hsome] at hother
    have hsame : r.2.trans = r.2.trans + 1 :=
      congrArg (fun x => x.2.trans) (Except.ok.inj hother)
    exact absurd hsame.symm (by simp)
  · intro hnone t
    rw [hrun t, showThrough, if_pos hnone]

/-- An IPv6 transport header lies behind the fixed header, whatever the
    extension headers say. -/
theorem transportAt_ip6 {n offs : Nat} {proto : UInt8}
    (ht : TransportAt m n .ip6 offs proto) : 40 ≤ offs := by
  cases ht with
  | ip6 _ _ _ hwalk _ =>
      have hadvance : 40 + 8 * n ≤ offs := walk_advance hwalk
      omega

/-- The payload of a TCP header needs a sound data offset; the other payloads
    stand behind a header of fixed length. -/
theorem steps_sound_iff {offs : Nat} {proto : UInt8} {step : Option Nat}
    (hin : offs < packetLength) (hstep : StepsOver m packetLength offs proto step) :
    (∀ k, step = some k → offs + k < packetLength →
      ∃ hlen, transHlen proto = some hlen ∧ hlen ≤ k) ↔
      (proto = tTcp → offs + 12 ≤ packetLength) ∧
        (proto = tTcp → ∀ b, m (offs + 12) = some b →
          20 ≤ dataOffset b ∨ packetLength ≤ offs + dataOffset b) := by
  cases hstep with
  | icmp =>
      refine iff_of_true ?_ ⟨fun h => absurd h (by decide), fun h => absurd h (by decide)⟩
      intro k hk _
      exact ⟨4, rfl, Nat.le_of_eq (Option.some.inj hk)⟩
  | icmp6 =>
      refine iff_of_true ?_ ⟨fun h => absurd h (by decide), fun h => absurd h (by decide)⟩
      intro k hk _
      exact ⟨4, rfl, Nat.le_of_eq (Option.some.inj hk)⟩
  | udp =>
      refine iff_of_true ?_ ⟨fun h => absurd h (by decide), fun h => absurd h (by decide)⟩
      intro k hk _
      exact ⟨8, rfl, Nat.le_of_eq (Option.some.inj hk)⟩
  | @tcp b h12 hb =>
      constructor
      · intro h
        refine ⟨fun _ => h12, fun _ b' hb' => ?_⟩
        obtain rfl := Option.some.inj (hb.symm.trans hb')
        by_cases hreported : offs + dataOffset b < packetLength
        · obtain ⟨hlen, hfixed, hle⟩ := h _ rfl hreported
          obtain rfl : 20 = hlen := Option.some.inj hfixed
          exact Or.inl hle
        · exact Or.inr (Nat.le_of_not_lt hreported)
      · rintro ⟨-, h⟩ k hk hreported
        obtain rfl := Option.some.inj hk
        refine ⟨20, rfl, ?_⟩
        exact (h rfl b hb).resolve_right (Nat.not_le.mpr hreported)
  -- the cut header steps over nothing, and what it reports is the header itself
  | cutTcp hcut =>
      refine iff_of_false ?_ fun h => absurd (h.1 rfl) (Nat.not_le.mpr hcut)
      intro h
      obtain ⟨hlen, hfixed, hle⟩ := h 0 rfl hin
      obtain rfl : 20 = hlen := Option.some.inj hfixed
      exact absurd hle (by decide)
  | other hnone =>
      have hne : proto ≠ tTcp := by
        rintro rfl
        cases hnone
      refine iff_of_true ?_ ⟨fun h => absurd h hne, fun h => absurd h hne⟩
      intro k hk
      cases hk

/-- At a transport header inside the capture: the offsets are ordered exactly
    when the lengths are sound. -/
theorem reported_ordered_iff (hlen : packetLength < absent) {n offs : Nat} {net : NetProt}
    {proto : UInt8} {step : Option Nat} (ht : TransportAt m n net offs proto)
    (hin : offs < packetLength) (hstep : StepsOver m packetLength offs proto step)
    (hr : r = (reported packetLength offs (cleared headerOffset) step,
      { net := net, trans := proto })) :
    ((r.1.trans ≠ absent → ipHlen r.2.net ≤ r.1.trans ∧ r.1.trans < packetLength) ∧
      (r.1.payload ≠ absent → r.1.trans ≠ absent ∧ r.1.payload < packetLength ∧
        ∃ hlen, transHlen r.2.trans = some hlen ∧ r.1.trans + hlen ≤ r.1.payload)) ↔
      LengthsSound m packetLength net offs proto := by
  have htrans : r.1.trans = offs := by
    rw [hr]
    exact reported_trans step
  have hnet : r.2.net = net := by rw [hr]
  have hproto : r.2.trans = proto := by rw [hr]
  have hsome : offs ≠ absent := by omega
  have hpayload : r.1.payload ≠ absent ↔ ∃ k, step = some k ∧ offs + k < packetLength := by
    rw [hr]
    exact reported_payload rfl hlen step
  have hvalue : ∀ k, step = some k → offs + k < packetLength → r.1.payload = offs + k := by
    rintro k rfl hk
    rw [hr]
    exact reported_payload_eq hk
  rw [htrans, hnet, hproto]
  constructor
  · rintro ⟨hip, htcp⟩
    have hsteps : ∀ k, step = some k → offs + k < packetLength →
        ∃ hlen, transHlen proto = some hlen ∧ hlen ≤ k := by
      intro k hk hkin
      obtain ⟨-, -, hlen, hfixed, hle⟩ := htcp (hpayload.mpr ⟨k, hk, hkin⟩)
      rw [hvalue k hk hkin] at hle
      exact ⟨hlen, hfixed, Nat.le_of_add_le_add_left hle⟩
    obtain ⟨huncut, hoffset⟩ := (steps_sound_iff hin hstep).mp hsteps
    refine ⟨?_, huncut, hoffset⟩
    rintro rfl
    exact (hip hsome).1
  · intro hsound
    have hsteps := (steps_sound_iff hin hstep).mpr ⟨hsound.uncut, hsound.dataOffset⟩
    constructor
    · intro _
      refine ⟨?_, hin⟩
      cases net with
      | unknown => exact Nat.zero_le _
      | ip => exact hsound.ihl rfl
      | ip6 => exact transportAt_ip6 ht
    · intro hreported
      obtain ⟨k, hk, hkin⟩ := hpayload.mp hreported
      obtain ⟨hlen, hfixed, hle⟩ := hsteps k hk hkin
      rw [hvalue k hk hkin]
      exact ⟨hsome, hkin, hlen, hfixed, Nat.add_le_add_left hle offs⟩

theorem layersOrdered_iff_of_net (hlen : packetLength < absent) (hnet : headerOffset.net = 0)
    (h : run m (findHeaders packetLength headerOffset layers) = .ok r) :
    LayersOrdered m packetLength headerOffset layers r ↔
      ∀ n net offs proto, n ≤ maxRounds → TransportAt m n net offs proto →
        offs < packetLength → LengthsSound m packetLength net offs proto := by
  have huntouched := untouched_iff hlen hnet h
  have hfound : ∀ n net offs proto, n ≤ maxRounds → TransportAt m n net offs proto →
      offs < packetLength → ∃ step, StepsOver m packetLength offs proto step ∧
        r = (reported packetLength offs (cleared headerOffset) step,
          { net := net, trans := proto }) := by
    intro n net offs proto hn ht hin
    rw [findHeaders, run_findHeadersIn hnet ht hn] at h
    exact findTransport_steps hin h
  constructor
  · intro hordered n net offs proto hn ht hin
    obtain ⟨step, hstep, hr⟩ := hfound n net offs proto hn ht hin
    exact (reported_ordered_iff hlen ht hin hstep hr).mp ⟨hordered.trans, hordered.payload⟩
  · intro hsound
    rcases transportAt_of_run hnet h with ⟨n, net, offs, proto, hn, ht⟩ | hr
    · by_cases hin : offs < packetLength
      · obtain ⟨step, hstep, hr⟩ := hfound n net offs proto hn ht hin
        obtain ⟨htrans, hpayload⟩ := (reported_ordered_iff hlen ht hin hstep hr).mpr
          (hsound n net offs proto hn ht hin)
        exact ⟨htrans, hpayload, huntouched⟩
      -- the transport header would lie behind the capture: nothing is reported
      · rw [findHeaders, run_findHeadersIn hnet ht hn,
          findTransport_short (Nat.le_of_not_lt hin)] at h
        obtain rfl := Except.ok.inj h
        exact ⟨fun hne => absurd rfl hne, fun hne => absurd rfl hne, huntouched⟩
    · subst hr
      exact ⟨fun hne => absurd rfl hne, fun hne => absurd rfl hne, huntouched⟩

end Order

/-- **LAYER ORDER** — the offsets of a result are ordered exactly when the length
    fields on the way to the payload are sound. -/
theorem layersOrdered_iff (len : Nat) (headerOffset : HeaderOffset) (layers : Layers)
    {r : HeaderOffset × Layers}
    (h : run m (findHeaders (u16 len) { headerOffset with net := 0 } layers) = .ok r) :
    LayersOrdered m (u16 len) { headerOffset with net := 0 } layers r ↔
      ∀ n net offs proto, n ≤ maxRounds → TransportAt m n net offs proto →
        offs < u16 len → LengthsSound m (u16 len) net offs proto :=
  layersOrdered_iff_of_net (Nat.lt_trans (u16_lt len) (by decide)) rfl h

/-- An IPv4 packet whose TCP header is cut behind its fourth byte. -/
def cutTcp : List UInt8 :=
  [0x45, 0, 0, 40, 0, 1, 0, 0, 64, 6, 0, 0, 10, 0, 0, 1, 10, 0, 0, 2, 0, 80, 0, 80]

theorem layersOrdered_iff_cutTcp :
    LayersOrdered (ofList cutTcp) (u16 24) PacketHandler.zeroOffsets PacketHandler.zeroLayers
        (⟨0, 0, 20, 20⟩, ⟨.ip, 6⟩) ↔
      ∀ n net offs proto, n ≤ maxRounds → TransportAt (ofList cutTcp) n net offs proto →
        offs < u16 24 → LengthsSound (ofList cutTcp) (u16 24) net offs proto :=
  layersOrdered_iff 24 PacketHandler.zeroOffsets PacketHandler.zeroLayers rfl

/-- Its payload is reported where its TCP header starts. -/
theorem layers_not_ordered_cutTcp :
    ¬ ∀ r, run (ofList cutTcp) (findHeaders (u16 24) PacketHandler.zeroOffsets
        PacketHandler.zeroLayers) = .ok r →
      LayersOrdered (ofList cutTcp) (u16 24) PacketHandler.zeroOffsets
        PacketHandler.zeroLayers r := by
  intro h
  obtain ⟨-, -, hlen, hfixed, hle⟩ := (h (⟨0, 0, 20, 20⟩, ⟨.ip, 6⟩) rfl).payload (by decide)
  obtain rfl : 20 = hlen := Option.some.inj hfixed
  exact absurd hle (by decide)

end Impd4e.LayerOffsets
