import Impd4e.Settings
import Impd4e.TemplateAgreement
import Impd4e.Traffic

/-! # What a record says of its packet

    A packet is put together from what its sender means by it: the fields of an
    IP header, and ports where the protocol has ports.  The probe takes it apart
    with `findHeaders` and the `get_*` functions of packet_handler.c.  The record
    it exports says what the sender wrote, field by field, for every template and
    any IPv4 options.  Only where no byte behind the IP header was captured does it
    say nothing of the transport, and of IPv6 addresses it never says anything. -/

namespace Impd4e.RecordContents

open ReadProg Impd4e.Hash Impd4e.IpfixTemplates Impd4e.PacketHandler Impd4e.Dissector
  Impd4e.Traffic Impd4e.TemplateAgreement

/-! ## Packets as they are sent -/

/-- A 16-bit number in network byte order. -/
def hi (n : UInt16) : UInt8 := UInt8.ofNat (n.toNat / 256)
def lo (n : UInt16) : UInt8 := UInt8.ofNat (n.toNat % 256)

/-- The transport protocols that begin with two ports. -/
def HasPorts (protocol : UInt8) : Prop := protocol = tUdp ∨ protocol = tTcp ∨ protocol = tSctp

inductive Transport where
  | ports (protocol : UInt8) (source destination : UInt16) (rest : List UInt8)
      (hasPorts : HasPorts protocol)
  | other (protocol : UInt8) (payload : List UInt8) (noPorts : ¬ HasPorts protocol)

/-- An IPv4 header; its options are whole words, ten at most. -/
structure Ip4Header where
  tos : UInt8
  totalLength : UInt16
  identification : UInt16
  fragment : UInt16
  ttl : UInt8
  checksum : UInt16
  source : Ipv4Address
  destination : Ipv4Address
  optionWords : Fin 11
  options : List UInt8
  options_length : options.length = 4 * optionWords.val

/-- An IPv6 header. -/
structure Ip6Header where
  trafficClass : Fin 16
  flow : UInt8 × UInt8 × UInt8
  payloadLength : UInt16
  hopLimit : UInt8
  addresses : List UInt8
  addresses_length : addresses.length = 32

inductive Header where
  | ip4 (header : Ip4Header)
  | ip6 (header : Ip6Header)

def Transport.protocol : Transport → UInt8
  | .ports protocol _ _ _ _ => protocol
  | .other protocol _ _ => protocol

def Transport.bytes : Transport → List UInt8
  | .ports _ source destination rest _ =>
      hi source :: lo source :: hi destination :: lo destination :: rest
  | .other _ payload _ => payload

def Ip4Header.bytes (h : Ip4Header) (protocol : UInt8) : List UInt8 :=
  [UInt8.ofNat (0x45 + h.optionWords.val), h.tos, hi h.totalLength, lo h.totalLength,
    hi h.identification, lo h.identification, hi h.fragment, lo h.fragment,
    h.ttl, protocol, hi h.checksum, lo h.checksum,
    h.source.a, h.source.b, h.source.c, h.source.d,
    h.destination.a, h.destination.b, h.destination.c, h.destination.d] ++ h.options

def Ip6Header.bytes (h : Ip6Header) (nextHeader : UInt8) : List UInt8 :=
  [UInt8.ofNat (0x60 + h.trafficClass.val), h.flow.1, h.flow.2.1, h.flow.2.2,
    hi h.payloadLength, lo h.payloadLength, nextHeader, h.hopLimit] ++ h.addresses

def Header.bytes (protocol : UInt8) : Header → List UInt8
  | .ip4 h => h.bytes protocol
  | .ip6 h => h.bytes protocol

def Header.net : Header → NetProt
  | .ip4 _ => .ip
  | .ip6 _ => .ip6

/-- A packet; in IPv6 its transport header comes at once. -/
structure Sent where
  header : Header
  transport : Transport
  noOptions : header.net = .ip6 → isIp6Option transport.protocol = false

def Sent.bytes (w : Sent) : List UInt8 :=
  w.header.bytes w.transport.protocol ++ w.transport.bytes

/-- Where the transport header begins. -/
def Sent.transportOffset (w : Sent) : Nat := (w.header.bytes w.transport.protocol).length

/-! ## What there is to say of them -/

structure Report where
  ttl : Nat
  length : Nat
  protocol : Nat
  version : Nat
  source : List UInt8
  sourcePort : Nat
  destination : List UInt8
  destinationPort : Nat
  deriving DecidableEq, Repr

def octets (a : Ipv4Address) : List UInt8 := [a.a, a.b, a.c, a.d]

/-- The part of the network header.  The length is the one the header states, in
    IPv6 that of the payload, and only IPv4 addresses are reported. -/
def Header.report (protocol sourcePort destinationPort : Nat) : Header → Report
  | .ip4 h =>
      ⟨h.ttl.toNat, h.totalLength.toNat, protocol, 4, octets h.source, sourcePort,
        octets h.destination, destinationPort⟩
  | .ip6 h =>
      ⟨h.hopLimit.toNat, h.payloadLength.toNat, protocol, 6, [0, 0, 0, 0], sourcePort,
        [0, 0, 0, 0], destinationPort⟩

def Transport.sourcePort : Transport → Nat
  | .ports _ source _ _ _ => source.toNat
  | .other _ _ _ => 0

def Transport.destinationPort : Transport → Nat
  | .ports _ _ destination _ _ => destination.toNat
  | .other _ _ _ => 0

/-- What is to be said of a packet of which `len` bytes were captured. -/
def Sent.report (w : Sent) (len : Nat) : Report :=
  if w.transportOffset < len then
    w.header.report w.transport.protocol.toNat w.transport.sourcePort
      w.transport.destinationPort
  else w.header.report 0 0 0

/-- The fields of a record that says so. -/
def Report.fields (report : Report) (tId : Nat) (ts : Timeval) (hashId : UInt32) :
    List (FieldValue × Nat) :=
  [(.num (getTimestamp ts), 8), (.num hashId.toNat, 4)] ++
    (if tId = tsId then [] else [(.num report.ttl, 1)]) ++
    (if tId = tsTtlProtoId ∨ tId = tsTtlProtoIpId then
      [(.num report.length, 2), (.num report.protocol, 1), (.num report.version, 1)]
    else []) ++
    (if tId = tsTtlProtoIpId then
      [(.addr report.source, 4), (.num report.sourcePort, 2), (.addr report.destination, 4),
        (.num report.destinationPort, 2)]
    else [])

/-- The memory holds the headers of the packet, ports included. -/
def Holds (m : Nat → Option UInt8) (w : Sent) : Prop :=
  ∀ i b, i < w.transportOffset + 4 → w.bytes[i]? = some b → m i = some b

/-! ## Header fields -/

theorem hi_lo (n : UInt16) : (hi n).toNat * 256 + (lo n).toNat = n.toNat := by
  have hn := n.toNat_lt
  rw [hi, lo, UInt8.toNat_ofNat', UInt8.toNat_ofNat']
  omega

section Fields

variable {m : Nat → Option UInt8} {w : Sent}

theorem transportOffset_ip4 {h : Ip4Header} (hw : w.header = .ip4 h) :
    w.transportOffset = 20 + 4 * h.optionWords.val := by
  rw [Sent.transportOffset, hw]
  show (h.bytes _).length = _
  rw [Ip4Header.bytes, List.length_append, h.options_length]
  rfl

theorem transportOffset_ip6 {h : Ip6Header} (hw : w.header = .ip6 h) :
    w.transportOffset = 40 := by
  rw [Sent.transportOffset, hw]
  show (h.bytes _).length = _
  rw [Ip6Header.bytes, List.length_append, h.addresses_length]
  rfl

/-- A byte of the header is where it was put. -/
theorem Holds.header (hm : Holds m w) {i : Nat} {b : UInt8}
    (h : (w.header.bytes w.transport.protocol)[i]? = some b) : m i = some b := by
  have hi : i < w.transportOffset := (List.getElem?_eq_some_iff.mp h).1
  refine hm i b (by omega) ?_
  rw [Sent.bytes, List.getElem?_append_left hi]
  exact h

/-- And so is one of the ports. -/
theorem Holds.transport (hm : Holds m w) {j : Nat} {b : UInt8} (hj : j < 4)
    (h : w.transport.bytes[j]? = some b) : m (w.transportOffset + j) = some b := by
  refine hm _ b (by omega) ?_
  have hright : (w.header.bytes w.transport.protocol).length ≤ w.transportOffset + j :=
    Nat.le_add_right _ _
  rw [Sent.bytes, List.getElem?_append_right hright]
  show w.transport.bytes[w.transportOffset + j - w.transportOffset]? = _
  rw [Nat.add_sub_cancel_left]
  exact h

theorem Holds.ip4 (hm : Holds m w) {h : Ip4Header} (hw : w.header = .ip4 h) {i : Nat} {b : UInt8}
    (hb : (h.bytes w.transport.protocol)[i]? = some b) : m i = some b :=
  hm.header (by rw [hw]; exact hb)

theorem Holds.ip6 (hm : Holds m w) {h : Ip6Header} (hw : w.header = .ip6 h) {i : Nat} {b : UInt8}
    (hb : (h.bytes w.transport.protocol)[i]? = some b) : m i = some b :=
  hm.header (by rw [hw]; exact hb)

theorem run_cell {i : Nat} {b : UInt8} (h : m i = some b) :
    run m (cell i) = .ok b :=
  run_read m h _

theorem run_readU16 {i : Nat} {n : UInt16} (h0 : m i = some (hi n))
    (h1 : m (i + 1) = some (lo n)) : run m (readU16 i) = .ok n.toNat := by
  show run m ((cell i).bind _) = _
  rw [run_bind_ok m (run_cell h0)]
  show run m ((cell (i + 1)).bind _) = _
  rw [run_bind_ok m (run_cell h1)]
  exact congrArg Except.ok (hi_lo n)

theorem run_block_cons {i n : Nat} {b : UInt8} {bs : List UInt8} (h : m i = some b)
    (hbs : run m (block (i + 1) n) = .ok bs) : run m (block i (n + 1)) = .ok (b :: bs) := by
  rw [block, run_read m h, run_bind_ok m hbs]
  rfl

theorem run_address {i : Nat} {a : Ipv4Address} (h0 : m i = some a.a)
    (h1 : m (i + 1) = some a.b) (h2 : m (i + 2) = some a.c) (h3 : m (i + 3) = some a.d) :
    run m (block i 4) = .ok (octets a) :=
  run_block_cons h0 (run_block_cons h1 (run_block_cons h2 (run_block_cons h3 rfl)))

/-! ## The getters -/

theorem getTtl_report (hm : Holds m w) (protocol sourcePort destinationPort : Nat) :
    run m (getTtl 0 w.header.net)
      = .ok (w.header.report protocol sourcePort destinationPort).ttl := by
  cases hw : w.header with
  | ip4 h =>
      show run m ((cell 8).bind _) = _
      rw [run_bind_ok m (run_cell (hm.ip4 hw (i := 8) rfl))]
      rfl
  | ip6 h =>
      show run m ((cell 7).bind _) = _
      rw [run_bind_ok m (run_cell (hm.ip6 hw (i := 7) rfl))]
      rfl

theorem getIpLength_report (hm : Holds m w) (protocol sourcePort destinationPort : Nat) :
    run m (getIpLength 0 w.header.net)
      = .ok (w.header.report protocol sourcePort destinationPort).length := by
  cases hw : w.header with
  | ip4 h => exact run_readU16 (hm.ip4 hw (i := 2) rfl) (hm.ip4 hw (i := 3) rfl)
  | ip6 h => exact run_readU16 (hm.ip6 hw (i := 4) rfl) (hm.ip6 hw (i := 5) rfl)

theorem getIpa_source (hm : Holds m w) (protocol sourcePort destinationPort : Nat) :
    run m (getIpa 0 w.header.net)
      = .ok (w.header.report protocol sourcePort destinationPort).source := by
  cases hw : w.header with
  | ip4 h =>
      exact run_address (hm.ip4 hw (i := 12) rfl) (hm.ip4 hw (i := 13) rfl)
        (hm.ip4 hw (i := 14) rfl) (hm.ip4 hw (i := 15) rfl)
  | ip6 h => rfl

/-- The destination is read four bytes further on, where `get_ipa` adds the
    offset of the source. -/
theorem getIpa_destination (hm : Holds m w) (protocol sourcePort destinationPort : Nat) :
    run m (getIpa (0 + 4) w.header.net)
      = .ok (w.header.report protocol sourcePort destinationPort).destination := by
  cases hw : w.header with
  | ip4 h =>
      exact run_address (hm.ip4 hw (i := 16) rfl) (hm.ip4 hw (i := 17) rfl)
        (hm.ip4 hw (i := 18) rfl) (hm.ip4 hw (i := 19) rfl)
  | ip6 h => rfl

theorem transportOffset_le (w : Sent) : w.transportOffset ≤ 60 := by
  cases hw : w.header with
  | ip4 h =>
      have := h.optionWords.isLt
      rw [transportOffset_ip4 hw]
      omega
  | ip6 h =>
      rw [transportOffset_ip6 hw]
      decide

theorem getPort_some {protocol : UInt8} (h : HasPorts protocol) (offset : Nat) :
    getPort offset protocol = readU16 offset :=
  if_pos h

theorem getPort_none {protocol : UInt8} (h : ¬ HasPorts protocol) (offset : Nat) :
    getPort offset protocol = .ret 0 :=
  if_neg h

theorem getPort_source (hm : Holds m w) :
    run m (getPort w.transportOffset w.transport.protocol) = .ok w.transport.sourcePort := by
  cases ht : w.transport with
  | ports protocol source destination rest hasPorts =>
      have h0 := hm.transport (j := 0) (b := hi source) (by decide) (by rw [ht]; rfl)
      have h1 := hm.transport (j := 1) (b := lo source) (by decide) (by rw [ht]; rfl)
      show run m (getPort _ protocol) = _
      rw [getPort_some hasPorts]
      exact run_readU16 h0 h1
  | other protocol payload noPorts =>
      show run m (getPort _ protocol) = _
      rw [getPort_none noPorts]
      rfl

theorem getPort_destination (hm : Holds m w) :
    run m (getPort (u32 (w.transportOffset + 2)) w.transport.protocol)
      = .ok w.transport.destinationPort := by
  have hle := transportOffset_le w
  have hu32 : u32 (w.transportOffset + 2) = w.transportOffset + 2 :=
    Nat.mod_eq_of_lt (by omega)
  rw [hu32]
  cases ht : w.transport with
  | ports protocol source destination rest hasPorts =>
      have h2 := hm.transport (j := 2) (b := hi destination) (by decide) (by rw [ht]; rfl)
      have h3 := hm.transport (j := 3) (b := lo destination) (by decide) (by rw [ht]; rfl)
      show run m (getPort _ protocol) = _
      rw [getPort_some hasPorts]
      exact run_readU16 h2 h3
  | other protocol payload noPorts =>
      show run m (getPort _ protocol) = _
      rw [getPort_none noPorts]
      rfl

/-! ## The dissector -/

theorem firstByte_ip4 (k : Fin 11) : UInt8.ofNat (0x45 + k.val) &&& 0xf0 = 0x40 ∧
    (UInt8.ofNat (0x45 + k.val) &&& 0x0F).toNat <<< 2 = 20 + 4 * k.val := by
  revert k
  decide

theorem firstByte_ip6 (k : Fin 16) : UInt8.ofNat (0x60 + k.val) &&& 0xf0 = 0x60 := by
  revert k
  decide

/-- The dissector looks for the transport header where it is. -/
theorem transportAt_sent (hm : Holds m w) :
    TransportAt m 0 w.header.net w.transportOffset w.transport.protocol := by
  cases hw : w.header with
  | ip4 h =>
      obtain ⟨hversion, hihl⟩ := firstByte_ip4 h.optionWords
      rw [transportOffset_ip4 hw, ← hihl]
      exact .ip (hm.ip4 hw (i := 0) rfl) hversion (hm.ip4 hw (i := 9) rfl)
  | ip6 h =>
      rw [transportOffset_ip6 hw]
      exact .ip6 (hm.ip6 hw (i := 0) rfl) (firstByte_ip6 h.trafficClass)
        (hm.ip6 hw (i := 6) rfl) (.done _) (w.noOptions (by rw [hw]; rfl))

/-- What the dissector leaves is what there is to say of the packet. -/
structure Dissects (m : Nat → Option UInt8) (w : Sent) (len : Nat) (r : HeaderOffset × Layers)
    (protocol : UInt8) (sourcePort destinationPort : Nat) : Prop where
  report : w.report len = w.header.report protocol.toNat sourcePort destinationPort
  net : r.1.net = 0
  layers : r.2 = ⟨w.header.net, protocol⟩
  source : run m (getPort r.1.trans protocol) = .ok sourcePort
  destination : run m (getPort (u32 (r.1.trans + 2)) protocol) = .ok destinationPort

theorem findHeaders_dissects (hm : Holds m w) {len : Nat} {r : HeaderOffset × Layers}
    (h : run m (findHeaders len zeroOffsets zeroLayers) = .ok r) :
    ∃ protocol sourcePort destinationPort,
      Dissects m w len r protocol sourcePort destinationPort := by
  have hnone : ¬ HasPorts 0 := by
    rintro (h | h | h)
    · exact absurd h (by decide)
    · exact absurd h (by decide)
    · exact absurd h (by decide)
  rcases findHeaders_found rfl (transportAt_sent hm) (Nat.zero_le _) h with
    ⟨hle, rfl⟩ | ⟨hlt, hfound⟩
  · -- nothing behind the header: the transport stays unknown
    refine ⟨0, 0, 0, ?_, rfl, rfl, ?_, ?_⟩
    · rw [Sent.report, if_neg (Nat.not_lt.mpr hle)]
      rfl
    · rw [getPort_none hnone]
      rfl
    · rw [getPort_none hnone]
      rfl
  · refine ⟨w.transport.protocol, w.transport.sourcePort, w.transport.destinationPort, ?_,
      hfound.net, hfound.layers, ?_, ?_⟩
    · rw [Sent.report, if_pos hlt]
    · rw [hfound.trans]
      exact getPort_source hm
    · rw [hfound.trans]
      exact getPort_destination hm

/-! ## Records -/

theorem report_layers (header : Header) (protocol : UInt8) (sourcePort destinationPort : Nat) :
    (header.report protocol.toNat sourcePort destinationPort).protocol = protocol.toNat ∧
      (header.report protocol.toNat sourcePort destinationPort).version = header.net.toNat ∧
      (header.report protocol.toNat sourcePort destinationPort).sourcePort = sourcePort ∧
      (header.report protocol.toNat sourcePort destinationPort).destinationPort
        = destinationPort := by
  cases header with
  | ip4 h => exact ⟨rfl, rfl, rfl, rfl⟩
  | ip6 h => exact ⟨rfl, rfl, rfl, rfl⟩

/-- The switch over the templates fills in the report. -/
theorem fillFields_report (hm : Holds m w) {len : Nat} {r : HeaderOffset × Layers}
    (h : run m (findHeaders len zeroOffsets zeroLayers) = .ok r) {tId : Nat}
    (hknown : Known tId) (ts : Timeval) (hashId : UInt32) :
    run m (fillFields tId ts hashId r.1 r.2)
      = .ok (some ((w.report len).fields tId ts hashId)) := by
  obtain ⟨protocol, sourcePort, destinationPort, hd⟩ := findHeaders_dissects hm h
  obtain ⟨hprotocol, hversion, hsourcePort, hdestinationPort⟩ :=
    report_layers w.header protocol sourcePort destinationPort
  have httl := getTtl_report hm protocol.toNat sourcePort destinationPort
  have hlength := getIpLength_report hm protocol.toNat sourcePort destinationPort
  have hsource := getIpa_source hm protocol.toNat sourcePort destinationPort
  have hdestination := getIpa_destination hm protocol.toNat sourcePort destinationPort
  obtain ⟨offsets, layers⟩ := r
  obtain rfl : layers = ⟨w.header.net, protocol⟩ := hd.layers
  have hnet : offsets.net = 0 := hd.net
  rw [hd.report]
  rcases hknown with rfl | rfl | rfl | rfl
  · show run m ((getTtl offsets.net w.header.net).bind _) = _
    rw [hnet, run_bind_ok m httl]
    rfl
  · rfl
  · show run m ((getTtl offsets.net w.header.net).bind _) = _
    rw [hnet, run_bind_ok m httl]
    show run m ((getIpLength 0 w.header.net).bind _) = _
    rw [run_bind_ok m hlength, Report.fields, hprotocol, hversion]
    rfl
  · show run m ((getTtl offsets.net w.header.net).bind _) = _
    rw [hnet, run_bind_ok m httl]
    show run m ((getIpLength 0 w.header.net).bind _) = _
    rw [run_bind_ok m hlength]
    show run m ((getPort offsets.trans protocol).bind _) = _
    rw [run_bind_ok m hd.source]
    show run m ((getPort (u32 (offsets.trans + 2)) protocol).bind _) = _
    rw [run_bind_ok m hd.destination]
    show run m ((getIpa 0 w.header.net).bind _) = _
    rw [run_bind_ok m hsource]
    show run m ((getIpa (0 + 4) w.header.net).bind _) = _
    rw [run_bind_ok m hdestination, Report.fields, hprotocol, hversion, hsourcePort,
      hdestinationPort]
    rfl

/-- **RECORDS TELL WHAT WAS SENT** — whatever the header options, the transport
    and the template, the record of a packet has the fields of its report, as the
    sender wrote them, and the hash it was selected by. -/
theorem record_reports (hm : Holds m w) {o : Options} {ts : Timeval} {d : DeviceDev}
    {len : Nat} {r : Handled} {record : Record} (hknown : Known (effectiveTemplate o d))
    (h : run m (handleIpPacket o ts d len) = .ok r) (hrecord : r.exported = some record) :
    ∃ hashId, r.decision = .selected hashId ∧
      record = ⟨effectiveTemplate o d,
        (w.report (u16 len)).fields (effectiveTemplate o d) ts hashId⟩ := by
  obtain ⟨s, hs, ⟨-, rfl⟩ | ⟨hashId, -, rfl⟩ | ⟨hashId, -, hr⟩⟩ := handleIpPacket_cases h
  · cases hrecord
  · cases hrecord
  · obtain ⟨bytes, hfind, -⟩ := selectPacket_cases hs
    rcases handleSelected_cases hr with rfl | ⟨fields, hfields, rfl⟩
    · cases hrecord
    · have hfilled := fillFields_report hm hfind hknown ts hashId
      have hsame : fields = (w.report (u16 len)).fields (effectiveTemplate o d) ts hashId :=
        Option.some.inj (Except.ok.inj (hfields.symm.trans hfilled))
      refine ⟨hashId, exportRecord_decision .., ?_⟩
      rw [exportRecord_exported] at hrecord
      rw [← Option.some.inj hrecord, hsame]
      rfl

end Fields

/-- A DNS query with one word of options. -/
def query : Sent where
  header := .ip4 ⟨0, 32, 7, 0, 64, 0, ⟨10, 0, 0, 1⟩, ⟨10, 0, 0, 2⟩, 1, [1, 1, 1, 0], rfl⟩
  transport := .ports tUdp 4000 53 [0, 8, 0, 0] (Or.inl rfl)
  noOptions h := nomatch h

/-- Long records, every packet selected. -/
def recordOptions : Options :=
  { Settings.setDefaultsOptions fun _ => 0x20000000 with templateID := tsTtlProtoIpId }

theorem record_reports_query : ∃ r record,
    run (ofList query.bytes) (handleIpPacket recordOptions ⟨1, 5⟩
        (Settings.socketDevice recordOptions) 32) = .ok r ∧
      r.exported = some record ∧
      record.fields = [(.num 1000005, 8), (.num 0x20000000, 4), (.num 64, 1), (.num 32, 2),
        (.num 17, 1), (.num 4, 1), (.addr [10, 0, 0, 1], 4), (.num 4000, 2),
        (.addr [10, 0, 0, 2], 4), (.num 53, 2)] := by
  obtain ⟨r, record, hrun, hdecision, hrecord⟩ : ∃ r record,
      run (ofList query.bytes) (handleIpPacket recordOptions ⟨1, 5⟩
          (Settings.socketDevice recordOptions) 32) = .ok r ∧
        r.decision = .selected 0x20000000 ∧ r.exported = some record :=
    ⟨_, _, rfl, rfl, rfl⟩
  have hknown : Known (effectiveTemplate recordOptions (Settings.socketDevice recordOptions)) :=
    Or.inr (Or.inr (Or.inr rfl))
  obtain ⟨hashId, hselected, hfields⟩ :=
    record_reports (w := query) (fun i b _ hb => hb) hknown hrun hrecord
  obtain rfl : 0x20000000 = hashId := Decision.selected.inj (hdecision.symm.trans hselected)
  refine ⟨r, record, hrun, hrecord, ?_⟩
  rw [hfields]
  rfl

end Impd4e.RecordContents
