import Impd4e.Datagrams
import Impd4e.Traffic

/-! # One datagram on two links

    `determineLinkType` fixes how long the link header is, `get_nettype` where
    it holds the protocol type.  For Ethernet, ATM and Linux SLL the two tables
    fit together: `handle_packet` then works on the datagram alone.  For raw IP
    `get_nettype` has no protocol type to report, and no packet is handled.
    `link_independent_iff` says what this leaves of the same decision on two
    links. -/

namespace Impd4e.LinkTypes

open ReadProg Impd4e.Hash Impd4e.PacketHandler Impd4e.Dissector Impd4e.FieldMap
  Impd4e.Traffic Impd4e.Datagrams Impd4e.Settings

/-! ## `determineLinkType` -/

/-- The `pkt_offset` of a link type. -/
def pktOffsetOf : LinkType → Nat
  | .en10mb => 14
  | .atmRfc1483 => 8
  | .linuxSll => 16
  | .raw => 0
  | .other _ => 0

/-- `determineLinkType` on a device whose `pcap_datalink` is `linkType`. -/
def determineLinkType (linkType : LinkType) (dev : DeviceDev) : DeviceDev :=
  { dev with linkType := linkType, pktOffset := pktOffsetOf linkType }

/-- The link types it knows. -/
def Supported (linkType : LinkType) : Prop :=
  linkType = .en10mb ∨ linkType = .atmRfc1483 ∨ linkType = .linuxSll ∨ linkType = .raw

/-! ## Frames -/

/-- The protocol type of a datagram. -/
def protocolType (d : Datagram) : Nat :=
  if d.bytes[0]?.map (fun first => first &&& 0xf0) = some 0x60 then ethertypeIp6
  else ethertypeIp

/-- Where a link header holds the protocol type. -/
def typeOffset : LinkType → Nat
  | .en10mb => 12
  | .atmRfc1483 => 6
  | .linuxSll => 14
  | .raw => 0
  | .other _ => 0

/-- A frame with exactly the datagram behind its link header, captured in full;
    `tail` is what the memory holds behind it. -/
structure Frame (linkType : LinkType) (d : Datagram) where
  header : List UInt8
  tail : List UInt8
  header_length : header.length = pktOffsetOf linkType
  typed : linkType = .raw ∨ ∃ hi lo, header[typeOffset linkType]? = some hi ∧
    header[typeOffset linkType + 1]? = some lo ∧ hi.toNat * 256 + lo.toNat = protocolType d

namespace Frame

variable {linkType : LinkType} {d : Datagram} (fr : Frame linkType d)

def caplen : Nat := fr.header.length + d.bytes.length

def mem : Nat → Option UInt8 := ofList (fr.header ++ (d.bytes ++ fr.tail))

end Frame

variable {linkType linkType' : LinkType} {d : Datagram}

/-- The device captures from an interface or from a file. -/
def IsPcap (dev : DeviceDev) : Prop :=
  dev.deviceType = .pcap ∨ dev.deviceType = .pcapFile

/-- The hash and the selection `handle_packet` arrives at on a link. -/
def outcome (o : Options) (dev : DeviceDev) (fr : Frame linkType d) :
    Except Fault (Option UInt32 × Bool) :=
  (run fr.mem (packetDecision o fr.caplen (determineLinkType linkType dev))).map
    (fun x => (x.hashId, x.isSelected))

/-! ## What each link leaves -/

section Frames

variable (fr : Frame linkType d) {dev : DeviceDev} (hdev : IsPcap dev)

include hdev

theorem nettype_pcap (caplen : Nat) :
    nettype (determineLinkType linkType dev) caplen = getNettype linkType := by
  rcases hdev with h | h
  · rw [nettype]
    rw [show (determineLinkType linkType dev).deviceType = .pcap from h]
    rfl
  · rw [nettype]
    rw [show (determineLinkType linkType dev).deviceType = .pcapFile from h]
    rfl

omit hdev in
/-- The header's protocol type is where `get_nettype` reads it. -/
theorem run_readU16_header {i : Nat} {hi lo : UInt8} (h1 : fr.header[i]? = some hi)
    (h2 : fr.header[i + 1]? = some lo) :
    run fr.mem (readU16 i) = .ok (hi.toNat * 256 + lo.toNat) := by
  have hmem : ∀ j b, fr.header[j]? = some b → fr.mem j = some b :=
    fun _ _ => ofList_append_of_some (d.bytes ++ fr.tail)
  show run fr.mem (.read i fun hi => .read (i + 1) fun lo => .ret _) = _
  rw [run_read _ (hmem _ _ h1), run_read _ (hmem _ _ h2)]
  rfl

omit hdev in
theorem run_getNettype (hs : Supported linkType) (hraw : linkType ≠ .raw) :
    run fr.mem (getNettype linkType) = .ok (protocolType d) := by
  obtain ⟨hi, lo, h1, h2, hval⟩ := fr.typed.resolve_left hraw
  rw [← hval]
  rcases hs with rfl | rfl | rfl | rfl
  · exact run_readU16_header fr h1 h2
  · exact run_readU16_header fr h1 h2
  · exact run_readU16_header fr h1 h2
  · exact absurd rfl hraw

omit hdev in
theorem protocolType_ip : isIpType (protocolType d) = true := by
  rw [protocolType]
  split
  · rfl
  · rfl

omit hdev in
/-- Behind the link header there is the datagram, whole and alone. -/
theorem networkPacket_frame (o : Options) (ho : o.offset = 0) (dev : DeviceDev) :
    networkPacket o (determineLinkType linkType dev) fr.caplen
      = ⟨fr.header.length, d.bytes.length⟩ := by
  have hlen := length_ge d
  have hoff : (determineLinkType linkType dev).pktOffset = fr.header.length :=
    fr.header_length.symm
  have hlink : applyOffset ⟨0, fr.caplen⟩ fr.header.length
      = ⟨fr.header.length, d.bytes.length⟩ := by
    rw [applyOffset, Frame.caplen]
    rw [if_pos (by dsimp only; omega), Nat.zero_add, Nat.add_sub_cancel_left]
  have huser : applyOffset ⟨fr.header.length, d.bytes.length⟩ 0
      = ⟨fr.header.length, d.bytes.length⟩ := by
    rw [applyOffset]
    rw [if_pos (by dsimp only; omega), Nat.add_zero, Nat.sub_zero]
  rw [networkPacket, ho, hoff, hlink, huser]

/-- On a raw link nothing is handled. -/
theorem outcome_raw (o : Options) (hraw : linkType = .raw) :
    outcome o dev fr = .ok (none, false) := by
  subst hraw
  have hnt : run fr.mem (nettype (determineLinkType .raw dev) fr.caplen) = .ok 0 := by
    rw [nettype_pcap hdev]
    rfl
  rw [outcome, packetDecision]
  show Except.map _ (run fr.mem ((nettype _ _).bind _)) = _
  rw [run_bind_ok _ hnt]
  rfl

/-- On any other link the selection stage runs over the datagram. -/
theorem outcome_typed (o : Options) (ho : o.offset = 0) (hs : Supported linkType)
    (hraw : linkType ≠ .raw) :
    outcome o dev fr
      = (run (ofList (d.bytes ++ fr.tail)) (hashInput o.selectionFunction o.rSel
          dev.hashBuffer.size d.bytes.length)).map (fun bytes =>
            ((rangeTest o bytes).hashId, (rangeTest o bytes).isSelected)) := by
  have hnt : run fr.mem (nettype (determineLinkType linkType dev) fr.caplen)
      = .ok (protocolType d) := by
    rw [nettype_pcap hdev]
    exact run_getNettype fr hs hraw
  have hpkt := networkPacket_frame fr o ho dev
  have hbase : (fun i => fr.mem (fr.header.length + i)) = ofList (d.bytes ++ fr.tail) :=
    ofList_append_right _ _
  have hrun : run fr.mem (packetDecision o fr.caplen (determineLinkType linkType dev))
      = ((run (ofList (d.bytes ++ fr.tail)) (selectPacket o dev.hashBuffer
          d.bytes.length)).map (fun s => (s.buffer.contents, s.decision))).map
            (fun x => x.2) := by
    rw [packetDecision]
    show run fr.mem ((nettype _ _).bind _) = _
    rw [run_bind_ok _ hnt, hpkt, if_pos protocolType_ip]
    -- the selection stage runs at the end of the link header
    show run fr.mem (((selectPacket o dev.hashBuffer d.bytes.length).rebase
      fr.header.length).bind (fun s => .ret s.decision)) = _
    rw [← run_map, run_rebase, hbase]
    cases run (ofList (d.bytes ++ fr.tail)) (selectPacket o dev.hashBuffer
        d.bytes.length) with
    | error e => rfl
    | ok s => rfl
  rw [outcome, hrun, run_hashInput]
  cases run (ofList (d.bytes ++ fr.tail)) (hashInput o.selectionFunction o.rSel
      dev.hashBuffer.size d.bytes.length) with
  | error e => rfl
  | ok bytes => rfl

end Frames

/-! ## Two links -/

/-- Devices with hash buffers of the same size, on these two links, never arrive
    at different hashes or selections. -/
def LinkIndependent (linkType linkType' : LinkType) (d : Datagram) (f : SelectionFunction)
    (rSel : List RangeSelect) (size : Nat) : Prop :=
  ∀ (fr : Frame linkType d) (fr' : Frame linkType' d) (o : Options) (dev dev' : DeviceDev),
    IsPcap dev → IsPcap dev' → dev.hashBuffer.size = size → dev'.hashBuffer.size = size →
    o.offset = 0 → o.selectionFunction = f → o.rSel = rSel →
    outcome o dev fr = outcome o dev' fr'

/-- The dissector and the selection function read no byte behind the datagram. -/
def Confined (d : Datagram) (f : SelectionFunction) (rSel : List RangeSelect)
    (size : Nat) : Prop :=
  run (ofList d.bytes) (hashInput f rSel size d.bytes.length) ≠ .error .unmapped

/-- The selection function takes no byte of the datagram at all. -/
def TakesNothing (d : Datagram) (f : SelectionFunction) (rSel : List RangeSelect)
    (size : Nat) : Prop :=
  run (ofList d.bytes) (hashInput f rSel size d.bytes.length) = .ok []

/-- The protocol type has two bytes. -/
theorem protocolType_bytes (d : Datagram) :
    ∃ hi lo : UInt8, hi.toNat * 256 + lo.toNat = protocolType d := by
  rw [protocolType]
  split
  · exact ⟨0x86, 0xDD, rfl⟩
  · exact ⟨0x08, 0x00, rfl⟩

/-- A frame of every supported link type, with zeros for addresses. -/
theorem exists_frame (hs : Supported linkType) (d : Datagram) (tail : List UInt8) :
    ∃ fr : Frame linkType d, fr.tail = tail := by
  obtain ⟨hi, lo, hval⟩ := protocolType_bytes d
  rcases hs with rfl | rfl | rfl | rfl
  · exact ⟨⟨List.replicate 12 0 ++ [hi, lo], tail, rfl, Or.inr ⟨hi, lo, rfl, rfl, hval⟩⟩, rfl⟩
  · exact ⟨⟨List.replicate 6 0 ++ [hi, lo], tail, rfl, Or.inr ⟨hi, lo, rfl, rfl, hval⟩⟩, rfl⟩
  · exact ⟨⟨List.replicate 14 0 ++ [hi, lo], tail, rfl, Or.inr ⟨hi, lo, rfl, rfl, hval⟩⟩, rfl⟩
  · exact ⟨⟨[], tail, rfl, Or.inl rfl⟩, rfl⟩

/-- A device of either kind with a hash buffer of some size. -/
def pcapDevice (size : Nat) : DeviceDev :=
  setDefaultsDevice { setDefaultsOptions (fun _ => 0) with snapLength := size }
    { zeroDevice with deviceType := .pcap }

def rangeOptions (f : SelectionFunction) (rSel : List RangeSelect) : Options :=
  { setDefaultsOptions (fun _ => 0) with selectionFunction := f, rSel := rSel }

section Conditions

variable {f : SelectionFunction} {rSel : List RangeSelect} {size : Nat}

/-- Two links with a protocol type: only what lies behind the datagram can make
    a difference. -/
theorem typed_independent_iff (hs : Supported linkType) (hs' : Supported linkType')
    (hraw : linkType ≠ .raw) (hraw' : linkType' ≠ .raw) :
    LinkIndependent linkType linkType' d f rSel size ↔ Confined d f rSel size := by
  constructor
  · intro h hun
    -- a run that faults on the datagram alone goes on once enough bytes are behind it
    obtain ⟨n, hn⟩ := exists_tail d.bytes 0 (hashInput f rSel size d.bytes.length)
    obtain ⟨fr, ht⟩ := exists_frame hs d []
    obtain ⟨fr', ht'⟩ := exists_frame hs' d (List.replicate n 0)
    have heq := h fr fr' (rangeOptions f rSel) (pcapDevice size) (pcapDevice size)
      (Or.inl rfl) (Or.inl rfl) rfl rfl rfl rfl rfl
    rw [outcome_typed fr (Or.inl rfl) _ rfl hs hraw,
      outcome_typed fr' (Or.inl rfl) _ rfl hs' hraw', ht, ht', List.append_nil] at heq
    change (run (ofList d.bytes) (hashInput f rSel size _)).map _
      = (run _ (hashInput f rSel size _)).map _ at heq
    rw [hun] at heq
    revert heq hn
    cases run (ofList (d.bytes ++ List.replicate n 0))
        (hashInput f rSel size d.bytes.length) with
    | error e =>
        intro hn heq
        exact hn (congrArg Except.error (Except.error.inj heq).symm)
    | ok bytes => exact fun _ heq => nomatch heq
  · intro hin fr fr' o dev dev' hdev hdev' hsize hsize' ho rfl rfl
    rw [outcome_typed fr hdev o ho hs hraw, outcome_typed fr' hdev' o ho hs' hraw',
      hsize, hsize', run_append hin, run_append hin]

/-- A raw link beside another: the other one must not hash anything either. -/
theorem raw_typed_independent_iff (hs : Supported linkType) (hraw : linkType ≠ .raw) :
    LinkIndependent linkType .raw d f rSel size ↔ TakesNothing d f rSel size := by
  constructor
  · intro h
    obtain ⟨fr, ht⟩ := exists_frame hs d []
    obtain ⟨fr', -⟩ := exists_frame (Or.inr (Or.inr (Or.inr rfl)) : Supported .raw) d []
    have heq := h fr fr' (rangeOptions f rSel) (pcapDevice size) (pcapDevice size)
      (Or.inl rfl) (Or.inl rfl) rfl rfl rfl rfl rfl
    rw [outcome_typed fr (Or.inl rfl) _ rfl hs hraw, outcome_raw fr' (Or.inl rfl) _ rfl, ht,
      List.append_nil] at heq
    change (run (ofList d.bytes) (hashInput f rSel size _)).map _ = _ at heq
    rw [TakesNothing]
    revert heq
    cases run (ofList d.bytes) (hashInput f rSel size d.bytes.length) with
    | error e => exact fun heq => nomatch heq
    | ok bytes =>
        intro heq
        -- a raw link has no hash, so there was nothing to hash here either
        have hnone : (rangeTest (rangeOptions f rSel) bytes).hashId = none :=
          congrArg Prod.fst (Except.ok.inj heq)
        unfold rangeTest at hnone
        by_cases h0 : bytes.length = 0
        · rw [List.eq_nil_of_length_eq_zero h0]
        · rw [if_neg h0] at hnone
          dsimp only at hnone
          split at hnone <;> exact nomatch hnone
  · intro hnothing fr fr' o dev dev' hdev hdev' hsize _ ho rfl rfl
    have hin : run (ofList d.bytes) (hashInput o.selectionFunction o.rSel size d.bytes.length)
        ≠ .error .unmapped := by
      rw [hnothing]
      exact fun h => nomatch h
    rw [outcome_typed fr hdev o ho hs hraw, outcome_raw fr' hdev' o rfl, hsize,
      run_append hin, hnothing]
    rfl

theorem linkIndependent_symm (h : LinkIndependent linkType linkType' d f rSel size) :
    LinkIndependent linkType' linkType d f rSel size := by
  intro fr fr' o dev dev' hdev hdev' hsize hsize' ho hf hr
  exact (h fr' fr o dev' dev hdev' hdev hsize' hsize ho hf hr).symm

/-- Two raw links agree: neither handles any packet. -/
theorem raw_independent : LinkIndependent .raw .raw d f rSel size := by
  intro fr fr' o dev dev' hdev hdev' _ _ _ _ _
  rw [outcome_raw fr hdev o rfl, outcome_raw fr' hdev' o rfl]

end Conditions

/-- **LINK INDEPENDENCE**: two supported links give a datagram one hash and one
    selection exactly when both are raw, or neither is and no byte behind the
    datagram is read, or one of them is and the selection takes nothing. -/
theorem link_independent_iff (hs : Supported linkType) (hs' : Supported linkType')
    (d : Datagram) (f : SelectionFunction) (rSel : List RangeSelect) (size : Nat) :
    LinkIndependent linkType linkType' d f rSel size ↔
      (linkType = .raw ∧ linkType' = .raw) ∨
        (linkType ≠ .raw ∧ linkType' ≠ .raw ∧ Confined d f rSel size) ∨
        (¬ (linkType = .raw ↔ linkType' = .raw) ∧ TakesNothing d f rSel size) := by
  by_cases hraw : linkType = .raw
  · subst hraw
    by_cases hraw' : linkType' = .raw
    · subst hraw'
      exact iff_of_true raw_independent (Or.inl ⟨rfl, rfl⟩)
    · have hiff : LinkIndependent .raw linkType' d f rSel size
          ↔ TakesNothing d f rSel size :=
        ⟨fun h => (raw_typed_independent_iff hs' hraw').mp (linkIndependent_symm h),
          fun h => linkIndependent_symm ((raw_typed_independent_iff hs' hraw').mpr h)⟩
      rw [hiff]
      simp [hraw']
  · by_cases hraw' : linkType' = .raw
    · subst hraw'
      rw [raw_typed_independent_iff hs hraw]
      simp [hraw]
    · rw [typed_independent_iff hs hs' hraw hraw']
      simp [hraw, hraw']

theorem link_independent_iff_ethernet_sll :
    LinkIndependent .en10mb .linuxSll udpDatagram .uTcpAndNet [] 80 ↔
      (LinkType.en10mb = .raw ∧ LinkType.linuxSll = .raw) ∨
        (LinkType.en10mb ≠ .raw ∧ LinkType.linuxSll ≠ .raw ∧
          Confined udpDatagram .uTcpAndNet [] 80) ∨
        (¬ (LinkType.en10mb = .raw ↔ LinkType.linuxSll = .raw) ∧
          TakesNothing udpDatagram .uTcpAndNet [] 80) :=
  link_independent_iff (Or.inl rfl) (Or.inr (Or.inr (Or.inl rfl))) udpDatagram .uTcpAndNet
    [] 80

/-- A raw link drops the datagram that an Ethernet link hashes. -/
theorem link_dependent_ethernet_raw :
    ¬ LinkIndependent .en10mb .raw udpDatagram .uTcpAndNet [] 80 := by
  rw [raw_typed_independent_iff (Or.inl rfl) (by decide), TakesNothing]
  decide

end Impd4e.LinkTypes
