import Mathlib.Data.List.TakeDrop
import Impd4e.LinkTypes
import Impd4e.RangeCopy

/-! # Which byte a selection keyword counts from

    From the captured frame to the hash buffer: `handle_packet` moves the packet
    pointer behind the link header, `findHeaders` fills in the positions relative
    to it, and `LINK`, `NET`, `TRANS` and `PAYLOAD` copy their ranges from one of
    these positions.  The array of positions starts with zeros, so that of `LINK`
    is where the pointer already stands: at the network layer. -/

namespace Impd4e.LayerKeywords

open ReadProg Impd4e.Hash Impd4e.PacketHandler Impd4e.Dissector Impd4e.FieldMap
open Impd4e.Traffic Impd4e.RangeCopy
open Impd4e.LinkTypes (IsPcap)

/-! ## Keywords and frames -/

/-- The keywords that name a layer. -/
inductive LayerKeyword where
  | link
  | net
  | trans
  | payload
  deriving DecidableEq, Repr

def LayerKeyword.selectionFunction : LayerKeyword → SelectionFunction
  | .link => .link
  | .net => .net
  | .trans => .trans
  | .payload => .payload

/-- `headerOffset[L_…]` for the layer of a keyword. -/
def LayerKeyword.offset (headerOffset : HeaderOffset) : LayerKeyword → Nat
  | .link => headerOffset.link
  | .net => headerOffset.net
  | .trans => headerOffset.trans
  | .payload => headerOffset.payload

/-- A captured frame: the link header, the bytes captured behind it, and what the
    memory holds behind those. -/
structure CapturedFrame where
  header : List UInt8
  packet : List UInt8
  tail : List UInt8
  length_lt : packet.length < absent

namespace CapturedFrame

variable (fr : CapturedFrame)

def caplen : Nat := fr.header.length + fr.packet.length

def mem : Nat → Option UInt8 := ofList (fr.header ++ (fr.packet ++ fr.tail))

/-- The packet pointer; `apply_offset` leaves it where it is when nothing is
    captured behind the link header. -/
def pointer : Nat := if fr.packet = [] then 0 else fr.header.length

/-- The bytes from the packet pointer on. -/
def behind : List UInt8 := (fr.header ++ (fr.packet ++ fr.tail)).drop fr.pointer

/-- They begin with the packet. -/
theorem behind_take {n : Nat} (hn : n ≤ fr.packet.length) :
    (fr.behind.take n) = fr.packet.take n := by
  rw [behind, pointer]
  by_cases hempty : fr.packet = []
  · rw [hempty, List.length_nil, Nat.le_zero] at hn
    rw [hn, List.take_zero, List.take_zero]
  · rw [if_neg hempty, List.drop_left, List.take_append_of_le_length hn]

theorem le_length_behind : fr.packet.length ≤ fr.behind.length := by
  have h := congrArg List.length (fr.behind_take (Nat.le_refl _))
  rw [List.length_take, List.length_take, Nat.min_self] at h
  omega

end CapturedFrame

/-- A pcap device whose link header is that of the frame, and which takes the
    frame for IP. -/
structure Captures (device : DeviceDev) (fr : CapturedFrame) : Prop where
  pcap : IsPcap device
  pktOffset : device.pktOffset = fr.header.length
  ip : ∃ type, run fr.mem (nettype device fr.caplen) = .ok type ∧ isIpType type = true

/-- The bytes of the frame from the layer of a keyword on; none when the frame
    lacks the layer. -/
def layerBytes (fr : CapturedFrame) (found : HeaderOffset) : LayerKeyword → List UInt8
  | .link => if fr.header = [] then [] else fr.header ++ fr.packet
  | .net => fr.packet
  | .trans => if found.trans = absent then [] else fr.packet.drop found.trans
  | .payload => if found.payload = absent then [] else fr.packet.drop found.payload

/-- The bytes `copyFields_Select` is given for it. -/
def copiedBytes (fr : CapturedFrame) (found : HeaderOffset) (kw : LayerKeyword) :
    List UInt8 :=
  if kw.offset found = absent then []
  else (fr.packet.drop (kw.offset found)).take (u16 (fr.packet.length - kw.offset found))

/-! ## What the code copies -/

variable {fr : CapturedFrame} {device : DeviceDev} {o : Options} {found : HeaderOffset}
  {layers : Layers}

/-- The positions `findHeaders` leaves for a packet at its pointer. -/
theorem found_offsets (hfound : run (ofList fr.behind)
      (findHeaders (u16 fr.packet.length) zeroOffsets zeroLayers) = .ok (found, layers)) :
    found.link = 0 ∧ found.net = 0 ∧
      (found.trans = absent ∨ found.trans < fr.packet.length) ∧
      (found.payload = absent ∨ found.payload < fr.packet.length) := by
  have hle : u16 fr.packet.length ≤ fr.packet.length := Nat.mod_le _ _
  rcases transportAt_of_run rfl hfound with ⟨n, net, offs, proto, hn, ht⟩ | hr
  · rcases findHeaders_found rfl ht hn hfound with ⟨-, hr⟩ | ⟨hin, hr⟩
    · obtain ⟨rfl, -⟩ := Prod.mk.inj hr
      exact ⟨rfl, rfl, Or.inl rfl, Or.inl rfl⟩
    · refine ⟨hr.link, hr.net, Or.inr ?_, ?_⟩
      · rw [hr.trans]
        exact Nat.lt_of_lt_of_le hin hle
      · exact hr.payload.imp id fun h => Nat.lt_of_lt_of_le h.2 hle
  · obtain ⟨rfl, -⟩ := Prod.mk.inj hr
    exact ⟨rfl, rfl, Or.inl rfl, Or.inl rfl⟩

theorem offset_inside (hfound : run (ofList fr.behind)
      (findHeaders (u16 fr.packet.length) zeroOffsets zeroLayers) = .ok (found, layers))
    (kw : LayerKeyword) : kw.offset found = absent ∨ kw.offset found ≤ fr.packet.length := by
  obtain ⟨hlink, hnet, htrans, hpayload⟩ := found_offsets hfound
  cases kw with
  | link => exact Or.inr (hlink.trans_le (Nat.zero_le _))
  | net => exact Or.inr (hnet.trans_le (Nat.zero_le _))
  | trans => exact htrans.imp_right Nat.le_of_lt
  | payload => exact hpayload.imp_right Nat.le_of_lt

/-- A copy function of a layer, over the packet and whatever follows it. -/
theorem run_copyFieldsLayer {layerOffset : Nat}
    (h : layerOffset = absent ∨ layerOffset ≤ fr.packet.length) (rSel : List RangeSelect)
    (b : Buffer) :
    run (ofList fr.behind) (copyFieldsLayer rSel fr.packet.length b.reset layerOffset)
      = .ok (b.reset.append ((selected
          (if layerOffset = absent then []
            else (fr.packet.drop layerOffset).take (u16 (fr.packet.length - layerOffset)))
          rSel).take (u16 b.size))) := by
  have hnone : selected [] rSel = [] := by
    refine List.flatMap_eq_nil_iff.mpr fun range _ => ?_
    rw [slice, List.take_nil, List.drop_nil]
  rw [copyFieldsLayer]
  by_cases habsent : layerOffset = absent
  · rw [if_pos habsent, if_pos habsent, hnone, List.take_nil, Buffer.append_nil]
    rfl
  · have hle := h.resolve_left habsent
    have hsub : subU32 fr.packet.length layerOffset = fr.packet.length - layerOffset :=
      subU32_of_le hle (Nat.lt_trans fr.length_lt (by decide))
    have hu16 : u16 (fr.packet.length - layerOffset) ≤ fr.packet.length - layerOffset :=
      Nat.mod_le _ _
    have hin : layerOffset + u16 (fr.packet.length - layerOffset) ≤ fr.behind.length := by
      have := fr.le_length_behind
      omega
    -- the bytes behind the packet are out of reach
    have hbytes : (fr.behind.drop layerOffset).take (u16 (fr.packet.length - layerOffset))
        = (fr.packet.drop layerOffset).take (u16 (fr.packet.length - layerOffset)) := by
      rw [List.take_drop, List.take_drop, fr.behind_take (by omega)]
    rw [if_neg habsent, if_neg habsent, hsub, ← hbytes]
    exact run_copyFieldsSelect_base fr.behind hin rSel b.reset (u16 b.size)

/-! ## From the frame to the buffer -/

/-- Behind the link header there are the captured bytes of the packet. -/
theorem networkPacket_captured (hcap : Captures device fr) (ho : o.offset = 0) :
    networkPacket o device fr.caplen = ⟨fr.pointer, fr.packet.length⟩ := by
  rw [networkPacket, ho, hcap.pktOffset, CapturedFrame.pointer, CapturedFrame.caplen]
  by_cases hempty : fr.packet = []
  · rw [hempty, if_pos rfl]
    have hlink : applyOffset ⟨0, fr.header.length + 0⟩ fr.header.length = ⟨0, 0⟩ :=
      if_neg (Nat.lt_irrefl _)
    exact congrArg (fun pkt => applyOffset pkt 0) hlink
  · have hpos : 0 < fr.packet.length := List.length_pos_iff.mpr hempty
    have hlink : applyOffset ⟨0, fr.header.length + fr.packet.length⟩ fr.header.length
        = ⟨fr.header.length, fr.packet.length⟩ := by
      rw [applyOffset]
      rw [if_pos (by dsimp only; omega), Nat.zero_add, Nat.add_sub_cancel_left]
    have huser : applyOffset ⟨fr.header.length, fr.packet.length⟩ 0
        = ⟨fr.header.length, fr.packet.length⟩ := by
      rw [applyOffset]
      rw [if_pos hpos, Nat.add_zero, Nat.sub_zero]
    rw [if_neg hempty, hlink, huser]

/-- `handle_packet` hands the packet to `handle_ip_packet`. -/
theorem run_handlePacket_captured (hcap : Captures device fr) (ho : o.offset = 0)
    (ts : Timeval) :
    run fr.mem (handlePacket o ts fr.caplen device)
      = run (ofList fr.behind) (handleIpPacket o ts (countPacket device) fr.packet.length) := by
  obtain ⟨type, htype, hip⟩ := hcap.ip
  have hbase : (fun i => fr.mem (fr.pointer + i)) = ofList fr.behind :=
    ofList_drop _ _
  rw [handlePacket_ip htype hip, networkPacket_captured hcap ho]
  dsimp only
  rw [hbase]

section Run

variable {kw : LayerKeyword} (hsel : o.selectionFunction = kw.selectionFunction)
  (hfound : run (ofList fr.behind)
    (findHeaders (u16 fr.packet.length) zeroOffsets zeroLayers) = .ok (found, layers))

include hsel hfound

/-- The selection stage copies from the layer of the keyword. -/
theorem run_selectPacket_layer (b : Buffer) :
    ∃ s, run (ofList fr.behind) (selectPacket o b fr.packet.length) = .ok s ∧
      s.buffer = b.reset.append
        ((selected (copiedBytes fr found kw) o.rSel).take (u16 b.size)) := by
  have hlayer := run_copyFieldsLayer (offset_inside hfound kw) o.rSel b
  have hfunction : selectionFunction o.selectionFunction o.rSel fr.packet.length b.reset found
      layers = copyFieldsLayer o.rSel fr.packet.length b.reset (kw.offset found) := by
    rw [hsel]
    cases kw with
    | link => rfl
    | net => rfl
    | trans => rfl
    | payload => rfl
  rw [← hfunction] at hlayer
  have hfields : run (ofList fr.behind) (selectFields o b fr.packet.length)
      = .ok (b.reset.append ((selected (copiedBytes fr found kw) o.rSel).take (u16 b.size)),
          found, layers) := by
    show run _ ((findHeaders _ _ _).bind _) = _
    rw [run_bind_ok _ hfound]
    show run _ ((selectionFunction _ _ _ _ _ _).bind _) = _
    rw [run_bind_ok _ hlayer]
    rfl
  have hrun : run (ofList fr.behind) (selectPacket o b fr.packet.length)
      = run (ofList fr.behind) (.ret ⟨b.reset.append
          ((selected (copiedBytes fr found kw) o.rSel).take (u16 b.size)), found, layers,
          rangeTest o (b.reset.append ((selected (copiedBytes fr found kw) o.rSel).take
            (u16 b.size))).contents⟩) := run_bind_ok _ hfields _
  exact ⟨_, hrun, rfl⟩

/-- **FROM FRAME TO BUFFER** — what `handle_packet` leaves in the hash buffer. -/
theorem handlePacket_contents (hcap : Captures device fr) (ho : o.offset = 0)
    {ts : Timeval} {handled : Handled}
    (h : run fr.mem (handlePacket o ts fr.caplen device) = .ok handled) :
    handled.device.hashBuffer.contents
      = (selected (copiedBytes fr found kw) o.rSel).take (u16 device.hashBuffer.size) := by
  rw [run_handlePacket_captured hcap ho] at h
  obtain ⟨s, hs, -, hbuffer⟩ := handleIpPacket_selection h
  obtain ⟨s', hs', hbuffer'⟩ := run_selectPacket_layer hsel hfound device.hashBuffer
  obtain rfl : s' = s := Except.ok.inj (hs'.symm.trans hs)
  rw [hbuffer, hbuffer', Buffer.append_contents, Buffer.reset_contents, List.nil_append]

/-- With the packet export switched off, `handle_packet` always returns. -/
theorem handlePacket_returns (hcap : Captures device fr) (ho : o.offset = 0)
    (hoff : o.exportPktidInterval ≤ 0) (ts : Timeval) :
    ∃ handled, run fr.mem (handlePacket o ts fr.caplen device) = .ok handled := by
  obtain ⟨s, hs, -⟩ := run_selectPacket_layer hsel hfound (countPacket device).hashBuffer
  rw [run_handlePacket_captured hcap ho]
  show ∃ handled, run _ ((selectPacket _ _ _).bind _) = .ok handled
  rw [run_bind_ok _ hs]
  cases hd : s.decision with
  | unsupported => exact ⟨_, rfl⟩
  | noSelection => exact ⟨_, rfl⟩
  | dropped hashId => exact ⟨_, rfl⟩
  | selected hashId =>
      simp only [handleSelected, if_pos hoff]
      exact ⟨_, rfl⟩

end Run

/-! ## Chains tell packets apart -/

theorem slice_one (packet : List UInt8) (i : Nat) :
    slice packet ⟨i, 1⟩ = packet[i]?.toList := by
  show (packet.take (min packet.length (i + 1))).drop i = _
  by_cases hi : i < packet.length
  · rw [Nat.min_eq_right hi, List.take_add_one, List.drop_left' (List.length_take_of_le (by omega))]
  · have hle := Nat.le_of_not_lt hi
    rw [Nat.min_eq_left (by omega), List.take_length, List.drop_eq_nil_of_le hle,
      List.getElem?_eq_none hle]
    rfl

/-- Byte sequences from which every chain picks the same are equal. -/
theorem eq_of_selected_eq {l l' : List UInt8} {bLen : Nat} (hpos : 0 < bLen)
    (h : ∀ rSel, rSel ≠ [] → (selected l rSel).take bLen = (selected l' rSel).take bLen) :
    l = l' := by
  refine List.ext_getElem? fun i => ?_
  have hone : ∀ packet : List UInt8,
      (selected packet [⟨i, 1⟩]).take bLen = packet[i]?.toList := by
    intro packet
    rw [selected, List.flatMap_singleton, slice_one]
    cases packet[i]? with
    | none => exact List.take_nil
    | some c => exact List.take_of_length_le hpos
  have hi := h [⟨i, 1⟩] (List.cons_ne_nil _ _)
  rw [hone, hone] at hi
  cases hc : l[i]? with
  | none =>
      cases hc' : l'[i]? with
      | none => rfl
      | some c' => rw [hc, hc'] at hi; cases hi
  | some c =>
      cases hc' : l'[i]? with
      | none => rw [hc, hc'] at hi; cases hi
      | some c' =>
          rw [hc, hc'] at hi
          rw [(List.cons.inj hi).1]

/-! ## The layer each keyword counts from -/

/-- Whatever the chain and the other options, the buffer holds the bytes selected
    from the layer of the keyword on, as many as fit. -/
def CountsFromLayer (fr : CapturedFrame) (device : DeviceDev) (found : HeaderOffset)
    (kw : LayerKeyword) : Prop :=
  ∀ (o : Options) (ts : Timeval) (handled : Handled),
    o.selectionFunction = kw.selectionFunction → o.offset = 0 → o.rSel ≠ [] →
    run fr.mem (handlePacket o ts fr.caplen device) = .ok handled →
    handled.device.hashBuffer.contents
      = (selected (layerBytes fr found kw) o.rSel).take (u16 device.hashBuffer.size)

/-- What lies behind the start of the layer fits the 16-bit length the copy
    function takes.  `LINK` has it right only where nothing is copied. -/
def LengthFits (fr : CapturedFrame) (found : HeaderOffset) : LayerKeyword → Prop
  | .link => fr.header = [] ∧ u16 fr.packet.length = 0
  | .net => fr.packet.length ≤ 65535
  | .trans => found.trans = absent ∨ fr.packet.length - found.trans ≤ 65535
  | .payload => found.payload = absent ∨ fr.packet.length - found.payload ≤ 65535

theorem le_u16_iff {n : Nat} : n ≤ u16 n ↔ n ≤ 65535 := by
  rw [u16]
  omega

/-- Behind an offset, the length argument keeps all bytes exactly when it fits. -/
theorem layer_bytes_iff {offset : Nat} (packet : List UInt8) :
    ((if offset = absent then []
        else (packet.drop offset).take (u16 (packet.length - offset)))
      = if offset = absent then [] else packet.drop offset) ↔
      offset = absent ∨ packet.length - offset ≤ 65535 := by
  by_cases habsent : offset = absent
  · rw [if_pos habsent, if_pos habsent]
    exact iff_of_true rfl (Or.inl habsent)
  · rw [if_neg habsent, if_neg habsent, List.take_eq_self_iff, List.length_drop, le_u16_iff]
    exact ⟨Or.inr, fun h => h.resolve_left habsent⟩

theorem copiedBytes_eq_iff (hfound : run (ofList fr.behind)
      (findHeaders (u16 fr.packet.length) zeroOffsets zeroLayers) = .ok (found, layers))
    (kw : LayerKeyword) :
    copiedBytes fr found kw = layerBytes fr found kw ↔ LengthFits fr found kw := by
  obtain ⟨hlink, hnet, -, -⟩ := found_offsets hfound
  have hzero : (0 : Nat) ≠ absent := by decide
  cases kw with
  | link =>
      -- the pointer stands behind the link header already
      have hcopied : copiedBytes fr found .link = fr.packet.take (u16 fr.packet.length) := by
        have hoffset : LayerKeyword.offset found .link = 0 := hlink
        rw [copiedBytes, hoffset, if_neg hzero, List.drop_zero, Nat.sub_zero]
      rw [hcopied]
      show _ = (if fr.header = [] then _ else _) ↔ fr.header = [] ∧ _
      by_cases hheader : fr.header = []
      · rw [if_pos hheader, List.take_eq_nil_iff]
        constructor
        · rintro (hu16 | hempty)
          · exact ⟨hheader, hu16⟩
          · exact ⟨hheader, by rw [hempty]; rfl⟩
        · exact fun h => Or.inl h.2
      · rw [if_neg hheader]
        refine iff_of_false (fun h => ?_) fun h => hheader h.1
        have hlen := congrArg List.length h
        have hpos : 0 < fr.header.length := List.length_pos_iff.mpr hheader
        rw [List.length_take, List.length_append] at hlen
        omega
  | net =>
      have hcopied : copiedBytes fr found .net = fr.packet.take (u16 fr.packet.length) := by
        have hoffset : LayerKeyword.offset found .net = 0 := hnet
        rw [copiedBytes, hoffset, if_neg hzero, List.drop_zero, Nat.sub_zero]
      rw [hcopied]
      show _ = fr.packet ↔ fr.packet.length ≤ 65535
      rw [List.take_eq_self_iff, le_u16_iff]
  | trans => exact layer_bytes_iff fr.packet
  | payload => exact layer_bytes_iff fr.packet

/-- **LAYER KEYWORDS** — a keyword counts from its own layer exactly when it is
    not `LINK` and what it counts over fits 16 bits. -/
theorem countsFromLayer_iff (hcap : Captures device fr)
    (hfound : run (ofList fr.behind)
      (findHeaders (u16 fr.packet.length) zeroOffsets zeroLayers) = .ok (found, layers))
    (kw : LayerKeyword) :
    CountsFromLayer fr device found kw ↔
      u16 device.hashBuffer.size = 0 ∨ LengthFits fr found kw := by
  rw [← copiedBytes_eq_iff hfound kw]
  constructor
  · intro h
    rcases Nat.eq_zero_or_pos (u16 device.hashBuffer.size) with hzero | hpos
    · exact Or.inl hzero
    · refine Or.inr (eq_of_selected_eq hpos fun rSel hne => ?_)
      -- options under which every packet is handled to its end
      obtain ⟨o, hsel, hoff, hrSel, hinterval⟩ : ∃ o : Options,
          o.selectionFunction = kw.selectionFunction ∧ o.offset = 0 ∧ o.rSel = rSel ∧
            o.exportPktidInterval ≤ 0 :=
        ⟨{ LinkTypes.rangeOptions kw.selectionFunction rSel with exportPktidInterval := 0 },
          rfl, rfl, rfl, rfl⟩
      obtain ⟨handled, hrun⟩ := handlePacket_returns hsel hfound hcap hoff hinterval ⟨0, 0⟩
      have hcontents := handlePacket_contents hsel hfound hcap hoff hrun
      rw [h o ⟨0, 0⟩ handled hsel hoff (hrSel ▸ hne) hrun, hrSel] at hcontents
      exact hcontents.symm
  · intro h o ts handled hsel hoff _ hrun
    rw [handlePacket_contents hsel hfound hcap hoff hrun]
    rcases h with hzero | heq
    · rw [hzero, List.take_zero, List.take_zero]
    · rw [heq]

/-- An Ethernet frame with a UDP datagram of 28 bytes. -/
def udpFrame : CapturedFrame where
  header := List.replicate 12 1 ++ [0x08, 0x00]
  packet := Datagrams.udpDatagram.bytes
  tail := []
  length_lt := by decide

def ethernetDevice : DeviceDev := LinkTypes.determineLinkType .en10mb (LinkTypes.pcapDevice 80)

theorem captures_udpFrame : Captures ethernetDevice udpFrame :=
  ⟨Or.inl rfl, rfl, ethertypeIp, rfl, rfl⟩

theorem countsFromLayer_iff_trans :
    CountsFromLayer udpFrame ethernetDevice ⟨0, 0, 20, absent⟩ .trans ↔
      u16 ethernetDevice.hashBuffer.size = 0 ∨ LengthFits udpFrame ⟨0, 0, 20, absent⟩ .trans :=
  countsFromLayer_iff captures_udpFrame rfl .trans

/-- Options with `-S LINK0`. -/
def link0 : Options :=
  { LinkTypes.rangeOptions .link [⟨0, 1⟩] with exportPktidInterval := 0 }

/-- `LINK0` takes the first byte of the datagram, not of the frame. -/
theorem link_counts_from_network :
    ¬ CountsFromLayer udpFrame ethernetDevice ⟨0, 0, 20, absent⟩ .link := by
  intro h
  have hsel : link0.selectionFunction = LayerKeyword.link.selectionFunction := rfl
  have hfound : run (ofList udpFrame.behind)
      (findHeaders (u16 udpFrame.packet.length) zeroOffsets zeroLayers)
        = .ok (⟨0, 0, 20, absent⟩, ⟨.ip, tUdp⟩) := rfl
  obtain ⟨handled, hrun⟩ :=
    handlePacket_returns hsel hfound captures_udpFrame rfl rfl ⟨0, 0⟩
  have hcopied := handlePacket_contents hsel hfound captures_udpFrame rfl hrun
  have hlayer := h link0 ⟨0, 0⟩ handled hsel rfl (List.cons_ne_nil _ _) hrun
  have hbytes : ([0x45] : List UInt8) = [1] := hcopied.symm.trans hlayer
  exact absurd hbytes (by decide)

end Impd4e.LayerKeywords
