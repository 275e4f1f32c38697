import Impd4e.DissectorSafety
import Impd4e.FieldMap
import Impd4e.LayerOffsets
import Impd4e.Lib.Reach
import Impd4e.RangeCopy
import Impd4e.Settings

/-! # What `handle_ip_packet` reads of a capture

    The dissector reports offsets below the captured length, but the selection
    functions and the export of a record then read whole header fields from
    there.  Each stage behind the dissector reaches a fixed number of bytes that
    its offsets and layers give: the range functions stay below the captured
    length whatever the ranges are, the presets ask for whole fixed headers, and
    a record for what its template names.  So one condition on the capture says
    exactly when no byte behind it is ever read. -/

namespace Impd4e.PacketReads

open ReadProg Impd4e.Hash Impd4e.Dissector Impd4e.DissectorSafety Impd4e.FieldMap
  Impd4e.PacketHandler Impd4e.IpfixTemplates Impd4e.LayerOffsets Impd4e.RangeCopy

/-! ## What the dissector leaves -/

/-- The offsets and layers `findHeaders` reports on `len` captured bytes. -/
structure Dissected (len : Nat) (r : HeaderOffset × Layers) : Prop where
  net : r.1.net = 0
  link : r.1.link = 0
  trans : r.1.trans = absent ∨ r.1.trans < len
  payload : r.1.payload = absent ∨ r.1.payload < len
  proto : r.2.trans ≠ 0 → r.1.trans < len
  ip : r.2.net = .ip → 10 ≤ len

theorem findHeaders_dissected {bytes : List UInt8} {r : HeaderOffset × Layers}
    (h : run (ofList bytes) (findHeaders bytes.length zeroOffsets zeroLayers) = .ok r) :
    Dissected bytes.length r := by
  have hnet : zeroOffsets.net = 0 := rfl
  rcases transportAt_of_run hnet h with ⟨n, net, offs, proto, hn, ht⟩ | hr
  · have hip : net = .ip → 10 ≤ bytes.length := by
      intro hip
      subst hip
      cases ht with
      | ip _ _ h9 =>
          have := (List.getElem?_eq_some_iff.mp h9).1
          omega
    rcases findHeaders_found hnet ht hn h with ⟨-, hr⟩ | ⟨hlt, hfound⟩
    · subst hr
      exact ⟨rfl, rfl, Or.inl rfl, Or.inl rfl, fun hp => absurd rfl hp, hip⟩
    · have hlayers := hfound.layers
      refine ⟨hfound.net, hfound.link, Or.inr (by rw [hfound.trans]; exact hlt), ?_,
        fun _ => by rw [hfound.trans]; exact hlt, fun hnet' => hip ?_⟩
      · exact hfound.payload.imp id fun hp => hp.2
      · rw [hlayers] at hnet'
        exact hnet'
  · subst hr
    exact ⟨rfl, rfl, Or.inl rfl, Or.inl rfl, fun hp => absurd rfl hp, fun hip => nomatch hip⟩

/-! ## The selection functions -/

/-- How many captured bytes REC8 asks for behind a transport header. -/
def recReach (trans : Nat) (proto : UInt8) : Nat :=
  if proto = tTcp then trans + 18
  else if proto = tUdp then trans + 8
  else if proto = tIcmp ∨ proto = tIcmp6 then trans + 16
  else 0

/-- How many captured bytes a selection function asks for. -/
def selectionReach (f : SelectionFunction) (r : HeaderOffset × Layers) : Nat :=
  match f with
  | .rec8 =>
      if hasTransport r.1 r.2 ∧ r.2.net = .ip then recReach r.1.trans r.2.trans else 0
  | .onlyNet => ipHlen r.2.net
  | .uTcpAndNet => ipHlen r.2.net
  | .packet => max 20 (ipHlen r.2.net)
  | .raw => 0
  | .last => 0
  | .link => 0
  | .net => 0
  | .trans => 0
  | .payload => 0

section Pieces

variable {len size : Nat} {rSel : List RangeSelect} {headerOffset : HeaderOffset}
  {layers : Layers}

theorem lastEnd_netPieces (h : headerOffset.net = 0) (net : NetProt) :
    lastEnd (netPieces headerOffset net) = ipHlen net := by
  cases net with
  | unknown => rfl
  | ip => rw [netPieces, h]; rfl
  | ip6 => rw [netPieces, h]; rfl

/-- The pieces of a chain end inside the packet wherever that starts. -/
theorem lastEnd_rangePieces (base len bLen : Nat) (rSel : List RangeSelect) :
    lastEnd (rangePieces base len rSel bLen) ≤ base + len := by
  rw [lastEnd_le_iff]
  intro p hp
  rw [rangePieces_base] at hp
  obtain ⟨q, hq, rfl⟩ := List.mem_map.mp hp
  have := rangePieces_inside len rSel bLen q hq
  rw [blockEnd]
  split
  · exact Nat.zero_le _
  · show base + q.1 + q.2 ≤ base + len
    omega

theorem lastEnd_rangePiecesReverse (len : Nat) (rSel : List RangeSelect) :
    ∀ bLen, lastEnd (rangePiecesReverse 0 len rSel bLen) ≤ len := by
  induction rSel with
  | nil => exact fun _ => Nat.zero_le _
  | cons range next ih =>
      intro bLen
      rw [rangePiecesReverse]
      by_cases hin : len < range.offset
      · simp only [if_neg (not_not.mpr hin)]
        split
        · exact ih _
        · exact Nat.zero_le _
      · simp only [if_pos hin]
        have hclip : clip range.offset range.length bLen ≤ range.offset := by
          rw [clip]
          split
          · exact Nat.min_le_left _ _
          · exact Nat.le_trans (Nat.min_le_left _ _) (Nat.min_le_left _ _)
        refine Nat.max_le.mpr ⟨?_, ?_⟩
        · rw [blockEnd]
          split
          · exact Nat.zero_le _
          · show 0 + (len - range.offset) + clip _ _ _ ≤ len
            omega
        · split
          · exact ih _
          · exact Nat.zero_le _

theorem lastEnd_layerPieces (hlen : len ≤ 65535) {layerOffset : Nat}
    (h : layerOffset = absent ∨ layerOffset ≤ len) :
    lastEnd (layerPieces rSel len size layerOffset) ≤ len := by
  rw [layerPieces]
  by_cases habsent : layerOffset = absent
  · rw [if_pos habsent]
    exact Nat.zero_le _
  · rw [if_neg habsent]
    have hle : layerOffset ≤ len := h.resolve_left habsent
    have hsub : u16 (subU32 len layerOffset) = len - layerOffset := by
      rw [subU32_of_le hle (by omega), u16_of_lt (by omega)]
    have := lastEnd_rangePieces layerOffset (u16 (subU32 len layerOffset)) (u16 size) rSel
    rw [hsub] at this ⊢
    omega

/-- The transport piece of IP+TP is cut to what is captured. -/
theorem lastEnd_transPieces {trans : Nat} (h : trans < len) (hlen : len ≤ 65535)
    (proto : UInt8) : lastEnd (transPieces len trans proto) ≤ len := by
  have hsub : subU32 len trans = len - trans := subU32_of_le (by omega) (by omega)
  have hcut : ∀ n, lastEnd [(trans, min n (subU32 len trans))] ≤ len := by
    intro n
    rw [hsub, lastEnd_le_iff]
    intro p hp
    rw [List.mem_singleton.mp hp, blockEnd]
    split
    · exact Nat.zero_le _
    · show trans + min n (len - trans) ≤ len
      omega
  rw [transPieces]
  split
  · exact hcut 20
  split
  · exact hcut 8
  · exact Nat.zero_le _

/-- PACKET always asks for 20 bytes: a shorter length wraps around. -/
theorem lastEnd_packetPieces (hnet : headerOffset.net = 0) (hlen : len ≤ 65535) :
    lastEnd (packetPieces len headerOffset layers) ≤ len ↔ max 20 (ipHlen layers.net) ≤ len := by
  rw [packetPieces, lastEnd_append, lastEnd_netPieces hnet, hnet, Nat.max_le, Nat.max_le,
    and_comm]
  refine and_congr_left fun _ => ?_
  rw [lastEnd_le_iff]
  simp only [List.mem_singleton, forall_eq]
  by_cases h : 20 ≤ len
  · refine iff_of_true ?_ h
    rw [subU32_of_le h (by omega), blockEnd]
    split
    · exact Nat.zero_le _
    · show 0 + 20 + min (len - 20) 50 ≤ len
      omega
  · refine iff_of_false ?_ h
    have hwrap : 50 ≤ subU32 len 20 := by
      rw [subU32]
      omega
    rw [Nat.min_eq_right hwrap, blockEnd, if_neg (by decide)]
    show ¬ 0 + 20 + 50 ≤ len
    omega

theorem lastEnd_recTransPieces (trans : Nat) (proto : UInt8) :
    lastEnd (recTransPieces trans proto) = recReach trans proto := by
  rw [recTransPieces, recReach]
  split
  · show max (trans + 6 + 2) (max (trans + 10 + 2) (max (trans + 16 + 2) 0)) = trans + 18
    omega
  split
  · show max (trans + 2) (max (trans + 3 + 1) (max (trans + 5 + 3) 0)) = trans + 8
    omega
  split
  · show max (trans + 2 + 2) (max (trans + 12 + 4) 0) = trans + 16
    omega
  · rfl

/-- **WHAT A SELECTION FUNCTION READS** of a dissected packet. -/
theorem lastEnd_pieces (f : SelectionFunction) (hlen : len ≤ 65535)
    {r : HeaderOffset × Layers} (h : Dissected len r) :
    lastEnd (pieces f rSel len size r.1 r.2) ≤ len ↔ selectionReach f r ≤ len := by
  have hu16 : u16 len = len := u16_of_lt (by omega)
  cases f with
  | rec8 =>
      rw [pieces, recPieces, selectionReach]
      by_cases hc : hasTransport r.1 r.2 ∧ r.2.net = .ip
      · rw [if_pos hc, if_pos hc]
        show max (r.1.net + 4 + 2) (lastEnd (recTransPieces _ _)) ≤ len ↔ _
        rw [lastEnd_recTransPieces, h.net, Nat.max_le]
        have := h.ip hc.2
        exact ⟨fun hle => hle.2, fun hle => ⟨by omega, hle⟩⟩
      · rw [if_neg hc, if_neg hc]
        exact iff_of_true (Nat.zero_le _) (Nat.zero_le _)
  | onlyNet => rw [pieces, lastEnd_netPieces h.net, selectionReach]
  | uTcpAndNet =>
      rw [pieces, uTcpAndNetPieces, lastEnd_append, lastEnd_netPieces h.net, selectionReach,
        Nat.max_le]
      refine and_iff_left ?_
      split
      · next hc =>
          have hproto : r.2.trans ≠ 0 := by
            have := (Bool.and_eq_true_iff.mp hc).2
            simpa using this
          exact lastEnd_transPieces (h.proto hproto) hlen _
      · exact Nat.zero_le _
  | packet => exact lastEnd_packetPieces h.net hlen
  | raw =>
      refine iff_of_true ?_ (Nat.zero_le _)
      have := lastEnd_rangePieces 0 (u16 len) (u16 size) rSel
      rw [Nat.zero_add, hu16] at this
      rwa [pieces, hu16]
  | last =>
      refine iff_of_true ?_ (Nat.zero_le _)
      rw [pieces, hu16]
      exact lastEnd_rangePiecesReverse len rSel _
  | link =>
      exact iff_of_true (lastEnd_layerPieces hlen (Or.inr (by rw [h.link]; exact Nat.zero_le _)))
        (Nat.zero_le _)
  | net =>
      exact iff_of_true (lastEnd_layerPieces hlen (Or.inr (by rw [h.net]; exact Nat.zero_le _)))
        (Nat.zero_le _)
  | trans =>
      exact iff_of_true (lastEnd_layerPieces hlen (h.trans.imp id Nat.le_of_lt)) (Nat.zero_le _)
  | payload =>
      exact iff_of_true (lastEnd_layerPieces hlen (h.payload.imp id Nat.le_of_lt))
        (Nat.zero_le _)

end Pieces

/-! ## The export of a record -/

def ttlReach (offset : Nat) : NetProt → Nat
  | .ip => offset + 9
  | .ip6 => offset + 8
  | .unknown => 0

def ipLengthReach (offset : Nat) : NetProt → Nat
  | .ip => offset + 4
  | .ip6 => offset + 6
  | .unknown => 0

def ipaReach (offset : Nat) : NetProt → Nat
  | .ip => offset + 16
  | .ip6 => 0
  | .unknown => 0

def portReach (offset : Nat) (transtype : UInt8) : Nat :=
  if transtype = tUdp ∨ transtype = tTcp ∨ transtype = tSctp then offset + 2 else 0

theorem readU16_reaches (i : Nat) : Reaches (readU16 i) (i + 2) := by
  have h := (Reaches.cell (β := UInt8) i).bind fun hi =>
    (Reaches.cell (i + 1)).bind fun lo => Reaches.ret (hi.toNat * 256 + lo.toNat)
  rwa [Nat.max_zero, Nat.max_eq_right (Nat.le_succ (i + 1))] at h

theorem cell_toNat_reaches (i : Nat) :
    Reaches ((cell i).bind fun b : UInt8 => .ret b.toNat) (i + 1) := by
  have h := (Reaches.cell (β := UInt8) i).bind fun b => Reaches.ret b.toNat
  rwa [Nat.max_zero] at h

theorem getTtl_reaches (offset : Nat) (net : NetProt) :
    Reaches (getTtl offset net) (ttlReach offset net) := by
  cases net with
  | unknown => exact Reaches.ret 0
  | ip => exact cell_toNat_reaches (offset + 8)
  | ip6 => exact cell_toNat_reaches (offset + 7)

theorem getIpLength_reaches (offset : Nat) (net : NetProt) :
    Reaches (getIpLength offset net) (ipLengthReach offset net) := by
  cases net with
  | unknown => exact Reaches.ret 0
  | ip => exact readU16_reaches (offset + 2)
  | ip6 => exact readU16_reaches (offset + 4)

theorem getIpa_reaches (offset : Nat) (net : NetProt) :
    Reaches (getIpa offset net) (ipaReach offset net) := by
  cases net with
  | unknown => exact Reaches.ret _
  | ip => exact Reaches.block (offset + 12) 4
  | ip6 => exact Reaches.ret _

theorem getPort_reaches (offset : Nat) (transtype : UInt8) :
    Reaches (getPort offset transtype) (portReach offset transtype) :=
  (readU16_reaches offset).ite (Reaches.ret 0)

/-- How many captured bytes a record of a template asks for. -/
def templateReach (tId : Nat) (offsets : HeaderOffset) (layers : Layers) : Nat :=
  if tId = tsId then 0
  else if tId = mintId then ttlReach offsets.net layers.net
  else if tId = tsTtlProtoId then
    max (ttlReach offsets.net layers.net) (ipLengthReach offsets.net layers.net)
  else if tId = tsTtlProtoIpId then
    max (ttlReach offsets.net layers.net) (max (ipLengthReach offsets.net layers.net)
      (max (portReach offsets.trans layers.trans)
        (max (portReach (u32 (offsets.trans + 2)) layers.trans)
          (max (ipaReach offsets.net layers.net) (ipaReach (offsets.net + 4) layers.net)))))
  else 0

theorem fillFields_reaches (tId : Nat) (ts : Timeval) (hashId : UInt32)
    (offsets : HeaderOffset) (layers : Layers) :
    Reaches (fillFields tId ts hashId offsets layers) (templateReach tId offsets layers) := by
  have hzero : ∀ n, max n 0 = n := fun n => Nat.max_zero n
  have hret : ∀ fields : Option (List (FieldValue × Nat)),
      Reaches (.ret fields : Reader (Option (List (FieldValue × Nat)))) 0 := Reaches.ret
  rw [fillFields, templateReach]
  refine Reaches.ite (hret _) (Reaches.ite ?_ (Reaches.ite ?_ (Reaches.ite ?_ (hret none))))
  · have h := (getTtl_reaches offsets.net layers.net).bind fun ttl => hret
      (some [(.num (getTimestamp ts), 8), (.num hashId.toNat, 4), (.num ttl, 1)])
    rwa [hzero] at h
  · have h := (getTtl_reaches offsets.net layers.net).bind fun ttl =>
      (getIpLength_reaches offsets.net layers.net).bind fun length => hret
        (some [(.num (getTimestamp ts), 8), (.num hashId.toNat, 4), (.num ttl, 1),
          (.num length, 2), (.num layers.trans.toNat, 1), (.num layers.net.toNat, 1)])
    rwa [hzero] at h
  · have h := (getTtl_reaches offsets.net layers.net).bind fun ttl =>
      (getIpLength_reaches offsets.net layers.net).bind fun length =>
        (getPort_reaches offsets.trans layers.trans).bind fun srcPort =>
          (getPort_reaches (u32 (offsets.trans + 2)) layers.trans).bind fun dstPort =>
            (getIpa_reaches offsets.net layers.net).bind fun srcIpa =>
              (getIpa_reaches (offsets.net + 4) layers.net).bind fun dstIpa => hret
                (some [(.num (getTimestamp ts), 8), (.num hashId.toNat, 4), (.num ttl, 1),
                  (.num length, 2), (.num layers.trans.toNat, 1), (.num layers.net.toNat, 1),
                  (.addr srcIpa, 4), (.num srcPort, 2), (.addr dstIpa, 4), (.num dstPort, 2)])
    rwa [hzero] at h

/-- The same, said of a dissected packet: the last field of the fixed header that
    the template names, and both ports where there are ports. -/
def exportReach (tId : Nat) (r : HeaderOffset × Layers) : Nat :=
  if tId = mintId ∨ tId = tsTtlProtoId then ttlReach 0 r.2.net
  else if tId = tsTtlProtoIpId then
    max (if r.2.net = .ip then 20 else ttlReach 0 r.2.net)
      (if r.2.trans = tUdp ∨ r.2.trans = tTcp ∨ r.2.trans = tSctp then r.1.trans + 4 else 0)
  else 0

theorem templateReach_le_iff {len : Nat} (hlen : len ≤ 65535) {r : HeaderOffset × Layers}
    (h : Dissected len r) (tId : Nat) :
    templateReach tId r.1 r.2 ≤ len ↔ exportReach tId r ≤ len := by
  have hports : max (portReach r.1.trans r.2.trans) (portReach (u32 (r.1.trans + 2)) r.2.trans)
      = if r.2.trans = tUdp ∨ r.2.trans = tTcp ∨ r.2.trans = tSctp then r.1.trans + 4
        else 0 := by
    rw [portReach, portReach]
    by_cases hp : r.2.trans = tUdp ∨ r.2.trans = tTcp ∨ r.2.trans = tSctp
    · have hne : r.2.trans ≠ 0 := by
        rcases hp with hp | hp | hp <;> rw [hp] <;> decide
      have hlt := h.proto hne
      have hu32 : u32 (r.1.trans + 2) = r.1.trans + 2 := Nat.mod_eq_of_lt (by omega)
      rw [if_pos hp, if_pos hp, if_pos hp, hu32]
      omega
    · rw [if_neg hp, if_neg hp, if_neg hp]
      rfl
  rw [templateReach, exportReach, h.net]
  by_cases hts : tId = tsId
  · subst hts
    exact Iff.rfl
  rw [if_neg hts]
  by_cases hmint : tId = mintId
  · rw [if_pos hmint, if_pos (Or.inl hmint)]
  rw [if_neg hmint]
  by_cases hproto : tId = tsTtlProtoId
  · rw [if_pos hproto, if_pos (Or.inr hproto)]
    cases r.2.net with
    | unknown => exact Iff.rfl
    | ip => exact Iff.rfl
    | ip6 => exact Iff.rfl
  rw [if_neg hproto, if_neg (not_or.mpr ⟨hmint, hproto⟩)]
  by_cases hip : tId = tsTtlProtoIpId
  · rw [if_pos hip, if_pos hip, ← hports]
    generalize portReach r.1.trans r.2.trans = p
    generalize portReach (u32 (r.1.trans + 2)) r.2.trans = q
    cases r.2.net with
    | unknown =>
        show max 0 (max 0 (max p (max q (max 0 0)))) ≤ len ↔ max 0 (max p q) ≤ len
        omega
    | ip =>
        show max 9 (max 4 (max p (max q (max 16 20)))) ≤ len ↔ max 20 (max p q) ≤ len
        omega
    | ip6 =>
        show max 8 (max 6 (max p (max q (max 0 0)))) ≤ len ↔ max 8 (max p q) ≤ len
        omega
  · rw [if_neg hip, if_neg hip]

/-! ## The whole path -/

/-- A program that has come to its end reads nothing. -/
theorem ret_ne_unmapped {α : Type} (m : Nat → Option UInt8) (a : α) :
    run m (.ret a) ≠ .error .unmapped := by
  intro h
  cases h

theorem stuck_ne_unmapped {α : Type} (m : Nat → Option UInt8) :
    run m (.stuck : ReadProg UInt8 α) ≠ .error .unmapped := by
  intro h
  cases h

section Path

variable {bytes : List UInt8} (hlen : bytes.length ≤ 65535)

include hlen

theorem u16_captured : u16 bytes.length = bytes.length := u16_of_lt (by omega)

/-- The selection stage, on what the dissector reports. -/
theorem selectPacket_inside_iff (o : Options) (b : Buffer) :
    run (ofList bytes) (selectPacket o b bytes.length) ≠ .error .unmapped ↔
      HeadersInside bytes ∧
        ∀ r, run (ofList bytes) (findHeaders bytes.length zeroOffsets zeroLayers) = .ok r →
          selectionReach o.selectionFunction r ≤ bytes.length := by
  have hsame : run (ofList bytes) (selectPacket o b bytes.length) ≠ .error .unmapped ↔
      run (ofList bytes) (observe o b.size bytes.length) ≠ .error .unmapped := by
    rw [← run_observe]
    cases run (ofList bytes) (selectPacket o b bytes.length) with
    | error f => exact ⟨fun h h' => h (congrArg Except.error (Except.error.inj h')),
        fun h h' => h (congrArg Except.error (Except.error.inj h'))⟩
    | ok s =>
        exact iff_of_true (ret_ne_unmapped (ofList bytes) s)
          (ret_ne_unmapped (ofList bytes) (observation s))
  rw [hsame, observe, bind_inside_iff, u16_captured hlen, run_ne_unmapped_iff rfl hlen]
  refine and_congr_right fun _ => forall_congr' fun r => imp_congr_right fun hr => ?_
  have hd := findHeaders_dissected hr
  have hreach := (Reaches.blocks (β := UInt8)
    (pieces o.selectionFunction o.rSel bytes.length b.size r.1 r.2)).inside_iff bytes
  rw [bind_inside_iff, hreach, lastEnd_pieces _ hlen hd]
  exact and_iff_left fun _ _ => ret_ne_unmapped _ _

/-- A selection carries the offsets and layers the dissector reports. -/
theorem selectPacket_layers {o : Options} {b : Buffer} {s : Selection}
    {r : HeaderOffset × Layers}
    (hr : run (ofList bytes) (findHeaders bytes.length zeroOffsets zeroLayers) = .ok r)
    (h : run (ofList bytes) (selectPacket o b bytes.length) = .ok s) :
    s.offsets = r.1 ∧ s.layers = r.2 := by
  have hobs := run_observe b (ofList bytes) o bytes.length
  rw [h, observe, u16_captured hlen, run_bind_ok _ hr] at hobs
  obtain ⟨contents, -, hret⟩ := (run_bind_eq_ok (ofList bytes)).mp hobs.symm
  have hsame : observation s = _ := (Except.ok.inj hret).symm
  exact ⟨congrArg Observation.offsets hsame, congrArg Observation.layers hsame⟩

end Path

/-- A selected packet whose record is put together. -/
def Exports (o : Options) (hashId : UInt32) (contents : List UInt8) : Prop :=
  ¬ o.exportPktidInterval ≤ 0 ∧ (packetId o hashId contents).isSome

/-- A template the table does not have asks for nothing. -/
theorem templateReach_of_none {tId : Nat} (h : getTemplate tId = none)
    (offsets : HeaderOffset) (layers : Layers) : templateReach tId offsets layers = 0 := by
  have hne : ∀ t, getTemplate t ≠ none → ¬ tId = t := fun t ht htid => ht (htid ▸ h)
  rw [templateReach, if_neg (hne tsId (by decide)), if_neg (hne mintId (by decide)),
    if_neg (hne tsTtlProtoId (by decide)), if_neg (hne tsTtlProtoIpId (by decide))]

theorem handleSelected_inside_iff (bytes : List UInt8) (o : Options) (ts : Timeval)
    (device : DeviceDev) (hashId : UInt32) (offsets : HeaderOffset) (layers : Layers) :
    run (ofList bytes) (handleSelected o ts device hashId offsets layers) ≠ .error .unmapped ↔
      (Exports o hashId device.hashBuffer.contents →
        templateReach (effectiveTemplate o device) offsets layers ≤ bytes.length) := by
  have htid : ∀ d d' : Nat, effectiveTemplate o
      { device with exportPacketCount := d, samplingSize := d' } = effectiveTemplate o device :=
    fun _ _ => rfl
  rw [handleSelected]
  by_cases hinterval : o.exportPktidInterval ≤ 0
  · simp only [if_pos hinterval]
    refine iff_of_true (ret_ne_unmapped _ _) fun hexp => ?_
    exact absurd hinterval hexp.1
  · simp only [if_neg hinterval]
    cases hid : packetId o hashId device.hashBuffer.contents with
    | none =>
        refine iff_of_true (stuck_ne_unmapped _) fun hexp => ?_
        have := hexp.2
        rw [hid] at this
        exact Bool.noConfusion this
    | some pktId =>
        have hexports : Exports o hashId device.hashBuffer.contents :=
          ⟨hinterval, by rw [hid]; rfl⟩
        rw [forall_prop_of_true hexports]
        dsimp only
        rw [htid]
        cases htemplate : getTemplate (effectiveTemplate o device) with
        | none =>
            rw [templateReach_of_none htemplate]
            exact iff_of_true (stuck_ne_unmapped _) (Nat.zero_le _)
        | some template =>
            have hreach := (fillFields_reaches (effectiveTemplate o device) ts hashId offsets
              layers).inside_iff bytes
            rw [← hreach]
            show run _ ((fillFields _ _ _ _ _).bind _) ≠ _ ↔ _
            rw [bind_inside_iff]
            refine and_iff_left fun fields _ => ?_
            cases fields with
            | none => exact ret_ne_unmapped _ _
            | some fields => exact ret_ne_unmapped _ _

/-- Behind the selection only the selected branch reads. -/
theorem decided_inside_iff {bytes : List UInt8} (hlen : bytes.length ≤ 65535) (o : Options)
    (ts : Timeval) (device : DeviceDev) {s : Selection} {r : HeaderOffset × Layers}
    (hs : run (ofList bytes) (selectPacket o device.hashBuffer bytes.length) = .ok s)
    (hr : run (ofList bytes) (findHeaders bytes.length zeroOffsets zeroLayers) = .ok r) :
    run (ofList bytes) (match s.decision with
      | .unsupported => .ret ⟨{ device with hashBuffer := s.buffer }, s.decision, none, false⟩
      | .noSelection => .ret ⟨{ device with hashBuffer := s.buffer }, s.decision, none, false⟩
      | .dropped _ => .ret ⟨{ device with
          hashBuffer := s.buffer
          packetsDropped := u32 (device.packetsDropped + 1) }, s.decision, none, false⟩
      | .selected hashId => handleSelected o ts { device with hashBuffer := s.buffer } hashId
          s.offsets s.layers) ≠ .error .unmapped ↔
    ∀ hashId, s.decision = .selected hashId → Exports o hashId s.buffer.contents →
      exportReach (effectiveTemplate o device) r ≤ bytes.length := by
  obtain ⟨hoffsets, hlayers⟩ := selectPacket_layers hlen hr hs
  cases hdecision : s.decision with
  | unsupported => exact iff_of_true (ret_ne_unmapped _ _) fun _ h => Decision.noConfusion h
  | noSelection => exact iff_of_true (ret_ne_unmapped _ _) fun _ h => Decision.noConfusion h
  | dropped hashId => exact iff_of_true (ret_ne_unmapped _ _) fun _ h => Decision.noConfusion h
  | selected hashId =>
      dsimp only
      rw [handleSelected_inside_iff, hoffsets, hlayers]
      have hiff := templateReach_le_iff hlen (findHeaders_dissected hr)
        (effectiveTemplate o device)
      constructor
      · intro h hashId' heq hexp
        obtain rfl := Decision.selected.inj heq
        exact hiff.mp (h hexp)
      · exact fun h hexp => hiff.mpr (h hashId rfl hexp)

/-- **EXACTLY WHEN NO FOREIGN BYTE IS READ**: over captured bytes with anything
    behind them, `handle_ip_packet` reads only captured bytes if and only if the
    dissector does, the capture is as long as the selection function asks, and,
    where the packet is selected and a record put together, as long as the
    template of the record asks. -/
theorem handleIpPacket_reads_inside_iff (o : Options) (ts : Timeval) (device : DeviceDev)
    (bytes tail : List UInt8) (hlen : bytes.length ≤ 65535) :
    (∀ i ∈ trace (ofList (bytes ++ tail)) (handleIpPacket o ts device bytes.length),
        i < bytes.length) ↔
      HeadersInside bytes ∧
        ∀ r, run (ofList bytes) (findHeaders bytes.length zeroOffsets zeroLayers) = .ok r →
          selectionReach o.selectionFunction r ≤ bytes.length ∧
            ∀ s hashId,
              run (ofList bytes) (selectPacket o device.hashBuffer bytes.length) = .ok s →
              s.decision = .selected hashId → Exports o hashId s.buffer.contents →
                exportReach (effectiveTemplate o device) r ≤ bytes.length := by
  rw [trace_inside_iff, handleIpPacket]
  show run _ ((selectPacket _ _ _).bind _) ≠ _ ↔ _
  rw [bind_inside_iff, selectPacket_inside_iff hlen]
  constructor
  · rintro ⟨⟨hheaders, hselect⟩, hsel⟩
    refine ⟨hheaders, fun r hr => ⟨hselect r hr, fun s hashId hs hd hexp => ?_⟩⟩
    exact (decided_inside_iff hlen o ts device hs hr).mp (hsel s hs) hashId hd hexp
  · rintro ⟨hheaders, h⟩
    refine ⟨⟨hheaders, fun r hr => (h r hr).1⟩, fun s hs => ?_⟩
    obtain ⟨r, hr⟩ : ∃ r,
        run (ofList bytes) (findHeaders bytes.length zeroOffsets zeroLayers) = .ok r := by
      have hs' := hs
      rw [selectPacket, selectFields, u16_captured hlen] at hs'
      obtain ⟨x, hx, -⟩ := (run_bind_eq_ok (ofList bytes)).mp hs'
      obtain ⟨r, hr, -⟩ := (run_bind_eq_ok (ofList bytes)).mp hx
      exact ⟨r, hr⟩
    exact (decided_inside_iff hlen o ts device hs hr).mpr
      fun hashId hd hexp => (h r hr).2 s hashId hs hd hexp

/-- A whole UDP datagram is taken apart, and handled, inside its 28 bytes. -/
theorem udp_handled_inside : HeadersInside udpPacket ∧
    ∀ i ∈ trace (ofList (udpPacket ++ [0xFF])) (handleIpPacket Settings.selectAll ⟨0, 0⟩
      (Settings.socketDevice Settings.selectAll) udpPacket.length), i < udpPacket.length := by
  have hheaders : HeadersInside udpPacket :=
    ⟨0x45, rfl, Or.inr ⟨0, .ip, _, tUdp, @TransportAt.ip (ofList udpPacket) 0x45 _ rfl rfl rfl,
      by decide⟩⟩
  refine ⟨hheaders, (handleIpPacket_reads_inside_iff Settings.selectAll ⟨0, 0⟩
    (Settings.socketDevice Settings.selectAll) udpPacket [0xFF] (by decide)).mpr ⟨hheaders, ?_⟩⟩
  intro r hr
  obtain rfl : (⟨0, 0, 20, absent⟩, ⟨.ip, 17⟩) = r := Except.ok.inj hr
  exact ⟨by decide, fun _ _ _ _ _ => by decide⟩

end Impd4e.PacketReads
