import Impd4e.BufferBound
import Impd4e.Datagrams

/-! # Does link-layer padding reach the hash?

    A capture of a datagram may carry bytes the link layer appended.  The
    presets bound what they copy by the captured length, so padding can decide
    whether a transport header counts as captured, how many bytes are copied,
    and what these bytes are.  `padding_independent_iff` names the datagrams
    for which none of this happens. -/

namespace Impd4e.Padding

open ReadProg Impd4e.Hash Impd4e.PacketHandler Impd4e.Dissector Impd4e.FieldMap
  Impd4e.BufferBound Impd4e.Datagrams Impd4e.Settings

/-! ## Captures -/

/-- A capture with all of the datagram: `pad` is captured behind it, `tail` is
    what the memory holds behind the captured bytes. -/
structure Capture (d : Datagram) where
  pad : List UInt8
  tail : List UInt8
  caplen_lt : d.bytes.length + pad.length < 4294967296

namespace Capture

variable {d : Datagram} (c : Capture d)

def len : Nat := d.bytes.length + c.pad.length

def mem : Nat → Option UInt8 := ofList (d.bytes ++ c.pad ++ c.tail)

end Capture

variable {d : Datagram}

/-- The hash input and the decision one capture gives. -/
def outcome (o : Options) (b : Buffer) (c : Capture d) :
    Except Fault (List UInt8 × Decision) :=
  (run c.mem (selectPacket o b c.len)).map (fun s => (s.buffer.contents, s.decision))

/-- Two captures are told apart by no device with the selection function `f`. -/
def SameOutcome (f : SelectionFunction) (c c' : Capture d) : Prop :=
  ∀ (o : Options) (b b' : Buffer), o.selectionFunction = f →
    outcome o b c = outcome o b' c'

/-! ## The hash input -/

/-- The hash input a preset makes of a packet; the ranges and the size of the
    buffer are of no account. -/
abbrev presetInput (f : SelectionFunction) (len : Nat) : Reader (List UInt8) :=
  hashInput f [] 0 len

theorem outcome_eq {f : SelectionFunction} (hf : Preset f) {o : Options}
    (ho : o.selectionFunction = f) (b : Buffer) (c : Capture d) :
    outcome o b c
      = (run c.mem (presetInput f c.len)).map (fun bytes => (bytes, rangeTest o bytes)) := by
  have hprog : hashInput f o.rSel b.size c.len = presetInput f c.len := by
    rw [hashInput]
    refine congrArg _ (funext fun r => ?_)
    rw [pieces_preset hf o.rSel [] c.len b.size 0]
  rw [outcome, FieldMap.run_hashInput, ho, hprog]

/-- No device tells two captures apart exactly when their hash inputs agree. -/
theorem sameOutcome_iff {f : SelectionFunction} (hf : Preset f) (c c' : Capture d) :
    SameOutcome f c c' ↔ run c.mem (presetInput f c.len) = run c'.mem (presetInput f c'.len) := by
  constructor
  · intro h
    have hb : Buffer := (setDefaultsDevice (optionsWith f) zeroDevice).hashBuffer
    have h' := h (optionsWith f) hb hb rfl
    rw [outcome_eq hf rfl, outcome_eq hf rfl] at h'
    revert h'
    cases run c.mem (presetInput f c.len) with
    | error e =>
        cases run c'.mem (presetInput f c'.len) with
        | error e' => exact fun h' => congrArg Except.error (Except.error.inj h')
        | ok bytes' => exact fun h' => nomatch h'
    | ok bytes =>
        cases run c'.mem (presetInput f c'.len) with
        | error e' => exact fun h' => nomatch h'
        | ok bytes' =>
            exact fun h' => congrArg Except.ok (congrArg Prod.fst (Except.ok.inj h'))
  · intro h o b b' ho
    rw [outcome_eq hf ho, outcome_eq hf ho, h]

/-! ## The headers a preset sees -/

/-- What `findHeaders` reports to a preset when it looks for the transport
    header at `offs`; no preset asks for the payload. -/
def headersAt (net : NetProt) (offs : Nat) (proto : UInt8) (packetLength : Nat) :
    HeaderOffset × Layers :=
  if offs < packetLength then (⟨0, 0, offs, absent⟩, ⟨net, proto⟩)
  else (⟨0, 0, absent, absent⟩, ⟨net, tUnknown⟩)

/-- The pieces of a preset, and whether they are kept, by the same knowledge. -/
def presetPieces (f : SelectionFunction) (net : NetProt) (offs : Nat) (proto : UInt8)
    (len : Nat) : Pieces :=
  pieces f [] len 0 (headersAt net offs proto (u16 len)).1 (headersAt net offs proto (u16 len)).2

def presetKeeps (f : SelectionFunction) (net : NetProt) (offs : Nat) (proto : UInt8)
    (len : Nat) : Bool :=
  keeps f (headersAt net offs proto (u16 len)).1 (headersAt net offs proto (u16 len)).2

theorem preset_congr {f : SelectionFunction} (hf : Preset f) {r r' : HeaderOffset × Layers}
    (hnet : r.1.net = r'.1.net) (htrans : r.1.trans = r'.1.trans) (hly : r.2 = r'.2)
    (len : Nat) :
    pieces f [] len 0 r.1 r.2 = pieces f [] len 0 r'.1 r'.2 ∧
      keeps f r.1 r.2 = keeps f r'.1 r'.2 := by
  obtain ⟨⟨link, net, trans, payload⟩, layers⟩ := r
  obtain ⟨⟨link', net', trans', payload'⟩, layers'⟩ := r'
  obtain rfl : net = net' := hnet
  obtain rfl : trans = trans' := htrans
  obtain rfl : layers = layers' := hly
  rcases hf with rfl | rfl | rfl | rfl
  · exact ⟨rfl, rfl⟩
  · exact ⟨rfl, rfl⟩
  · exact ⟨rfl, rfl⟩
  · exact ⟨rfl, rfl⟩

section Located

variable {m : Nat → Option UInt8} {n offs : Nat} {net : NetProt} {proto : UInt8}
  (ht : TransportAt m n net offs proto) (hn : n ≤ maxRounds)

include ht hn

/-- With the transport position known, the hash input is the preset's pieces,
    unless the data offset of a TCP header is not there. -/
theorem run_presetInput {f : SelectionFunction} (hf : Preset f) {len : Nat}
    (htcp : ¬ (proto = tTcp ∧ offs + 12 ≤ u16 len ∧ m (offs + 12) = none)) :
    run m (presetInput f len)
      = (run m (blocks (presetPieces f net offs proto len))).map (fun bytes =>
          if presetKeeps f net offs proto len then bytes else []) := by
  have hnet : zeroOffsets.net = 0 := rfl
  cases hr : run m (findHeaders (u16 len) zeroOffsets zeroLayers) with
  | error e =>
      rw [findHeaders, run_findHeadersIn hnet ht hn] at hr
      exact absurd (run_findTransport_error.mp hr).2 htcp
  | ok r =>
      -- the preset sees only these three parts of the report
      have hview : r.1.net = (headersAt net offs proto (u16 len)).1.net ∧
          r.1.trans = (headersAt net offs proto (u16 len)).1.trans ∧
          r.2 = (headersAt net offs proto (u16 len)).2 := by
        rw [headersAt]
        rcases findHeaders_found hnet ht hn hr with ⟨hle, rfl⟩ | ⟨hlt, hfound⟩
        · rw [if_neg (by omega)]
          exact ⟨rfl, rfl, rfl⟩
        · rw [if_pos hlt]
          exact ⟨hfound.net, hfound.trans, hfound.layers⟩
      obtain ⟨hps, hk⟩ := preset_congr hf hview.1 hview.2.1 hview.2.2 len
      rw [presetInput, hashInput, run_bind_ok m hr, hps, hk, run_bind]
      rfl

end Located

/-! ## Enough for independence -/

/-- The dissector finds the transport header by the datagram's own bytes, and the
    byte its TCP guard leaves out does not lie in the padding. -/
def HeaderKnown (d : Datagram) (net : NetProt) (offs : Nat) (proto : UInt8) : Prop :=
  (∃ n, TransportAt (ofList d.bytes) n net offs proto) ∧
    ¬ (proto = tTcp ∧ d.bytes.length ≤ offs + 12 ∧ offs + 12 ≤ 65535)

theorem Capture.mem_eq (c : Capture d) : c.mem = ofList (d.bytes ++ (c.pad ++ c.tail)) := by
  rw [Capture.mem, List.append_assoc]

theorem rounds_le {n offs : Nat} {net : NetProt} {proto : UInt8}
    (ht : TransportAt (ofList d.bytes) n net offs proto) : n ≤ maxRounds := by
  have h1 := transportAt_rounds ht
  have h2 := length_le d
  rw [maxRounds]
  omega

section Known

variable {net : NetProt} {offs : Nat} {proto : UInt8} (hk : HeaderKnown d net offs proto)

include hk

/-- Every capture then yields the preset's pieces. -/
theorem run_presetInput_known {f : SelectionFunction} (hf : Preset f) (c : Capture d) :
    run c.mem (presetInput f c.len)
      = (run c.mem (blocks (presetPieces f net offs proto c.len))).map (fun bytes =>
          if presetKeeps f net offs proto c.len then bytes else []) := by
  obtain ⟨⟨n, ht⟩, htcp⟩ := hk
  have hmono : ∀ i b, ofList d.bytes i = some b → c.mem i = some b := by
    intro i b hb
    rw [c.mem_eq]
    exact ofList_append_of_some _ hb
  refine run_presetInput (transportAt_mono hmono ht) (rounds_le ht) hf ?_
  rintro ⟨h1, h2, h3⟩
  have hu16 : u16 c.len ≤ c.len := u16_le _
  have hlt := u16_lt c.len
  rw [Capture.mem, ofList_apply, List.getElem?_eq_none_iff, List.length_append,
    List.length_append] at h3
  have hlen : c.len = d.bytes.length + c.pad.length := rfl
  exact htcp ⟨h1, by omega, by omega⟩

/-- When the pieces lie in the datagram and do not depend on the captured
    length, all captures give one outcome. -/
theorem same_of_steady {f : SelectionFunction} (hf : Preset f) (P : Nat → Prop)
    (ps : Pieces) (keep : Bool) (hinside : ∀ p ∈ ps, p.1 + p.2 ≤ d.bytes.length)
    (hsteady : ∀ len, d.bytes.length ≤ len → len < 4294967296 → P len →
      presetPieces f net offs proto len = ps ∧ presetKeeps f net offs proto len = keep)
    (c c' : Capture d) (hc : P c.len) (hc' : P c'.len) : SameOutcome f c c' := by
  -- every capture gives what the datagram alone gives
  have hrun : ∀ c : Capture d, P c.len → run c.mem (presetInput f c.len)
      = (run (ofList d.bytes) (blocks ps)).map (fun bytes =>
          if keep then bytes else []) := by
    intro c hc
    obtain ⟨hps, hkeep⟩ := hsteady c.len (Nat.le_add_right ..) c.caplen_lt hc
    have hin : run (ofList d.bytes) (blocks ps) ≠ .error .unmapped := by
      rw [run_blocks d.bytes ps hinside]
      exact fun h => nomatch h
    rw [run_presetInput_known hk hf, hps, hkeep, c.mem_eq, run_append hin]
  rw [sameOutcome_iff hf, hrun c hc, hrun c' hc']

end Known

/-! ## The pieces of each preset -/

section Presets

variable {net : NetProt} {offs : Nat} {proto : UInt8} {len : Nat}

/-- The pieces of the fixed header, which lies at the start of the packet. -/
abbrev headPieces (net : NetProt) : Pieces := netPieces zeroOffsets net

theorem presetPieces_found (f : SelectionFunction) (h : offs < u16 len) :
    presetPieces f net offs proto len = pieces f [] len 0 ⟨0, 0, offs, absent⟩ ⟨net, proto⟩ ∧
      presetKeeps f net offs proto len = keeps f ⟨0, 0, offs, absent⟩ ⟨net, proto⟩ := by
  rw [presetPieces, presetKeeps, headersAt]
  rw [if_pos h]
  exact ⟨rfl, rfl⟩

theorem presetPieces_missing (f : SelectionFunction) (h : u16 len ≤ offs) :
    presetPieces f net offs proto len
        = pieces f [] len 0 ⟨0, 0, absent, absent⟩ ⟨net, tUnknown⟩ ∧
      presetKeeps f net offs proto len
        = keeps f ⟨0, 0, absent, absent⟩ ⟨net, tUnknown⟩ := by
  rw [presetPieces, presetKeeps, headersAt]
  rw [if_neg (by omega)]
  exact ⟨rfl, rfl⟩

theorem netPieces_head (headerOffset : HeaderOffset) (h : headerOffset.net = 0)
    (net : NetProt) : netPieces headerOffset net = headPieces net := by
  cases net with
  | unknown => rfl
  | ip => rw [netPieces, h]; rfl
  | ip6 => rw [netPieces, h]; rfl

theorem headPieces_inside {size : Nat} (h : netLength net ≤ size) :
    ∀ p ∈ headPieces net, p.1 + p.2 ≤ size := by
  intro p hp
  cases net with
  | unknown => exact nomatch hp
  | ip =>
      have h' : 20 ≤ size := h
      simp only [headPieces, netPieces, zeroOffsets, List.mem_cons, List.not_mem_nil,
        or_false] at hp
      rcases hp with rfl | rfl | rfl <;> dsimp only <;> omega
  | ip6 =>
      have h' : 40 ≤ size := h
      simp only [headPieces, netPieces, zeroOffsets, List.mem_cons, List.not_mem_nil,
        or_false] at hp
      rcases hp with rfl | rfl <;> dsimp only <;> omega

/-- The IP preset never looks behind the fixed header. -/
theorem onlyNet_pieces (len : Nat) :
    presetPieces .onlyNet net offs proto len = headPieces net ∧
      presetKeeps .onlyNet net offs proto len = true := by
  rcases Nat.lt_or_ge offs (u16 len) with h | h
  · rw [(presetPieces_found _ h).1, (presetPieces_found _ h).2]
    exact ⟨netPieces_head _ rfl _, rfl⟩
  · rw [(presetPieces_missing _ h).1, (presetPieces_missing _ h).2]
    exact ⟨netPieces_head _ rfl _, rfl⟩

/-- PACKET copies up to fifty bytes behind the twentieth, as the captured length
    allows. -/
theorem packet_pieces (len : Nat) :
    presetPieces .packet net offs proto len
        = headPieces net ++ [(20, min (subU32 len 20) 50)] ∧
      presetKeeps .packet net offs proto len = true := by
  rcases Nat.lt_or_ge offs (u16 len) with h | h
  · rw [(presetPieces_found _ h).1, (presetPieces_found _ h).2, pieces, packetPieces,
      netPieces_head _ rfl]
    exact ⟨rfl, rfl⟩
  · rw [(presetPieces_missing _ h).1, (presetPieces_missing _ h).2, pieces, packetPieces,
      netPieces_head _ rfl]
    exact ⟨rfl, rfl⟩

theorem hasTransport_found (h : offs < u16 len) (hp : proto ≠ tUnknown) :
    hasTransport ⟨0, 0, offs, absent⟩ ⟨net, proto⟩ = true := by
  have hlt := u16_lt len
  have hoffs : offs ≠ absent := by
    rw [absent]
    omega
  rw [hasTransport]
  rw [bne_iff_ne.mpr hoffs, bne_iff_ne.mpr hp]
  rfl

theorem hasTransport_unknown : hasTransport ⟨0, 0, offs, absent⟩ ⟨net, tUnknown⟩ = false := by
  rw [hasTransport]
  rw [Bool.and_eq_false_iff]
  exact Or.inr rfl

/-- Of the versions a datagram has, one that is not 6 is 4. -/
theorem eq_ip_of_ne (hknown : net ≠ .unknown) (hip6 : net ≠ .ip6) : net = .ip := by
  cases net with
  | unknown => exact absurd rfl hknown
  | ip => rfl
  | ip6 => exact absurd rfl hip6

theorem recPieces_none {headerOffset : HeaderOffset} {layers : Layers}
    (h : ¬ (hasTransport headerOffset layers ∧ layers.net = .ip)) :
    recPieces headerOffset layers = [] := by
  rw [recPieces, if_neg h]

/-- REC8 copies nothing but of an IPv4 packet with a captured transport header. -/
theorem rec8_pieces_none (h : net ≠ .ip ∨ proto = tUnknown ∨ u16 len ≤ offs) :
    presetPieces .rec8 net offs proto len = [] := by
  rcases Nat.lt_or_ge offs (u16 len) with hlt | hle
  · rw [(presetPieces_found _ hlt).1]
    refine recPieces_none (fun hh => ?_)
    rcases h with h | h | h
    · exact h hh.2
    · rw [h, hasTransport_unknown] at hh
      exact absurd hh.1 (by decide)
    · omega
  · rw [(presetPieces_missing _ hle).1]
    refine recPieces_none (fun hh => ?_)
    rw [hasTransport_unknown] at hh
    exact absurd hh.1 (by decide)

theorem rec8_pieces_found (hip : net = .ip) (hp : proto ≠ tUnknown) (h : offs < u16 len) :
    presetPieces .rec8 net offs proto len = (4, 2) :: recTransPieces offs proto := by
  rw [(presetPieces_found _ h).1, pieces, recPieces,
    if_pos ⟨hasTransport_found h hp, hip⟩]

/-- IP+TP gives nothing but of a packet with a captured transport header. -/
theorem uTcpAndNet_none (h : proto = tUnknown ∨ u16 len ≤ offs) :
    presetPieces .uTcpAndNet net offs proto len = headPieces net ∧
      presetKeeps .uTcpAndNet net offs proto len = false := by
  rcases Nat.lt_or_ge offs (u16 len) with hlt | hle
  · obtain rfl : proto = tUnknown := h.resolve_right (by omega)
    rw [(presetPieces_found _ hlt).1, (presetPieces_found _ hlt).2, pieces,
      uTcpAndNetPieces, netPieces_head _ rfl, hasTransport_unknown, keeps,
      hasTransport_unknown]
    exact ⟨List.append_nil _, rfl⟩
  · rw [(presetPieces_missing _ hle).1, (presetPieces_missing _ hle).2, pieces,
      uTcpAndNetPieces, netPieces_head _ rfl, hasTransport_unknown, keeps,
      hasTransport_unknown]
    exact ⟨List.append_nil _, rfl⟩

theorem uTcpAndNet_found (hp : proto ≠ tUnknown) (h : offs < u16 len) :
    presetPieces .uTcpAndNet net offs proto len
        = headPieces net ++ transPieces len offs proto ∧
      presetKeeps .uTcpAndNet net offs proto len = true := by
  rw [(presetPieces_found _ h).1, (presetPieces_found _ h).2, pieces, uTcpAndNetPieces,
    netPieces_head _ rfl, hasTransport_found h hp, keeps, hasTransport_found h hp]
  exact ⟨rfl, rfl⟩

end Presets

/-! ## The conditions -/

/-- How much of the transport header REC8 takes; of an unknown one it only needs
    to know that it is there. -/
def recNeed (proto : UInt8) : Nat :=
  if proto = tTcp then 18
  else if proto = tUdp then 8
  else if proto = tIcmp ∨ proto = tIcmp6 then 16
  else 1

/-- How much of the transport header IP+TP takes. -/
def transNeed (proto : UInt8) : Nat :=
  if proto = tTcp ∨ proto = tIcmp ∨ proto = tIcmp6 then 20
  else if proto = tUdp then 8
  else 1

/-- Whatever length is captured, the preset takes the same bytes of the datagram. -/
def Independent (d : Datagram) (f : SelectionFunction) : Prop :=
  ∃ net offs proto, HeaderKnown d net offs proto ∧
    ((f = .onlyNet) ∨
      (f = .packet ∧ 70 ≤ d.bytes.length) ∨
      (f = .rec8 ∧ (net = .ip6 ∨ proto = tUnknown)) ∨
      (f = .uTcpAndNet ∧ (proto = tUnknown ∨ 65535 ≤ offs)))

/-- The same for captures whose length fits 16 bits, where a captured transport
    header is never overlooked. -/
def ShortIndependent (d : Datagram) (f : SelectionFunction) : Prop :=
  65535 < d.bytes.length ∨
    ∃ net offs proto, HeaderKnown d net offs proto ∧
      ((f = .onlyNet) ∨
        (f = .packet ∧ 70 ≤ d.bytes.length) ∨
        (f = .rec8 ∧ (net = .ip6 ∨ proto = tUnknown ∨
          offs + recNeed proto ≤ d.bytes.length)) ∨
        (f = .uTcpAndNet ∧ (proto = tUnknown ∨ d.bytes.length = 65535 ∨
          offs + transNeed proto ≤ d.bytes.length)))

theorem recNeed_pos (proto : UInt8) : 0 < recNeed proto := by
  rw [recNeed]
  split
  · decide
  split
  · decide
  split
  · decide
  · decide

theorem transNeed_pos (proto : UInt8) : 0 < transNeed proto := by
  rw [transNeed]
  split
  · decide
  split
  · decide
  · decide

theorem recTransPieces_inside {offs size : Nat} {proto : UInt8}
    (h : offs + recNeed proto ≤ size) :
    ∀ p ∈ recTransPieces offs proto, p.1 + p.2 ≤ size := by
  intro p hp
  unfold recNeed at h
  unfold recTransPieces at hp
  -- one case for each shape of transport header, as in the source
  by_cases htcp : proto = tTcp
  · rw [if_pos htcp] at h hp
    simp only [List.mem_cons, List.not_mem_nil, or_false] at hp
    rcases hp with rfl | rfl | rfl <;> dsimp only <;> omega
  rw [if_neg htcp] at h hp
  by_cases hudp : proto = tUdp
  · rw [if_pos hudp] at h hp
    simp only [List.mem_cons, List.not_mem_nil, or_false] at hp
    rcases hp with rfl | rfl | rfl <;> dsimp only <;> omega
  rw [if_neg hudp] at h hp
  by_cases hicmp : proto = tIcmp ∨ proto = tIcmp6
  · rw [if_pos hicmp] at h hp
    simp only [List.mem_cons, List.not_mem_nil, or_false] at hp
    rcases hp with rfl | rfl <;> dsimp only <;> omega
  · rw [if_neg hicmp] at hp
    exact nomatch hp

/-- IP+TP copies captured bytes only. -/
theorem transPieces_inside {offs len : Nat} {proto : UInt8} (h : offs ≤ len)
    (hlt : len < 4294967296) : ∀ p ∈ transPieces len offs proto, p.1 + p.2 ≤ len := by
  intro p hp
  unfold transPieces at hp
  rw [subU32_of_le h hlt] at hp
  split at hp
  · rw [List.mem_singleton.mp hp]
    dsimp only
    omega
  split at hp
  · rw [List.mem_singleton.mp hp]
    dsimp only
    omega
  · exact nomatch hp

/-- Of a complete transport header IP+TP copies a fixed number of bytes. -/
theorem transPieces_steady {offs size len : Nat} {proto : UInt8}
    (h : offs + transNeed proto ≤ size) (hle : size ≤ len) (hlt : len < 4294967296) :
    transPieces len offs proto = transPieces size offs proto := by
  unfold transNeed at h
  unfold transPieces
  by_cases h20 : proto = tTcp ∨ proto = tIcmp ∨ proto = tIcmp6
  · rw [if_pos h20] at h
    rw [if_pos h20, if_pos h20, subU32_of_le (by omega) hlt,
      subU32_of_le (by omega) (by omega), Nat.min_eq_left (by omega),
      Nat.min_eq_left (by omega)]
  rw [if_neg h20] at h
  rw [if_neg h20, if_neg h20]
  by_cases hudp : proto = tUdp
  · rw [if_pos hudp] at h
    rw [if_pos hudp, if_pos hudp, subU32_of_le (by omega) hlt,
      subU32_of_le (by omega) (by omega), Nat.min_eq_left (by omega),
      Nat.min_eq_left (by omega)]
  · rw [if_neg hudp, if_neg hudp]

section Sufficient

variable {net : NetProt} {offs : Nat} {proto : UInt8} (hk : HeaderKnown d net offs proto)

include hk

theorem headPieces_datagram : ∀ p ∈ headPieces net, p.1 + p.2 ≤ d.bytes.length := by
  obtain ⟨⟨n, ht⟩, -⟩ := hk
  exact headPieces_inside (transportAt_length ht).1

theorem onlyNet_same (c c' : Capture d) : SameOutcome .onlyNet c c' :=
  same_of_steady hk (Or.inr (Or.inl rfl)) (fun _ => True) (headPieces net) true
    (headPieces_datagram hk) (fun len _ _ _ => onlyNet_pieces len) c c' trivial trivial

theorem packet_same (h70 : 70 ≤ d.bytes.length) (c c' : Capture d) :
    SameOutcome .packet c c' := by
  refine same_of_steady hk (Or.inr (Or.inr (Or.inr rfl))) (fun _ => True)
    (headPieces net ++ [(20, 50)]) true ?_ ?_ c c' trivial trivial
  · intro p hp
    rcases List.mem_append.mp hp with hp | hp
    · exact headPieces_datagram hk p hp
    · rw [List.mem_singleton.mp hp]
      exact h70
  · intro len hle hlt _
    -- the piece behind the twentieth byte is full at any captured length
    rw [(packet_pieces len).1, (packet_pieces len).2, subU32_of_le (by omega) hlt,
      Nat.min_eq_right (by omega)]
    exact ⟨rfl, rfl⟩

/-- Without a transport header REC8 copies nothing at any length. -/
theorem rec8_none_same (h : net = .ip6 ∨ proto = tUnknown) (c c' : Capture d) :
    SameOutcome .rec8 c c' := by
  refine same_of_steady hk (Or.inl rfl) (fun _ => True) [] true
    (fun p hp => nomatch hp) (fun len _ _ _ => ⟨rec8_pieces_none ?_, rfl⟩) c c' trivial
    trivial
  rcases h with rfl | h
  · exact Or.inl (by decide)
  · exact Or.inr (Or.inl h)

/-- A complete transport header gives REC8 the same bytes at any short length. -/
theorem rec8_found_same (hip : net = .ip) (hp : proto ≠ tUnknown)
    (hneed : offs + recNeed proto ≤ d.bytes.length) (c c' : Capture d)
    (hc : c.len ≤ 65535) (hc' : c'.len ≤ 65535) : SameOutcome .rec8 c c' := by
  have hpos := recNeed_pos proto
  refine same_of_steady hk (Or.inl rfl) (fun len => len ≤ 65535)
    ((4, 2) :: recTransPieces offs proto) true ?_ ?_ c c' hc hc'
  · intro p hp
    rcases List.mem_cons.mp hp with rfl | hp
    · have := length_ge d
      dsimp only
      omega
    · exact recTransPieces_inside hneed p hp
  · intro len hle _ h16
    have hu16 : u16 len = len := u16_of_lt (by omega)
    exact ⟨rec8_pieces_found hip hp (by omega), rfl⟩

/-- Without a transport header IP+TP gives nothing at any length. -/
theorem uTcpAndNet_none_same (h : proto = tUnknown ∨ 65535 ≤ offs) (c c' : Capture d) :
    SameOutcome .uTcpAndNet c c' := by
  refine same_of_steady hk (Or.inr (Or.inr (Or.inl rfl))) (fun _ => True)
    (headPieces net) false (headPieces_datagram hk)
    (fun len _ _ _ => uTcpAndNet_none ?_) c c' trivial trivial
  rcases h with h | h
  · exact Or.inl h
  -- no 16-bit packet length is beyond this offset
  · have := u16_lt len
    exact Or.inr (by omega)

/-- A complete transport header gives IP+TP the same bytes at any short length. -/
theorem uTcpAndNet_found_same (hp : proto ≠ tUnknown)
    (hneed : offs + transNeed proto ≤ d.bytes.length) (c c' : Capture d)
    (hc : c.len ≤ 65535) (hc' : c'.len ≤ 65535) : SameOutcome .uTcpAndNet c c' := by
  have hpos := transNeed_pos proto
  have hlt := length_le d
  refine same_of_steady hk (Or.inr (Or.inr (Or.inl rfl))) (fun len => len ≤ 65535)
    (headPieces net ++ transPieces d.bytes.length offs proto) true ?_ ?_ c c' hc hc'
  · intro p hp
    rcases List.mem_append.mp hp with hp | hp
    · exact headPieces_datagram hk p hp
    · exact transPieces_inside (by omega) (by omega) p hp
  · intro len hle hlt h16
    have hu16 : u16 len = len := u16_of_lt (by omega)
    obtain ⟨hps, hkeep⟩ := uTcpAndNet_found hp (show offs < u16 len by omega)
    rw [hps, hkeep, transPieces_steady hneed hle hlt]
    exact ⟨rfl, rfl⟩

/-- A datagram of 65535 bytes leaves no room for padding. -/
theorem uTcpAndNet_full_same (hfull : d.bytes.length = 65535) (c c' : Capture d)
    (hc : c.len ≤ 65535) (hc' : c'.len ≤ 65535) : SameOutcome .uTcpAndNet c c' := by
  -- only one captured length is left, so nothing can vary with it
  by_cases hnone : proto = tUnknown ∨ 65535 ≤ offs
  · exact uTcpAndNet_none_same hk hnone c c'
  · obtain ⟨hp, hoffs⟩ := not_or.mp hnone
    refine same_of_steady hk (Or.inr (Or.inr (Or.inl rfl))) (fun len => len ≤ 65535)
      (headPieces net ++ transPieces 65535 offs proto) true ?_ ?_ c c' hc hc'
    · intro p hp
      rcases List.mem_append.mp hp with hp | hp
      · exact headPieces_datagram hk p hp
      · rw [hfull]
        exact transPieces_inside (by omega) (by omega) p hp
    · intro len hle _ h16
      obtain rfl : len = 65535 := by omega
      exact uTcpAndNet_found hp (show offs < u16 65535 by rw [u16]; omega)

end Sufficient

/-- The conditions are enough. -/
theorem independent_same {f : SelectionFunction} (h : Independent d f)
    (c c' : Capture d) : SameOutcome f c c' := by
  obtain ⟨net, offs, proto, hk, rfl | ⟨rfl, h70⟩ | ⟨rfl, hnone⟩ | ⟨rfl, hnone⟩⟩ := h
  · exact onlyNet_same hk c c'
  · exact packet_same hk h70 c c'
  · exact rec8_none_same hk hnone c c'
  · exact uTcpAndNet_none_same hk hnone c c'

theorem shortIndependent_same {f : SelectionFunction} (h : ShortIndependent d f)
    (c c' : Capture d) (hc : c.len ≤ 65535) (hc' : c'.len ≤ 65535) :
    SameOutcome f c c' := by
  rcases h with hlong | ⟨net, offs, proto, hk, rfl | ⟨rfl, h70⟩ | ⟨rfl, h⟩ | ⟨rfl, h⟩⟩
  · have : d.bytes.length ≤ c.len := Nat.le_add_right ..
    exact absurd hlong (by omega)
  · exact onlyNet_same hk c c'
  · exact packet_same hk h70 c c'
  · by_cases hnone : net = .ip6 ∨ proto = tUnknown
    · exact rec8_none_same hk hnone c c'
    · obtain ⟨hip6, hp⟩ := not_or.mp hnone
      have hneed := (h.resolve_left hip6).resolve_left hp
      -- a datagram is of version 4 or 6
      obtain ⟨⟨n, ht⟩, -⟩ := id hk
      have hip := eq_ip_of_ne (transportAt_length ht).2.2.2.2 hip6
      exact rec8_found_same hk hip hp hneed c c' hc hc'
  · rcases h with hp | hfull | hneed
    · exact uTcpAndNet_none_same hk (Or.inl hp) c c'
    · exact uTcpAndNet_full_same hk hfull c c' hc hc'
    · by_cases hp : proto = tUnknown
      · exact uTcpAndNet_none_same hk (Or.inl hp) c c'
      · exact uTcpAndNet_found_same hk hp hneed c c' hc hc'

/-! ## Nothing less is enough -/

/-- The length of the hash input at one captured length. -/
def inputLength (f : SelectionFunction) (net : NetProt) (offs : Nat) (proto : UInt8)
    (len : Nat) : Nat :=
  if presetKeeps f net offs proto len then extent (presetPieces f net offs proto len) else 0

/-- The capture of a datagram up to some length, with zeros for padding. -/
def zeroCapture (len : Nat) (h : len < 4294967296) (hle : d.bytes.length ≤ len)
    (tail : List UInt8) : Capture d where
  pad := List.replicate (len - d.bytes.length) 0
  tail := tail
  caplen_lt := by
    rw [List.length_replicate]
    omega

theorem zeroCapture_len (len : Nat) (h : len < 4294967296) (hle : d.bytes.length ≤ len)
    (tail : List UInt8) : (zeroCapture len h hle tail).len = len := by
  show d.bytes.length + (List.replicate (len - d.bytes.length) (0 : UInt8)).length = len
  rw [List.length_replicate]
  omega

section Necessary

variable {f : SelectionFunction} (hf : Preset f) {P : Nat → Prop}
  (hsame : ∀ c c' : Capture d, P c.len → P c'.len → SameOutcome f c c')

include hf hsame

/-- The hash input of a capture must not depend on what the memory holds behind
    it, so it is made of captured bytes. -/
theorem inside_of_same {len : Nat} (h : len < 4294967296) (hle : d.bytes.length ≤ len)
    (hP : P len) :
    run (ofList (d.bytes ++ List.replicate (len - d.bytes.length) 0)) (presetInput f len)
      ≠ .error .unmapped := by
  rw [← run_tail_iff]
  intro t t'
  have h1 := zeroCapture_len len h hle t
  have h2 := zeroCapture_len len h hle t'
  have hst := (sameOutcome_iff hf _ _).mp
    (hsame (zeroCapture len h hle t) (zeroCapture len h hle t') (by rw [h1]; exact hP)
      (by rw [h2]; exact hP))
  rw [h1, h2] at hst
  exact hst

/-- Without padding it is made of the datagram. -/
theorem inside_datagram_of_same (hPd : P d.bytes.length) :
    run (ofList d.bytes) (presetInput f d.bytes.length) ≠ .error .unmapped := by
  have hlt := length_le d
  have hin := inside_of_same hf hsame (by omega) (Nat.le_refl _) hPd
  rwa [Nat.sub_self, List.replicate_zero, List.append_nil] at hin

/-- The transport position follows from the datagram, and no padding makes the
    TCP guard read behind the capture. -/
theorem known_of_same (hP : ∀ len, d.bytes.length ≤ len → len ≤ 65535 → P len)
    (hPd : P d.bytes.length) : ∃ net offs proto, HeaderKnown d net offs proto := by
  have hnet : zeroOffsets.net = 0 := rfl
  have hlen := length_le d
  obtain ⟨first, h0, hv⟩ := byte_version d
  have hin := inside_datagram_of_same hf hsame hPd
  have hfind : run (ofList d.bytes) (findHeaders (u16 d.bytes.length) zeroOffsets zeroLayers)
      ≠ .error .unmapped := fun he => hin (run_bind_error _ he _)
  obtain ⟨n, net, offs, proto, ht⟩ := transportAt_of_mapped hnet
    (by rw [maxRounds]; omega) h0 hv hfind
  refine ⟨net, offs, proto, ⟨n, ht⟩, ?_⟩
  rintro ⟨htcp, hle, h16⟩
  -- pad the TCP header up to its twelfth byte
  refine inside_of_same hf hsame (by omega) hle (hP _ hle h16) ?_
  have hmono : ∀ i b, ofList d.bytes i = some b →
      ofList (d.bytes ++ List.replicate (offs + 12 - d.bytes.length) 0) i = some b :=
    fun _ _ => ofList_append_of_some _
  have hu16 : u16 (offs + 12) = offs + 12 := u16_of_lt (by omega)
  refine run_bind_error _ ?_ _
  rw [findHeaders, run_findHeadersIn hnet (transportAt_mono hmono ht) (rounds_le ht),
    run_findTransport_error, hu16, ofList_apply, List.getElem?_eq_none_iff,
    List.length_append, List.length_replicate]
  exact ⟨rfl, htcp, Nat.le_refl _, by omega⟩

section Known

variable {net : NetProt} {offs : Nat} {proto : UInt8} (hk : HeaderKnown d net offs proto)

include hk

/-- A capture of some length has a hash input of the preset's length. -/
theorem run_length_of_same {len : Nat} (h : len < 4294967296) (hle : d.bytes.length ≤ len)
    (hP : P len) :
    ∃ bytes, run (zeroCapture (d := d) len h hle []).mem (presetInput f len) = .ok bytes ∧
      bytes.length = inputLength f net offs proto len := by
  have hin := inside_of_same hf hsame h hle hP
  have hlen := zeroCapture_len len h hle []
  have hrun := run_presetInput_known hk hf (zeroCapture len h hle [])
  rw [hlen] at hrun
  have hmem : (zeroCapture (d := d) len h hle []).mem
      = ofList (d.bytes ++ List.replicate (len - d.bytes.length) 0) := by
    rw [Capture.mem]
    exact congrArg ofList (List.append_nil _)
  rw [← hmem] at hin
  cases hb : run (zeroCapture (d := d) len h hle []).mem
      (blocks (presetPieces f net offs proto len)) with
  | error e =>
      rw [hb] at hrun
      cases e with
      | unmapped => exact absurd hrun hin
      -- copying pieces has no loop to get stuck in
      | stuck => exact absurd hb (blocks_not_stuck _)
  | ok bytes =>
      rw [hb] at hrun
      refine ⟨_, hrun, ?_⟩
      have hext := (blocks_triple (P := fun _ => True) _ (fun _ _ _ _ _ => trivial)).2
        bytes hb
      rw [inputLength]
      split
      · exact hext
      · rfl

/-- So the preset's length is the same at all captured lengths. -/
theorem inputLength_eq {len len' : Nat} (h : len < 4294967296) (h' : len' < 4294967296)
    (hle : d.bytes.length ≤ len) (hle' : d.bytes.length ≤ len') (hP : P len)
    (hP' : P len') :
    inputLength f net offs proto len = inputLength f net offs proto len' := by
  obtain ⟨bytes, hrun, hlen⟩ := run_length_of_same hf hsame hk h hle hP
  obtain ⟨bytes', hrun', hlen'⟩ := run_length_of_same hf hsame hk h' hle' hP'
  have h1 := zeroCapture_len len h hle []
  have h2 := zeroCapture_len len' h' hle' []
  have hst := (sameOutcome_iff hf _ _).mp
    (hsame (zeroCapture len h hle []) (zeroCapture len' h' hle' [])
      (by rw [h1]; exact hP) (by rw [h2]; exact hP'))
  rw [h1, h2, hrun, hrun'] at hst
  rw [← hlen, ← hlen', Except.ok.inj hst]

/-- Without padding all pieces lie in the datagram. -/
theorem pieces_inside_of_same (hPd : P d.bytes.length) :
    ∀ p ∈ presetPieces f net offs proto d.bytes.length, 0 < p.2 →
      p.1 + p.2 ≤ d.bytes.length := by
  have hin := inside_datagram_of_same hf hsame hPd
  refine blocks_inside _ (fun hb => hin ?_)
  obtain ⟨⟨n, ht⟩, htcp⟩ := hk
  rw [run_presetInput ht (rounds_le ht) hf, hb]
  · rfl
  · rintro ⟨h1, h2, h3⟩
    have hu16 : u16 d.bytes.length ≤ d.bytes.length := u16_le _
    have := u16_lt d.bytes.length
    rw [ofList_apply, List.getElem?_eq_none_iff] at h3
    exact htcp ⟨h1, by omega, by omega⟩

end Known

end Necessary

/-! ## The length of each preset's hash input -/

section Lengths

variable {net : NetProt} {offs : Nat} {proto : UInt8} {len : Nat}

theorem inputLength_packet (len : Nat) :
    inputLength .packet net offs proto len = netDemand net + min (subU32 len 20) 50 := by
  rw [inputLength, (packet_pieces len).1, (packet_pieces len).2, if_pos rfl,
    extent_append, extent_netPieces, extent_cons, extent_nil, Nat.add_zero]

theorem inputLength_rec8_none (h : u16 len ≤ offs) :
    inputLength .rec8 net offs proto len = 0 := by
  rw [inputLength, rec8_pieces_none (Or.inr (Or.inr h))]
  rfl

theorem inputLength_rec8_found (hip : net = .ip) (hp : proto ≠ tUnknown)
    (h : offs < u16 len) : 0 < inputLength .rec8 net offs proto len := by
  rw [inputLength, rec8_pieces_found hip hp h, extent_cons]
  show 0 < 2 + _
  omega

theorem inputLength_uTcpAndNet_none (h : u16 len ≤ offs) :
    inputLength .uTcpAndNet net offs proto len = 0 := by
  rw [inputLength, (uTcpAndNet_none (Or.inr h)).2]
  rfl

theorem inputLength_uTcpAndNet_found (hp : proto ≠ tUnknown) (h : offs < u16 len) :
    inputLength .uTcpAndNet net offs proto len
      = netDemand net + transDemand len offs proto := by
  rw [inputLength, (uTcpAndNet_found hp h).1, (uTcpAndNet_found hp h).2, extent_append,
    extent_netPieces, extent_transPieces]
  rfl

theorem netDemand_pos (h : net ≠ .unknown) : 0 < netDemand net := by
  cases net with
  | unknown => exact absurd rfl h
  | ip => decide
  | ip6 => decide

/-- Pieces inside the datagram mean that the transport header is complete. -/
theorem recNeed_of_inside {size : Nat} (hlt : offs < size)
    (h : ∀ p ∈ recTransPieces offs proto, 0 < p.2 → p.1 + p.2 ≤ size) :
    offs + recNeed proto ≤ size := by
  unfold recTransPieces at h
  rw [recNeed]
  by_cases htcp : proto = tTcp
  · rw [if_pos htcp] at h ⊢
    exact h (offs + 16, 2) (by simp) (Nat.succ_pos 1)
  rw [if_neg htcp] at h ⊢
  by_cases hudp : proto = tUdp
  · rw [if_pos hudp] at h ⊢
    exact h (offs + 5, 3) (by simp) (Nat.succ_pos 2)
  rw [if_neg hudp] at h ⊢
  by_cases hicmp : proto = tIcmp ∨ proto = tIcmp6
  · rw [if_pos hicmp] at h ⊢
    exact h (offs + 12, 4) (by simp) (Nat.succ_pos 3)
  · rw [if_neg hicmp]
    exact hlt

/-- A demand that one more captured byte does not raise is that of a complete
    transport header. -/
theorem transNeed_of_steady {size : Nat} (hlt : offs < size) (hsize : size < 65536)
    (h : transDemand size offs proto = transDemand (size + 1) offs proto) :
    offs + transNeed proto ≤ size := by
  unfold transDemand at h
  rw [subU32_of_le (by omega) (by omega), subU32_of_le (by omega) (by omega)] at h
  rw [transNeed]
  -- a copy cut short at `size` would be one byte longer at `size + 1`
  by_cases h20 : proto = tTcp ∨ proto = tIcmp ∨ proto = tIcmp6
  · rw [if_pos h20, if_pos h20] at h
    rw [if_pos h20]
    omega
  rw [if_neg h20, if_neg h20] at h
  rw [if_neg h20]
  by_cases hudp : proto = tUdp
  · rw [if_pos hudp, if_pos hudp] at h
    rw [if_pos hudp]
    omega
  · rw [if_neg hudp]
    exact hlt

end Lengths

/-! ## The theorem -/

/-- Independence from every padding implies the condition. -/
theorem independent_of_same {f : SelectionFunction} (hf : Preset f)
    (hsame : ∀ c c' : Capture d, SameOutcome f c c') : Independent d f := by
  have hsame' : ∀ c c' : Capture d, True → True → SameOutcome f c c' :=
    fun c c' _ _ => hsame c c'
  have hlen := length_le d
  have hlen20 := length_ge d
  obtain ⟨net, offs, proto, hk⟩ :=
    known_of_same (P := fun _ => True) hf hsame' (fun _ _ _ => trivial) trivial
  obtain ⟨⟨n, ht⟩, -⟩ := id hk
  obtain ⟨-, -, -, h60, hknown⟩ := transportAt_length ht
  have heq : ∀ len len', d.bytes.length ≤ len → d.bytes.length ≤ len' →
      len < 4294967296 → len' < 4294967296 →
      inputLength f net offs proto len = inputLength f net offs proto len' :=
    fun len len' h1 h2 h3 h4 =>
      inputLength_eq (P := fun _ => True) hf hsame' hk h3 h4 h1 h2 trivial trivial
  -- captures of these lengths have 16-bit lengths 0 and 65535
  have h0 : u16 131072 = 0 := rfl
  have h65535 : u16 131071 = 65535 := rfl
  refine ⟨net, offs, proto, hk, ?_⟩
  rcases hf with rfl | rfl | rfl | rfl
  · refine Or.inr (Or.inr (Or.inl ⟨rfl, ?_⟩))
    by_contra hnot
    obtain ⟨hip6, hp⟩ := not_or.mp hnot
    have hip := eq_ip_of_ne hknown hip6
    have h60' := h60 hip
    -- of these two captures one shows the transport header and one does not
    have hne := heq 131072 131071 (by omega) (by omega) (by omega) (by omega)
    have hpos := inputLength_rec8_found hip hp (show offs < u16 131071 by omega)
    rw [inputLength_rec8_none (show u16 131072 ≤ offs by omega)] at hne
    omega
  · exact Or.inl rfl
  · refine Or.inr (Or.inr (Or.inr ⟨rfl, ?_⟩))
    by_contra hnot
    obtain ⟨hp, hoffs⟩ := not_or.mp hnot
    have hne := heq 131072 131071 (by omega) (by omega) (by omega) (by omega)
    have hpos := netDemand_pos hknown
    rw [inputLength_uTcpAndNet_none (show u16 131072 ≤ offs by omega),
      inputLength_uTcpAndNet_found hp (show offs < u16 131071 by omega)] at hne
    omega
  · refine Or.inr (Or.inl ⟨rfl, ?_⟩)
    by_contra hlt
    have hne := heq d.bytes.length (d.bytes.length + 1) (by omega) (by omega) (by omega)
      (by omega)
    rw [inputLength_packet, inputLength_packet, subU32_of_le (by omega) (by omega),
      subU32_of_le (by omega) (by omega)] at hne
    omega

/-- Independence from every short padding implies the short condition. -/
theorem shortIndependent_of_same {f : SelectionFunction} (hf : Preset f)
    (hsame : ∀ c c' : Capture d, c.len ≤ 65535 → c'.len ≤ 65535 → SameOutcome f c c') :
    ShortIndependent d f := by
  by_cases hlong : 65535 < d.bytes.length
  · exact Or.inl hlong
  have hlen20 := length_ge d
  obtain ⟨net, offs, proto, hk⟩ :=
    known_of_same hf hsame (fun _ _ h => h) (by omega)
  obtain ⟨⟨n, ht⟩, -⟩ := id hk
  obtain ⟨-, -, hoffs, h60, hknown⟩ := transportAt_length ht
  have hinside := pieces_inside_of_same (P := fun len => len ≤ 65535) hf hsame hk (by omega)
  have heq : ∀ len, d.bytes.length ≤ len → len ≤ 65535 →
      inputLength f net offs proto d.bytes.length = inputLength f net offs proto len :=
    fun len h1 h2 =>
      inputLength_eq (P := fun len => len ≤ 65535) hf hsame hk (by omega) (by omega)
        (Nat.le_refl _) h1 (by omega) h2
  have hu16 : ∀ len, len ≤ 65535 → u16 len = len := fun len h => u16_of_lt (by omega)
  refine Or.inr ⟨net, offs, proto, hk, ?_⟩
  rcases hf with rfl | rfl | rfl | rfl
  · refine Or.inr (Or.inr (Or.inl ⟨rfl, ?_⟩))
    by_contra hnot
    obtain ⟨hip6, hnot⟩ := not_or.mp hnot
    obtain ⟨hp, hneed⟩ := not_or.mp hnot
    have hip := eq_ip_of_ne hknown hip6
    have h60' := h60 hip
    rcases Nat.lt_or_ge offs d.bytes.length with hlt | hge
    · rw [rec8_pieces_found hip hp (by rw [hu16 _ (by omega)]; exact hlt)] at hinside
      exact hneed (recNeed_of_inside hlt
        (fun p hp => hinside p (List.mem_cons_of_mem _ hp)))
    · -- an empty payload: one byte of padding makes the header appear
      have hne := heq (d.bytes.length + 1) (by omega) (by omega)
      have hpos := inputLength_rec8_found hip hp
        (show offs < u16 (d.bytes.length + 1) by rw [hu16 _ (by omega)]; omega)
      rw [inputLength_rec8_none (by rw [hu16 _ (by omega)]; exact hge)] at hne
      omega
  · exact Or.inl rfl
  · refine Or.inr (Or.inr (Or.inr ⟨rfl, ?_⟩))
    by_contra hnot
    obtain ⟨hp, hnot⟩ := not_or.mp hnot
    obtain ⟨hfull, hneed⟩ := not_or.mp hnot
    have hne := heq (d.bytes.length + 1) (by omega) (by omega)
    have hpos := netDemand_pos hknown
    rw [inputLength_uTcpAndNet_found hp
      (show offs < u16 (d.bytes.length + 1) by rw [hu16 _ (by omega)]; omega)] at hne
    rcases Nat.lt_or_ge offs d.bytes.length with hlt | hge
    · rw [inputLength_uTcpAndNet_found hp (by rw [hu16 _ (by omega)]; exact hlt)] at hne
      exact hneed (transNeed_of_steady hlt (by omega) (by omega))
    · rw [inputLength_uTcpAndNet_none (by rw [hu16 _ (by omega)]; exact hge)] at hne
      omega
  · refine Or.inr (Or.inl ⟨rfl, ?_⟩)
    by_contra hlt
    have hne := heq (d.bytes.length + 1) (by omega) (by omega)
    rw [inputLength_packet, inputLength_packet, subU32_of_le (by omega) (by omega),
      subU32_of_le (by omega) (by omega)] at hne
    omega

/-- **PADDING INDEPENDENCE**: all captures of a datagram give one hash input and
    one decision exactly when `Independent`; all captures of at most 65535 bytes
    do exactly when `ShortIndependent`. -/
theorem padding_independent_iff (d : Datagram) {f : SelectionFunction} (hf : Preset f) :
    ((∀ c c' : Capture d, SameOutcome f c c') ↔ Independent d f) ∧
      ((∀ c c' : Capture d, c.len ≤ 65535 → c'.len ≤ 65535 → SameOutcome f c c')
        ↔ ShortIndependent d f) :=
  ⟨⟨independent_of_same hf, fun h c c' => independent_same h c c'⟩,
    ⟨shortIndependent_of_same hf, fun h c c' => shortIndependent_same h c c'⟩⟩

theorem padding_independent_iff_short :
    ((∀ c c' : Capture udpDatagram, SameOutcome .uTcpAndNet c c')
        ↔ Independent udpDatagram .uTcpAndNet) ∧
      ((∀ c c' : Capture udpDatagram, c.len ≤ 65535 → c'.len ≤ 65535 →
          SameOutcome .uTcpAndNet c c') ↔ ShortIndependent udpDatagram .uTcpAndNet) :=
  padding_independent_iff udpDatagram (Or.inr (Or.inr (Or.inl rfl)))

/-- Padded to the minimum length of an Ethernet frame, the datagram gives PACKET
    18 bytes more. -/
theorem padding_changes_packet :
    ¬ ∀ c c' : Capture udpDatagram, c.len ≤ 65535 → c'.len ≤ 65535 →
      SameOutcome .packet c c' := by
  intro h
  have hst := (sameOutcome_iff (Or.inr (Or.inr (Or.inr rfl))) _ _).mp
    (h ⟨[], [], by decide⟩ ⟨List.replicate 18 0, [], by decide⟩ (by decide) (by decide))
  exact absurd hst (by decide)

end Impd4e.Padding
