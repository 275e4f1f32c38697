import Impd4e.Dissector

/-! # Does the dissector stay inside the capture?

    `findHeaders` compares its position with the captured length only behind
    the extension-header loop, and guards the TCP data offset with
    `packetLength >= offset + 12` although it then reads byte `offset + 12`.
    `HeadersInside` says of the captured bytes alone when all its reads
    nevertheless stay below their number, and
    `findHeaders_reads_inside_iff` that this is exactly when they do, and that
    the loop then ends within one round for every eight bytes. -/

namespace Impd4e.DissectorSafety

open ReadProg Impd4e.Hash Impd4e.Dissector Impd4e.PacketHandler

/-- The version byte is captured; a packet of version 4 or 6 has its protocol
    byte, and the extension headers as the loop follows them, in the capture;
    and no TCP header is cut right behind its twelfth byte. -/
def HeadersInside (bytes : List UInt8) : Prop :=
  ∃ first, bytes[0]? = some first ∧
    ((first &&& 0xf0 ≠ 0x60 ∧ first &&& 0xf0 ≠ 0x40) ∨
      ∃ n net offs proto, TransportAt (ofList bytes) n net offs proto ∧
        ¬ (proto = tTcp ∧ bytes.length = offs + 12))

section

variable {headerOffset : HeaderOffset} (hnet : headerOffset.net = 0)
  {bytes : List UInt8}

include hnet

/-- With the transport position known, only the TCP data offset can be missing. -/
theorem run_unmapped_iff_tcp (hlen : bytes.length ≤ 65535) {layers : Layers} {n : Nat}
    {net : NetProt} {offs : Nat} {proto : UInt8}
    (ht : TransportAt (ofList bytes) n net offs proto) :
    run (ofList bytes) (findHeaders bytes.length headerOffset layers)
        = .error .unmapped ↔ proto = tTcp ∧ bytes.length = offs + 12 := by
  have hn : n ≤ maxRounds := by
    have := transportAt_rounds ht
    rw [maxRounds]
    omega
  rw [findHeaders, run_findHeadersIn hnet ht hn, run_findTransport_error,
    ofList_apply, List.getElem?_eq_none_iff]
  constructor
  · rintro ⟨-, htcp, h1, h2⟩
    exact ⟨htcp, by omega⟩
  · rintro ⟨htcp, h⟩
    exact ⟨rfl, htcp, by omega, by omega⟩

/-- The captured bytes alone are enough for `findHeaders` exactly when they
    satisfy `HeadersInside`. -/
theorem run_ne_unmapped_iff (hlen : bytes.length ≤ 65535) (layers : Layers) :
    run (ofList bytes) (findHeaders bytes.length headerOffset layers)
        ≠ .error .unmapped ↔ HeadersInside bytes := by
  constructor
  · intro h
    cases h0 : bytes[0]? with
    | none =>
        refine absurd ?_ h
        rw [findHeaders, findHeadersIn_eq hnet]
        exact run_read_none _ h0 _
    | some first =>
        refine ⟨first, h0, ?_⟩
        by_cases hv : first &&& 0xf0 = 0x60 ∨ first &&& 0xf0 = 0x40
        · obtain ⟨n, net, offs, proto, ht⟩ := transportAt_of_mapped hnet
            (by rw [maxRounds]; omega) h0 hv h
          exact Or.inr ⟨n, net, offs, proto, ht,
            fun htcp => h ((run_unmapped_iff_tcp hnet hlen ht).mpr htcp)⟩
        · exact Or.inl (not_or.mp hv)
  · rintro ⟨first, h0, hv | ⟨n, net, offs, proto, ht, htcp⟩⟩
    · rw [findHeaders, findHeadersIn_eq hnet, run_read (ofList bytes) h0,
        if_neg hv.1, if_neg hv.2]
      intro h
      cases h
    · exact fun h => htcp ((run_unmapped_iff_tcp hnet hlen ht).mp h)

/-- Inside the capture the loop needs at most one round for eight bytes. -/
theorem rounds_of_inside (h : HeadersInside bytes) (tail : List UInt8)
    (layers : Layers) :
    run (ofList (bytes ++ tail)) (findHeadersIn (bytes.length / 8 + 1) bytes.length
      headerOffset layers) ≠ .error .stuck := by
  obtain ⟨first, h0, hv | ⟨n, net, offs, proto, ht, -⟩⟩ := h
  · rw [findHeadersIn_eq hnet, run_read _ (ofList_append_of_some tail h0), if_neg hv.1, if_neg hv.2]
    intro h
    cases h
  · have hn := transportAt_rounds ht
    rw [run_findHeadersIn hnet (transportAt_mono (fun _ _ => ofList_append_of_some tail) ht)
      (by omega)]
    exact fun h => nomatch (run_findTransport_error.mp h).1

end

/-- A UDP datagram over IPv4: ports 53, eight bytes, no payload. -/
def udpPacket : List UInt8 :=
  [0x45, 0, 0, 28, 0, 0, 0, 0, 64, 17, 0, 0, 10, 0, 0, 1, 10, 0, 0, 2] ++
    [0, 53, 0, 53, 0, 8, 0, 0]

/-- A TCP packet over IPv4, captured up to the twelfth byte of its TCP header. -/
def cutTcpPacket : List UInt8 :=
  [0x45, 0, 0, 40, 0, 0, 0, 0, 64, 6, 0, 0, 10, 0, 0, 1, 10, 0, 0, 2] ++
    [0, 80, 0, 80, 0, 0, 0, 0, 0, 0, 0, 0]

/-- **THE DISSECTOR'S READS**: over captured bytes with anything behind them,
    `findHeaders` reads only captured bytes, and its loop ends within one round
    for every eight of them, exactly when they satisfy `HeadersInside`. -/
theorem findHeaders_reads_inside_iff (bytes tail : List UInt8)
    (hlen : bytes.length ≤ 65535) (headerOffset : HeaderOffset)
    (hnet : headerOffset.net = 0) (layers : Layers) :
    ((∀ i ∈ trace (ofList (bytes ++ tail))
          (findHeaders bytes.length headerOffset layers), i < bytes.length) ∧
      run (ofList (bytes ++ tail)) (findHeadersIn (bytes.length / 8 + 1) bytes.length
          headerOffset layers) ≠ .error .stuck)
      ↔ HeadersInside bytes := by
  rw [trace_inside_iff, run_ne_unmapped_iff hnet hlen]
  exact ⟨fun h => h.1, fun h => ⟨h, rounds_of_inside hnet h tail layers⟩⟩

/-- A UDP datagram over IPv4 stays inside, whatever memory follows it. -/
theorem findHeaders_udp_reads_inside :
    (∀ i ∈ trace (ofList (udpPacket ++ [0xFF])) (findHeaders udpPacket.length
        zeroOffsets zeroLayers), i < udpPacket.length) ∧
      run (ofList (udpPacket ++ [0xFF])) (findHeadersIn (udpPacket.length / 8 + 1)
        udpPacket.length zeroOffsets zeroLayers) ≠ .error .stuck :=
  (findHeaders_reads_inside_iff udpPacket [0xFF] (by decide) zeroOffsets rfl
    zeroLayers).mpr
    ⟨0x45, rfl, Or.inr ⟨0, .ip, _, tUdp, @TransportAt.ip (ofList udpPacket) 0x45 _ rfl rfl rfl,
      by decide⟩⟩

/-- A TCP header cut behind its twelfth byte makes the dissector read the byte
    behind the capture. -/
theorem findHeaders_cut_tcp_reads_past :
    ¬ ∀ i ∈ trace (ofList (cutTcpPacket ++ [])) (findHeaders cutTcpPacket.length
        zeroOffsets zeroLayers), i < cutTcpPacket.length := by
  decide

end Impd4e.DissectorSafety
