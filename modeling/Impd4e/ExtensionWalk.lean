import Impd4e.Dissector

/-! # The IPv6 extension-header walk

    An IPv6 packet names each extension header in the one before it: the fixed
    header names the first, every extension header names its successor in its
    own first byte.  `Ip6Packet` is such a packet, `transOffset` the place its
    upper-layer header starts.

    The loop of `findHeaders` advances over a header first and reads the next
    protocol where it then stands, so from the second header on it takes a
    header for the one after it.  `walkCorrect_iff` says exactly which packets
    come out right all the same. -/

namespace Impd4e.ExtensionWalk

open ReadProg Impd4e.Hash Impd4e.Dissector Impd4e.PacketHandler

/-! ## Packets with a chain of extension headers -/

/-- An extension header of a kind the code skips; `body` is what follows the
    next-header byte and the length byte. -/
structure ExtHeader where
  kind : UInt8
  len : UInt8
  body : List UInt8
  skipped : isIp6Option kind = true
  body_length :
    body.length + 2 = if kind = ip6hdrAh then (len.toNat + 2) * 4 else (len.toNat + 1) * 8

def ExtHeader.length (e : ExtHeader) : Nat :=
  if e.kind = ip6hdrAh then (e.len.toNat + 2) * 4 else (e.len.toNat + 1) * 8

/-- The protocol a header names that is followed by `exts` and then `proto`. -/
def nextHeader : List ExtHeader → UInt8 → UInt8
  | [], proto => proto
  | e :: _, _ => e.kind

def chainBytes : List ExtHeader → UInt8 → List UInt8
  | [], _ => []
  | e :: exts, proto =>
      nextHeader exts proto :: e.len :: (e.body ++ chainBytes exts proto)

def chainLength : List ExtHeader → Nat
  | [] => 0
  | e :: exts => e.length + chainLength exts

/-- A fixed header, a chain of extension headers, and an upper-layer header of
    which at least the first byte is there. -/
structure Ip6Packet where
  fixed : List UInt8
  exts : List ExtHeader
  proto : UInt8
  upper : UInt8
  rest : List UInt8
  fixed_length : fixed.length = ip6Hlen
  version : ∃ b, fixed[0]? = some b ∧ b &&& 0xf0 = 0x60
  next : fixed[6]? = some (nextHeader exts proto)
  proto_upper : isIp6Option proto = false

namespace Ip6Packet

def bytes (pkt : Ip6Packet) : List UInt8 :=
  pkt.fixed ++ (chainBytes pkt.exts pkt.proto ++ pkt.upper :: pkt.rest)

/-- Where the upper-layer header starts. -/
def transOffset (pkt : Ip6Packet) : Nat := ip6Hlen + chainLength pkt.exts

end Ip6Packet

/-! ## Layout -/

/-- A header moves the loop by its own length when its unit is used. -/
theorem optionLength_unit (e : ExtHeader) {kind : UInt8}
    (h : (kind = ip6hdrAh) ↔ (e.kind = ip6hdrAh)) :
    optionLength kind e.len = e.length := by
  rw [optionLength, ExtHeader.length]
  by_cases hk : e.kind = ip6hdrAh
  · rw [if_neg (not_not.mpr (h.mpr hk)), if_pos hk]
    omega
  · rw [if_pos (fun hk' => hk (h.mp hk')), if_neg hk]
    omega

theorem length_ge (e : ExtHeader) : 8 ≤ e.length := by
  rw [← optionLength_unit e Iff.rfl]
  exact optionLength_ge e.kind e.len

theorem chainBytes_length (proto : UInt8) :
    ∀ exts : List ExtHeader, (chainBytes exts proto).length = chainLength exts := by
  intro exts
  induction exts with
  | nil => rfl
  | cons e exts ih =>
      have hb : e.body.length + 2 = e.length := e.body_length
      show ((e.body ++ chainBytes exts proto).length + 1) + 1 = e.length + chainLength exts
      rw [List.length_append, ih]
      omega

/-- Reading a list behind a prefix of known length. -/
theorem getElem?_behind {l t : List UInt8} {n : Nat} (h : l.length = n) (i : Nat) :
    (l ++ t)[n + i]? = t[i]? := by
  rw [List.getElem?_append_right (by omega)]
  congr 1
  omega

variable (pkt : Ip6Packet) (tail : List UInt8)

theorem bytes_length :
    pkt.bytes.length = pkt.transOffset + (pkt.rest.length + 1) := by
  rw [Ip6Packet.bytes, List.length_append, List.length_append, chainBytes_length,
    pkt.fixed_length, Ip6Packet.transOffset, List.length_cons]
  omega

theorem byte_version : ∃ b, pkt.bytes[0]? = some b ∧ b &&& 0xf0 = 0x60 := by
  obtain ⟨b, hb, hv⟩ := pkt.version
  have hlt := (List.getElem?_eq_some_iff.mp hb).1
  exact ⟨b, by rw [Ip6Packet.bytes, List.getElem?_append_left hlt]; exact hb, hv⟩

theorem byte_next : pkt.bytes[6]? = some (nextHeader pkt.exts pkt.proto) := by
  have hlt := (List.getElem?_eq_some_iff.mp pkt.next).1
  rw [Ip6Packet.bytes, List.getElem?_append_left hlt]
  exact pkt.next

/-- A byte of the packet is that byte of the memory. -/
theorem byte_mem {i : Nat} {b : UInt8} (h : pkt.bytes[i]? = some b) :
    ofList (pkt.bytes ++ tail) i = some b :=
  ofList_append_of_some tail h

/-- From `offs` on the packet is the chain `exts` and the upper-layer header. -/
def ChainAt (offs : Nat) (exts : List ExtHeader) : Prop :=
  ∀ i, pkt.bytes[offs + i]? = (chainBytes exts pkt.proto ++ pkt.upper :: pkt.rest)[i]?

theorem chainAt_start : ChainAt pkt ip6Hlen pkt.exts :=
  fun i => getElem?_behind pkt.fixed_length i

variable {pkt}

theorem chainAt_byte {offs : Nat} {e : ExtHeader} {exts : List ExtHeader}
    (h : ChainAt pkt offs (e :: exts)) :
    pkt.bytes[offs]? = some (nextHeader exts pkt.proto) := h 0

theorem chainAt_len {offs : Nat} {e : ExtHeader} {exts : List ExtHeader}
    (h : ChainAt pkt offs (e :: exts)) : pkt.bytes[offs + 1]? = some e.len := h 1

theorem chainAt_upper {offs : Nat} (h : ChainAt pkt offs []) :
    pkt.bytes[offs]? = some pkt.upper := h 0

/-- One header further on the rest of the chain starts. -/
theorem chainAt_next {offs : Nat} {e : ExtHeader} {exts : List ExtHeader}
    (h : ChainAt pkt offs (e :: exts)) : ChainAt pkt (offs + e.length) exts := by
  intro i
  have hb : e.body.length + 2 = e.length := e.body_length
  have h' := h (e.length + i)
  rw [← Nat.add_assoc] at h'
  rw [h']
  have hcons : chainBytes (e :: exts) pkt.proto ++ pkt.upper :: pkt.rest
      = (nextHeader exts pkt.proto :: e.len :: e.body)
        ++ (chainBytes exts pkt.proto ++ pkt.upper :: pkt.rest) := by
    simp [chainBytes]
  rw [hcons]
  exact getElem?_behind (l := nextHeader exts pkt.proto :: e.len :: e.body) hb i

/-! ## What the loop makes of such a packet -/

variable (pkt)

/-- `findHeaders` reports the upper-layer protocol and its position. -/
def WalkCorrect : Prop :=
  ∃ headerOffset layers,
    run (ofList (pkt.bytes ++ tail)) (findHeaders (u16 pkt.bytes.length)
      zeroOffsets zeroLayers) = .ok (headerOffset, layers) ∧
    headerOffset.trans = pkt.transOffset ∧ layers.trans = pkt.proto

/-- The bytes from `offs` on, each believed to be a protocol number, lead onto
    the upper-layer header. -/
def LeadsOn (offs : Nat) : Prop :=
  ∃ n b, pkt.bytes[offs]? = some b ∧
    OptionWalk (ofList pkt.bytes) n (offs, b) (pkt.transOffset, pkt.proto)

/-- Standing on the second header or a later one, the loop takes it for its
    successor.  With the same unit that makes no difference, until the last
    header is taken for the upper-layer one; with the other unit the loop lands
    somewhere inside the chain. -/
def TakenForNext (offs : Nat) : List ExtHeader → Prop
  | [] => False
  | [_] => False
  | e :: e' :: exts =>
      if e'.kind = ip6hdrAh ↔ e.kind = ip6hdrAh then
        TakenForNext (offs + e.length) (e' :: exts)
      else LeadsOn pkt (offs + optionLength e'.kind e.len)

/-- The packets the loop gets right: no extension header; one, when the
    upper-layer header happens to start with its own protocol number; more, when
    a length read in the wrong unit leads onto the upper-layer header. -/
def ReadLateOk : Prop :=
  match pkt.exts with
  | [] => True
  | [_] => pkt.upper = pkt.proto
  | e :: exts => TakenForNext pkt (ip6Hlen + e.length) exts

/-- A walk that starts where it must end makes no round. -/
theorem walk_here_iff {offs : Nat} {b : UInt8} {t : Nat × UInt8} {m : Nat → Option UInt8}
    (h : t.1 < offs + 8) :
    (∃ n, OptionWalk m n (offs, b) t) ↔ (offs, b) = t := by
  constructor
  · rintro ⟨n, hw⟩
    -- a round would already lead past the end
    have hadv : offs + 8 * n ≤ t.1 := walk_advance hw
    obtain rfl : n = 0 := by omega
    cases hw
    rfl
  · rintro rfl
    exact ⟨0, .done _⟩

/-- The first round of a walk that starts on an option. -/
theorem walk_step_iff {offs : Nat} {kind len : UInt8} {t : Nat × UInt8}
    {m : Nat → Option UInt8} (hk : isIp6Option kind = true)
    (ht : isIp6Option t.2 = false) (hlen : m (offs + 1) = some len) :
    (∃ n, OptionWalk m n (offs, kind) t) ↔
      ∃ n b, m (offs + optionLength kind len) = some b ∧
        OptionWalk m n (offs + optionLength kind len, b) t := by
  constructor
  · rintro ⟨n, hw⟩
    cases hw with
    | done => exact absurd (hk.symm.trans ht) (by decide)
    | @step n _ _ len' b _ _ hlen' hb hw =>
        obtain rfl := Option.some.inj (hlen.symm.trans hlen')
        exact ⟨n, b, hb, hw⟩
  · rintro ⟨n, b, hb, hw⟩
    exact ⟨n + 1, .step hk hlen hb hw⟩

/-- A walk from where a known byte stands. -/
theorem walk_from_byte_iff {offs : Nat} {b : UInt8} {t : Nat × UInt8} {m : Nat → Option UInt8}
    (hb : m offs = some b) :
    (∃ n b', m offs = some b' ∧ OptionWalk m n (offs, b') t) ↔
      ∃ n, OptionWalk m n (offs, b) t := by
  constructor
  · rintro ⟨n, b', hb', hw⟩
    obtain rfl := Option.some.inj (hb.symm.trans hb')
    exact ⟨n, hw⟩
  · rintro ⟨n, hw⟩
    exact ⟨n, _, hb, hw⟩

/-- From the second header on the loop stands one header behind what it
    believes in. -/
theorem walk_iff_takenForNext :
    ∀ (exts : List ExtHeader) (e : ExtHeader) (offs : Nat),
      ChainAt pkt offs (e :: exts) →
      offs + chainLength (e :: exts) = pkt.transOffset →
      ((∃ n, OptionWalk (ofList pkt.bytes) n (offs, nextHeader exts pkt.proto)
          (pkt.transOffset, pkt.proto)) ↔ TakenForNext pkt offs (e :: exts)) := by
  -- induction on the headers left: the loop stands on `e` and believes in its successor
  intro exts
  induction exts with
  | nil =>
      intro e offs _ hend
      have hge := length_ge e
      have hend' : offs + (e.length + 0) = pkt.transOffset := hend
      constructor
      · rintro ⟨n, hw⟩
        cases n with
        | zero =>
            have heq : offs = pkt.transOffset := by cases hw; rfl
            omega
        | succ n =>
            -- the loop does not even enter: the last header names no option
            cases hw with
            | step hk => exact absurd (hk.symm.trans pkt.proto_upper) (by decide)
      · exact fun h => h.elim
  | cons e' exts ih =>
      intro e offs hc hend
      have hend' : offs + (e.length + chainLength (e' :: exts)) = pkt.transOffset := hend
      show (∃ n, OptionWalk _ n (offs, e'.kind) _) ↔ (if _ then _ else _)
      rw [walk_step_iff (m := ofList pkt.bytes) (t := (pkt.transOffset, pkt.proto))
        e'.skipped pkt.proto_upper (chainAt_len hc)]
      by_cases hu : e'.kind = ip6hdrAh ↔ e.kind = ip6hdrAh
      -- same unit: the round skips `e` exactly, and the loop stands on `e'`
      · rw [if_pos hu, optionLength_unit e hu,
          ← ih e' (offs + e.length) (chainAt_next hc) (by omega)]
        exact walk_from_byte_iff (chainAt_byte (chainAt_next hc))
      -- other unit: where the round lands is what `LeadsOn` asks about
      · rw [if_neg hu]
        rfl

/-- The loop ends on the upper-layer header exactly when `ReadLateOk`. -/
theorem walk_iff_readLateOk :
    (∃ n, OptionWalk (ofList pkt.bytes) n (ip6Hlen, nextHeader pkt.exts pkt.proto)
      (pkt.transOffset, pkt.proto)) ↔ ReadLateOk pkt := by
  have hc := chainAt_start pkt
  have hend : ip6Hlen + chainLength pkt.exts = pkt.transOffset := rfl
  rw [ReadLateOk]
  rcases hx : pkt.exts with _ | ⟨e, exts⟩
  · rw [hx] at hend
    have ht : pkt.transOffset = ip6Hlen := hend.symm
    rw [ht]
    exact ⟨fun _ => trivial, fun _ => ⟨0, .done _⟩⟩
  · rw [hx] at hc hend
    have hend' : ip6Hlen + (e.length + chainLength exts) = pkt.transOffset := hend
    have hnext := chainAt_next hc
    -- the first header is still believed for what it is
    show (∃ n, OptionWalk _ n (ip6Hlen, e.kind) _) ↔ _
    rw [walk_step_iff (m := ofList pkt.bytes) (t := (pkt.transOffset, pkt.proto))
      e.skipped pkt.proto_upper (chainAt_len hc), optionLength_unit e Iff.rfl]
    cases exts with
    | nil =>
        -- behind the only header the loop reads the first upper-layer byte as protocol
        have ht : ip6Hlen + e.length = pkt.transOffset := hend
        have hup := chainAt_upper hnext
        rw [ht] at hup ⊢
        show _ ↔ pkt.upper = pkt.proto
        constructor
        · rintro ⟨n, b, hb, hw⟩
          obtain rfl := Option.some.inj (hup.symm.trans hb)
          exact congrArg Prod.snd ((walk_here_iff (by show _ < _; omega)).mp ⟨n, hw⟩)
        · intro heq
          exact ⟨0, pkt.upper, hup, heq ▸ .done _⟩
    | cons e' exts =>
        show _ ↔ TakenForNext pkt (ip6Hlen + e.length) (e' :: exts)
        rw [← walk_iff_takenForNext pkt exts e' _ hnext (by omega)]
        exact walk_from_byte_iff (chainAt_byte hnext)

/-- A walk that ends on a byte of a prefix needs no more than the prefix. -/
theorem walk_restrict {l t : List UInt8} {n : Nat} {s e : Nat × UInt8}
    (h : OptionWalk (ofList (l ++ t)) n s e) (he : e.1 < l.length) :
    OptionWalk (ofList l) n s e := by
  induction h with
  | done s => exact .done s
  | @step n offs proto len proto' e hopt hlen hproto hw ih =>
      have hadv : offs + optionLength proto len + 8 * n ≤ e.1 := walk_advance hw
      have hge := optionLength_ge proto len
      rw [ofList_append l t (by omega)] at hlen hproto
      exact .step hopt hlen hproto (ih he)

/-- No protocol outside the options is the zero `layers[L_TRANS]` starts with. -/
theorem proto_ne_zero : pkt.proto ≠ zeroLayers.trans := by
  intro h
  have := pkt.proto_upper
  rw [h] at this
  exact absurd this (by decide)

/-- The packet's own bytes put the transport header where a walk ends. -/
theorem transportAt_of_walk {n : Nat}
    (hw : OptionWalk (ofList pkt.bytes) n (ip6Hlen, nextHeader pkt.exts pkt.proto)
      (pkt.transOffset, pkt.proto)) :
    TransportAt (ofList pkt.bytes) n .ip6 pkt.transOffset pkt.proto := by
  obtain ⟨b, hb, hv⟩ := byte_version pkt
  exact .ip6 hb hv (byte_next pkt) hw pkt.proto_upper

/-- A correct report comes from a walk onto the upper-layer header, inside the
    16-bit packet length. -/
theorem walk_of_correct (h : WalkCorrect pkt tail) :
    pkt.transOffset < u16 pkt.bytes.length ∧
      ∃ n, OptionWalk (ofList pkt.bytes) n (ip6Hlen, nextHeader pkt.exts pkt.proto)
        (pkt.transOffset, pkt.proto) := by
  obtain ⟨ho, ly, hrun, htrans, hproto⟩ := h
  -- a report without transport header has the protocol 0, which is an option
  have hz : ∀ net, (ho, ly) ≠ (cleared zeroOffsets, { zeroLayers with net := net }) := by
    intro net heq
    have : ly.trans = zeroLayers.trans := congrArg (fun r => r.2.trans) heq
    exact proto_ne_zero pkt (hproto.symm.trans this)
  rcases transportAt_of_run rfl hrun with ⟨n, net, offs, proto, hn, ht⟩ | heq
  · rcases findHeaders_found rfl ht hn hrun with ⟨-, heq⟩ | ⟨hlt, hfound⟩
    · exact absurd heq (hz net)
    · have h1 : offs = pkt.transOffset := hfound.trans.symm.trans htrans
      have h2 : proto = pkt.proto :=
        (congrArg Layers.trans hfound.layers).symm.trans hproto
      refine ⟨h1 ▸ hlt, n, ?_⟩
      obtain ⟨b, hb, hv⟩ := byte_version pkt
      cases ht with
      -- the version byte is the packet's own, so the walk is the IPv6 one
      | ip h0 hv4 =>
          obtain rfl := Option.some.inj (h0.symm.trans (byte_mem pkt tail hb))
          exact absurd (hv4.symm.trans hv) (by decide)
      | ip6 h0 hv6 h6 hw hstop =>
          obtain rfl := Option.some.inj (h6.symm.trans (byte_mem pkt tail (byte_next pkt)))
          rw [h1, h2] at hw
          refine walk_restrict hw ?_
          show pkt.transOffset < pkt.bytes.length
          rw [bytes_length]
          omega
  · exact absurd heq (hz .unknown)

/-- Along a walk onto the upper-layer header only the TCP data offset can be
    missing, and only behind the end of the packet. -/
theorem run_of_walk {n : Nat} (hlt : pkt.transOffset < u16 pkt.bytes.length)
    (hw : OptionWalk (ofList pkt.bytes) n (ip6Hlen, nextHeader pkt.exts pkt.proto)
      (pkt.transOffset, pkt.proto)) :
    WalkCorrect pkt tail ↔
      ¬ (pkt.proto = tTcp ∧ pkt.bytes.length = pkt.transOffset + 12 ∧ tail = []) := by
  have ht' : TransportAt (ofList (pkt.bytes ++ tail)) n .ip6 pkt.transOffset pkt.proto :=
    transportAt_mono (fun i b h => byte_mem pkt tail h) (transportAt_of_walk pkt hw)
  have hn : n ≤ maxRounds := by
    have hadv : 40 + 8 * n ≤ pkt.transOffset := walk_advance hw
    have := u16_lt pkt.bytes.length
    rw [maxRounds]
    omega
  have hrun := run_findHeadersIn (show zeroOffsets.net = 0 from rfl) ht' hn
    (u16 pkt.bytes.length) zeroLayers
  have hmap : ofList (pkt.bytes ++ tail) (pkt.transOffset + 12) = none
      ↔ pkt.bytes.length + tail.length ≤ pkt.transOffset + 12 := by
    rw [ofList_apply, List.getElem?_eq_none_iff, List.length_append]
  have hu16 : u16 pkt.bytes.length ≤ pkt.bytes.length := Nat.mod_le _ _
  cases hr : run (ofList (pkt.bytes ++ tail)) (findHeaders (u16 pkt.bytes.length)
      zeroOffsets zeroLayers) with
  | ok r =>
      constructor
      · rintro - ⟨htcp, hlen, rfl⟩
        -- the guard lets the read through, and the memory ends there
        have h12 : pkt.transOffset + 12 ≤ u16 pkt.bytes.length := by
          unfold u16 at hlt ⊢
          omega
        have hnone := hmap.mpr (by rw [List.length_nil]; omega)
        have herr := hrun.trans (run_findTransport_error.mpr ⟨rfl, htcp, h12, hnone⟩)
        exact nomatch hr.symm.trans herr
      · intro _
        rcases findHeaders_found rfl ht' hn hr with ⟨hle, -⟩ | ⟨-, hfound⟩
        · exact absurd hlt (by omega)
        · exact ⟨r.1, r.2, hr, hfound.trans, congrArg Layers.trans hfound.layers⟩
  | error f =>
      obtain ⟨-, htcp, h12, hnone⟩ := run_findTransport_error.mp (hrun.symm.trans hr)
      have hle := hmap.mp hnone
      constructor
      · rintro ⟨ho, ly, hok, -⟩
        exact nomatch hr.symm.trans hok
      · intro h
        refine absurd ⟨htcp, by omega, List.eq_nil_of_length_eq_zero (by omega)⟩ h

/-- A hop-by-hop header in front of a UDP header with source port 0x1234. -/
def hopUdpPacket : Ip6Packet where
  fixed := 0x60 :: 0 :: 0 :: 0 :: 0 :: 16 :: 0 :: List.replicate 33 0
  exts := [{
    kind := ip6hdrHop
    len := 0
    body := List.replicate 6 0
    skipped := rfl
    body_length := rfl }]
  proto := tUdp
  upper := 0x12
  rest := [0x34, 0, 53, 0, 8, 0, 0]
  fixed_length := rfl
  version := ⟨0x60, rfl, rfl⟩
  next := rfl
  proto_upper := rfl

/-- **THE EXTENSION-HEADER WALK**: `findHeaders` reports the upper-layer header
    of a packet exactly when its position fits the 16-bit packet length, the
    headers read one late lead onto it, and the byte behind a TCP header cut at
    its twelfth byte is mapped. -/
theorem walkCorrect_iff :
    WalkCorrect pkt tail ↔
      pkt.transOffset < u16 pkt.bytes.length ∧ ReadLateOk pkt ∧
        ¬ (pkt.proto = tTcp ∧ pkt.bytes.length = pkt.transOffset + 12 ∧ tail = []) := by
  constructor
  · intro h
    obtain ⟨hlt, n, hw⟩ := walk_of_correct pkt tail h
    exact ⟨hlt, (walk_iff_readLateOk pkt).mp ⟨n, hw⟩, (run_of_walk pkt tail hlt hw).mp h⟩
  · rintro ⟨hlt, hlate, hmapped⟩
    obtain ⟨n, hw⟩ := (walk_iff_readLateOk pkt).mpr hlate
    exact (run_of_walk pkt tail hlt hw).mpr hmapped

/-- One extension header is enough: UDP is taken for protocol 0x12. -/
theorem walkCorrect_hop_udp_fails : ¬ WalkCorrect hopUdpPacket [] := by
  rintro ⟨ho, ly, hrun, -, hproto⟩
  have h : run (ofList (hopUdpPacket.bytes ++ [])) (findHeaders
      (u16 hopUdpPacket.bytes.length) zeroOffsets zeroLayers)
      = .ok (⟨0, 0, 48, absent⟩, ⟨.ip6, 0x12⟩) := rfl
  obtain ⟨-, rfl⟩ := Prod.mk.inj (Except.ok.inj (hrun.symm.trans h))
  exact absurd hproto (by decide)

end Impd4e.ExtensionWalk
