import Impd4e.Dissector
import Impd4e.Traffic

/-! # The decision survives a router

    A router rewrites the TTL and the header checksum of an IPv4 packet and the
    hop limit of an IPv6 packet.  No read of the dissector and no piece of a
    preset or of a transport or payload range touches these bytes, so two
    packets that differ there only take the same run. -/

namespace Impd4e.HopInvariance

open ReadProg Impd4e.Hash Impd4e.PacketHandler Impd4e.Dissector Impd4e.FieldMap
  Impd4e.Traffic Impd4e.Settings

/-- The bytes a router rewrites. -/
def HopVariant : NetProt → Nat → Prop
  | .ip, i => i = 8 ∨ i = 10 ∨ i = 11
  | .ip6, i => i = 7
  | .unknown, _ => False

/-- The length of the fixed header; every byte a router rewrites is inside. -/
def fixedLength : NetProt → Nat
  | .ip => 20
  | .ip6 => 40
  | .unknown => 0

/-- Two packets of `len` captured bytes that differ at most in what a router
    rewrites. -/
inductive HopPair (p q : Nat → Option UInt8) (len : Nat) : Prop where
  | ip {first : UInt8} : p 0 = some first → first &&& 0xf0 = 0x40 →
      5 ≤ (first &&& 0x0F).toNat → 20 ≤ len →
      (∀ i, ¬ HopVariant .ip i → q i = p i) → HopPair p q len
  | ip6 {first : UInt8} : p 0 = some first → first &&& 0xf0 = 0x60 → 40 ≤ len →
      (∀ i, ¬ HopVariant .ip6 i → q i = p i) → HopPair p q len

/-- The selection functions that ask for no more than the network header and
    what is behind it. -/
def HopFunction (f : SelectionFunction) : Prop :=
  f = .rec8 ∨ f = .onlyNet ∨ f = .uTcpAndNet ∨ f = .packet ∨ f = .trans ∨ f = .payload

/-- All of them are among the first twelve bytes. -/
theorem hopVariant_lt {net : NetProt} {i : Nat} (h : HopVariant net i) : i < 12 := by
  cases net with
  | unknown => exact h.elim
  | ip =>
      rcases h with rfl | rfl | rfl
      · decide
      · decide
      · decide
  | ip6 =>
      obtain rfl : i = 7 := h
      decide

theorem not_hopVariant {net : NetProt} {i : Nat} (h : fixedLength net ≤ i) :
    ¬ HopVariant net i := by
  intro hv
  have hlt := hopVariant_lt hv
  cases net with
  | unknown => exact hv
  | ip => exact absurd h (by show ¬ 20 ≤ i; omega)
  | ip6 => exact absurd h (by show ¬ 40 ≤ i; omega)

/-! ## The dissector -/

/-- What `findHeaders` reports of a packet of type `net`: everything but the
    network header is behind the fixed header. -/
structure Behind (net : NetProt) (r : HeaderOffset × Layers) : Prop where
  net_offset : r.1.net = 0
  layer : r.2.net = net
  trans : fixedLength net ≤ r.1.trans
  payload : fixedLength net ≤ r.1.payload

variable {m : Nat → Option UInt8} {net : NetProt}

theorem fixedLength_le_absent : fixedLength net ≤ absent := by
  cases net with
  | unknown => decide
  | ip => decide
  | ip6 => decide

theorem findTransport_behind {offs : Nat} (h : fixedLength net ≤ offs) (len : Nat)
    (proto : UInt8) :
    Triple m (fun i => ¬ HopVariant net i)
      (findTransport len offs proto (cleared zeroOffsets) { zeroLayers with net := net })
      (Behind net) := by
  by_cases hlt : offs < len
  · refine (findTransport_triple hlt (fun _ => not_hopVariant (by omega))).mono
      (fun _ hi => hi) ?_
    intro r hr
    refine ⟨hr.net, by rw [hr.layers], by rw [hr.trans]; exact h, ?_⟩
    rcases hr.payload with hp | ⟨hp, -⟩
    · rw [hp]
      exact fixedLength_le_absent
    · omega
  · rw [findTransport_short (by omega)]
    exact Triple.ret ⟨rfl, rfl, fixedLength_le_absent, fixedLength_le_absent⟩

/-- The loop only moves forward. -/
theorem skipOptions_triple {P : Nat → Prop} {base : Nat} (hP : ∀ i, base ≤ i → P i) :
    ∀ (rounds offs : Nat) (proto : UInt8), base ≤ offs →
      Triple m P (skipOptions 0 rounds offs proto) (fun t => base ≤ t.1) := by
  intro rounds
  induction rounds with
  | zero =>
      intro offs proto h
      cases ho : isIp6Option proto with
      | true =>
          rw [skipOptions_zero ho]
          exact Triple.stuck
      | false =>
          rw [skipOptions_stop ho]
          exact Triple.ret h
  | succ r ih =>
      intro offs proto h
      cases ho : isIp6Option proto with
      | true =>
          rw [skipOptions_succ ho]
          refine Triple.read (hP _ (by omega)) (fun len _ => ?_)
          refine Triple.read (hP _ (by omega)) (fun proto' _ => ?_)
          exact ih _ proto' (by omega)
      | false =>
          rw [skipOptions_stop ho]
          exact Triple.ret h

/-- The dissector reads no byte a router rewrites. -/
theorem findHeaders_triple {p q : Nat → Option UInt8} {len : Nat}
    (hop : HopPair p q len) (packetLength : Nat) :
    ∃ net, (∀ i, ¬ HopVariant net i → q i = p i) ∧
      Triple p (fun i => ¬ HopVariant net i)
        (findHeaders packetLength zeroOffsets zeroLayers) (Behind net) := by
  have hnet : zeroOffsets.net = 0 := rfl
  cases hop with
  | @ip first h0 hv hihl _ hagree =>
      refine ⟨.ip, hagree, ?_⟩
      rw [findHeaders, findHeadersIn_eq hnet]
      refine Triple.read (by rw [HopVariant]; omega) (fun b hb => ?_)
      obtain rfl := Option.some.inj (h0.symm.trans hb)
      rw [if_neg (by rw [hv]; decide), if_pos hv]
      refine Triple.read (by rw [HopVariant]; omega) (fun proto _ => ?_)
      refine findTransport_behind ?_ packetLength proto
      -- the transport header is behind five words at least
      show 20 ≤ (first &&& 0x0F).toNat <<< 2
      rw [Nat.shiftLeft_eq]
      omega
  | @ip6 first h0 hv _ hagree =>
      refine ⟨.ip6, hagree, ?_⟩
      rw [findHeaders, findHeadersIn_eq hnet]
      refine Triple.read (by rw [HopVariant]; omega) (fun b hb => ?_)
      obtain rfl := Option.some.inj (h0.symm.trans hb)
      rw [if_pos hv]
      refine Triple.read (by rw [HopVariant]; omega) (fun proto _ => ?_)
      refine Triple.bind (skipOptions_triple (fun i hi => not_hopVariant hi) maxRounds
        ip6Hlen proto (Nat.le_refl _)) ?_
      intro t ht
      exact findTransport_behind ht packetLength t.2

/-! ## The pieces -/

/-- The pieces lie outside what a router rewrites. -/
def Avoids (net : NetProt) (ps : Pieces) : Prop :=
  ∀ p ∈ ps, ∀ j, p.1 ≤ j → j < p.1 + p.2 → ¬ HopVariant net j

theorem avoids_nil : Avoids net [] := fun _ hp => nomatch hp

theorem avoids_cons {a n : Nat} {ps : Pieces}
    (h : ∀ j, a ≤ j → j < a + n → ¬ HopVariant net j) (hps : Avoids net ps) :
    Avoids net ((a, n) :: ps) := by
  intro p hp
  rcases List.mem_cons.mp hp with rfl | hp
  · exact h
  · exact hps p hp

theorem avoids_append {ps qs : Pieces} (hp : Avoids net ps) (hq : Avoids net qs) :
    Avoids net (ps ++ qs) := by
  intro p hmem
  rcases List.mem_append.mp hmem with h | h
  · exact hp p h
  · exact hq p h

theorem avoids_of_behind {ps : Pieces} (h : ∀ p ∈ ps, fixedLength net ≤ p.1) :
    Avoids net ps :=
  fun p hp _ hj _ => not_hopVariant (Nat.le_trans (h p hp) hj)

theorem rangePieces_ge (packet packetLength : Nat) :
    ∀ (rSel : List RangeSelect) (bLen : Nat),
      ∀ p ∈ rangePieces packet packetLength rSel bLen, packet ≤ p.1 := by
  intro rSel
  induction rSel with
  | nil => intro _ p hp; cases hp
  | cons range next ih =>
      intro bLen p hp
      unfold rangePieces at hp
      dsimp only at hp
      split at hp
      · rcases List.mem_cons.mp hp with rfl | hp
        · exact Nat.le_add_right ..
        · split at hp
          · exact ih _ p hp
          · cases hp
      · split at hp
        · exact ih _ p hp
        · cases hp

theorem layerPieces_ge (rSel : List RangeSelect) (len size layerOffset : Nat) :
    ∀ p ∈ layerPieces rSel len size layerOffset, layerOffset ≤ p.1 := by
  intro p hp
  unfold layerPieces at hp
  split at hp
  · cases hp
  · exact rangePieces_ge _ _ _ _ p hp

theorem transPieces_ge (len trans : Nat) (proto : UInt8) :
    ∀ p ∈ transPieces len trans proto, trans ≤ p.1 := by
  intro p hp
  unfold transPieces at hp
  split at hp
  · rw [List.mem_singleton.mp hp]
  split at hp
  · rw [List.mem_singleton.mp hp]
  · cases hp

theorem recTransPieces_ge (trans : Nat) (proto : UInt8) :
    ∀ p ∈ recTransPieces trans proto, trans ≤ p.1 := by
  intro p hp
  unfold recTransPieces at hp
  split at hp
  · simp only [List.mem_cons, List.not_mem_nil, or_false] at hp
    rcases hp with rfl | rfl | rfl <;> exact Nat.le_add_right ..
  split at hp
  · simp only [List.mem_cons, List.not_mem_nil, or_false] at hp
    rcases hp with rfl | rfl | rfl
    · exact Nat.le_refl trans
    · exact Nat.le_add_right ..
    · exact Nat.le_add_right ..
  split at hp
  · simp only [List.mem_cons, List.not_mem_nil, or_false] at hp
    rcases hp with rfl | rfl <;> exact Nat.le_add_right ..
  · cases hp

section Pieces

variable {headerOffset : HeaderOffset} {layers : Layers}
  (h : Behind net (headerOffset, layers))

include h

/-- The network header is copied around what a router rewrites. -/
theorem netPieces_avoids : Avoids net (netPieces headerOffset layers.net) := by
  have h0 : headerOffset.net = 0 := h.net_offset
  have hlayer : layers.net = net := h.layer
  rw [hlayer]
  cases net with
  | unknown => exact avoids_nil
  | ip =>
      rw [netPieces, h0]
      refine avoids_cons ?_ (avoids_cons ?_ (avoids_cons ?_ avoids_nil))
      · intro j _ hj
        rw [HopVariant]
        omega
      · intro j hj hlt
        rw [HopVariant]
        omega
      · intro j hj _
        rw [HopVariant]
        omega
  | ip6 =>
      rw [netPieces, h0]
      refine avoids_cons ?_ (avoids_cons ?_ avoids_nil)
      · intro j _ hj
        rw [HopVariant]
        omega
      · intro j hj _
        rw [HopVariant]
        omega

/-- The IP ID and the transport fields. -/
theorem recPieces_avoid : Avoids net (recPieces headerOffset layers) := by
  have h0 : headerOffset.net = 0 := h.net_offset
  have hlayer : layers.net = net := h.layer
  have htrans : fixedLength net ≤ headerOffset.trans := h.trans
  rw [recPieces]
  split
  · next hip =>
      refine avoids_cons ?_ (avoids_of_behind
        fun p hp => Nat.le_trans htrans (recTransPieces_ge _ _ p hp))
      intro j hj hlt
      rw [← hlayer, hip.2]
      rw [HopVariant]
      omega
  · exact avoids_nil

/-- No piece of these functions holds a byte a router rewrites. -/
theorem pieces_avoid {f : SelectionFunction} (hf : HopFunction f)
    (rSel : List RangeSelect) (len size : Nat) :
    Avoids net (pieces f rSel len size headerOffset layers) := by
  have h0 : headerOffset.net = 0 := h.net_offset
  have htrans : fixedLength net ≤ headerOffset.trans := h.trans
  have hpayload : fixedLength net ≤ headerOffset.payload := h.payload
  rcases hf with rfl | rfl | rfl | rfl | rfl | rfl
  · exact recPieces_avoid h
  · exact netPieces_avoids h
  · refine avoids_append (netPieces_avoids h) ?_
    split
    · exact avoids_of_behind fun p hp => Nat.le_trans htrans (transPieces_ge _ _ _ p hp)
    · exact avoids_nil
  -- PACKET goes on behind the twentieth byte, whatever the version
  · refine avoids_append (netPieces_avoids h) (avoids_cons ?_ avoids_nil)
    intro j hj _ hv
    have := hopVariant_lt hv
    omega
  · exact avoids_of_behind fun p hp => Nat.le_trans htrans (layerPieces_ge _ _ _ _ p hp)
  · exact avoids_of_behind fun p hp => Nat.le_trans hpayload (layerPieces_ge _ _ _ _ p hp)

end Pieces

/-! ## The selection stage -/

/-- The selection stage reads no byte a router rewrites. -/
theorem observe_run_eq {p q : Nat → Option UInt8} {len : Nat} (hop : HopPair p q len)
    {o : Options} (hf : HopFunction o.selectionFunction) (size : Nat) :
    run q (observe o size len) = run p (observe o size len) := by
  obtain ⟨net, hagree, hfind⟩ := findHeaders_triple hop (u16 len)
  have hobs : Triple p (fun i => ¬ HopVariant net i) (observe o size len)
      (fun _ => True) := by
    refine Triple.bind hfind (fun r hr => ?_)
    refine Triple.bind (blocks_triple _ (pieces_avoid hr hf o.rSel len size)) ?_
    exact fun bytes _ => Triple.ret trivial
  exact hobs.run_eq hagree

/-- A UDP datagram over IPv4. -/
def datagram : List UInt8 :=
  [0x45, 0, 0, 28, 0, 0, 0, 0, 64, 17, 0x66, 0xcf, 10, 0, 0, 1, 10, 0, 0, 2] ++
    [0, 53, 0, 53, 0, 8, 0, 0]

/-- The same datagram one hop further on. -/
def routedDatagram : List UInt8 := ((datagram.set 8 63).set 10 0x67).set 11 0xcf

theorem datagram_hopPair : HopPair (ofList datagram) (ofList routedDatagram) 28 := by
  refine .ip rfl rfl (by decide) (by decide) (fun i hi => ?_)
  have h8 : i ≠ 8 := fun h => hi (Or.inl h)
  have h10 : i ≠ 10 := fun h => hi (Or.inr (Or.inl h))
  have h11 : i ≠ 11 := fun h => hi (Or.inr (Or.inr h))
  rw [ofList_apply, routedDatagram, List.getElem?_set_ne h11.symm,
    List.getElem?_set_ne h10.symm, List.getElem?_set_ne h8.symm]
  rfl

/-- **HOP INVARIANCE**: on devices with the same buffer size, whatever traffic
    they have seen, a packet and the packet a router makes of it get the same
    headers, the same hash input and the same decision. -/
theorem hop_invariance {p q : Nat → Option UInt8} {len : Nat} (hop : HopPair p q len)
    (o setup : Options) (hf : HopFunction o.selectionFunction)
    {dev dev' d d' : DeviceDev} {as as' : List Arrival}
    (h : Receives (setDefaultsDevice setup dev) as d)
    (h' : Receives (setDefaultsDevice setup dev') as' d') :
    run q (findHeaders (u16 len) zeroOffsets zeroLayers)
        = run p (findHeaders (u16 len) zeroOffsets zeroLayers) ∧
      (run q (selectPacket o d'.hashBuffer len)).map observation
        = (run p (selectPacket o d.hashBuffer len)).map observation ∧
      ∀ ts ts' r r', run p (handleIpPacket o ts d len) = .ok r →
        run q (handleIpPacket o ts' d' len) = .ok r' → r'.decision = r.decision := by
  obtain ⟨net, hagree, hfind⟩ := findHeaders_triple hop (u16 len)
  -- the traffic seen so far has not changed the buffer sizes
  have hsize : d'.hashBuffer.size = d.hashBuffer.size :=
    (receives_setup h').size.trans (receives_setup h).size.symm
  have hobs : (run q (selectPacket o d'.hashBuffer len)).map observation
      = (run p (selectPacket o d.hashBuffer len)).map observation := by
    rw [run_observe, run_observe, hsize]
    exact observe_run_eq hop hf _
  refine ⟨hfind.run_eq hagree, hobs, ?_⟩
  -- the decision is part of what the selection stage is observed to do
  intro ts ts' r r' hr hr'
  obtain ⟨s, hs, hdec, -⟩ := handleIpPacket_selection hr
  obtain ⟨s', hs', hdec', -⟩ := handleIpPacket_selection hr'
  rw [hs, hs'] at hobs
  have heq : observation s' = observation s := Except.ok.inj hobs
  rw [hdec, hdec']
  exact congrArg Observation.decision heq

/-- A fresh device and one that has seen the datagram agree on the routed one. -/
theorem hop_invariance_datagram :
    ∃ d', Receives (socketDevice (setDefaultsOptions (fun _ => 0)))
        [⟨setDefaultsOptions (fun _ => 0), ⟨0, 0⟩, 28, ofList datagram⟩] d' ∧
      (run (ofList routedDatagram) (selectPacket (setDefaultsOptions (fun _ => 0))
          d'.hashBuffer 28)).map observation
        = (run (ofList datagram) (selectPacket (setDefaultsOptions (fun _ => 0))
          (socketDevice (setDefaultsOptions (fun _ => 0))).hashBuffer 28)).map observation := by
  obtain ⟨r, hr⟩ : ∃ r, Arrival.handle
      ⟨setDefaultsOptions (fun _ => 0), ⟨0, 0⟩, 28, ofList datagram⟩
      (socketDevice (setDefaultsOptions (fun _ => 0))) = .ok r := by
    exact ⟨_, (@handlePacket_ip _ _ _ _ _ 0x0800 rfl rfl).trans rfl⟩
  have h := Receives.cons hr (.nil r.device)
  exact ⟨_, h, (hop_invariance datagram_hopPair _ _ (Or.inr (Or.inr (Or.inl rfl)))
    (.nil _) h).2.1⟩

end Impd4e.HopInvariance
