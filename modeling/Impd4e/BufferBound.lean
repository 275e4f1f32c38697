import Impd4e.Traffic

/-! # Does the hash buffer hold what is copied into it?

    The range functions clip what they copy to the size of the buffer, the
    presets never look at it.  `demand` is what a preset copies of a packet;
    `writes_fit_iff` says that this is all that counts, and
    `bufferBound_iff` that a run of packets stays inside the buffer exactly
    when none of them demands more than its size. -/

namespace Impd4e.BufferBound

open ReadProg Impd4e.Hash Impd4e.PacketHandler Impd4e.FieldMap Impd4e.Traffic
  Impd4e.Settings

/-! ## What a packet demands -/

/-- The bytes of the network header that are copied. -/
def netDemand : NetProt → Nat
  | .ip => 17
  | .ip6 => 39
  | .unknown => 0

/-- The bytes of the transport header that IP+TP copies. -/
def transDemand (len trans : Nat) (proto : UInt8) : Nat :=
  if proto = tTcp ∨ proto = tIcmp ∨ proto = tIcmp6 then min 20 (subU32 len trans)
  else if proto = tUdp then min 8 (subU32 len trans)
  else 0

/-- The bytes a preset writes of a packet; a range function never writes more
    than there is room. -/
def demand (f : SelectionFunction) (len : Nat) (headerOffset : HeaderOffset)
    (layers : Layers) : Nat :=
  match f with
  | .rec8 =>
      if hasTransport headerOffset layers ∧ layers.net = .ip then
        if layers.trans = tTcp ∨ layers.trans = tUdp ∨ layers.trans = tIcmp
          ∨ layers.trans = tIcmp6 then 8 else 2
      else 0
  | .onlyNet => netDemand layers.net
  | .uTcpAndNet =>
      netDemand layers.net + if hasTransport headerOffset layers then
        transDemand len headerOffset.trans layers.trans else 0
  | .packet => netDemand layers.net + min (subU32 len 20) 50
  | .raw => 0
  | .last => 0
  | .link => 0
  | .net => 0
  | .trans => 0
  | .payload => 0

section Extent

variable (headerOffset : HeaderOffset) (layers : Layers)

theorem extent_netPieces (net : NetProt) :
    extent (netPieces headerOffset net) = netDemand net := by
  cases net with
  | unknown => rfl
  | ip => rfl
  | ip6 => rfl

theorem extent_recPieces :
    extent (recPieces headerOffset layers) = demand .rec8 0 headerOffset layers := by
  rw [recPieces, demand]
  by_cases h : hasTransport headerOffset layers ∧ layers.net = .ip
  · simp only [if_pos h, extent_cons]
    rw [recTransPieces]
    by_cases htcp : layers.trans = tTcp
    · rw [if_pos htcp, if_pos (Or.inl htcp)]
      rfl
    by_cases hudp : layers.trans = tUdp
    · rw [if_neg htcp, if_pos hudp, if_pos (Or.inr (Or.inl hudp))]
      rfl
    by_cases hicmp : layers.trans = tIcmp ∨ layers.trans = tIcmp6
    · rw [if_neg htcp, if_neg hudp, if_pos hicmp, if_pos (Or.inr (Or.inr hicmp))]
      rfl
    · rw [if_neg htcp, if_neg hudp, if_neg hicmp,
        if_neg (by rintro (h | h | h); exacts [htcp h, hudp h, hicmp h])]
      rfl
  · simp only [if_neg h, extent_nil]

theorem extent_transPieces (len trans : Nat) (proto : UInt8) :
    extent (transPieces len trans proto) = transDemand len trans proto := by
  rw [transPieces, transDemand]
  split
  · rfl
  split
  · rfl
  · rfl

/-- A chain of ranges takes no more than there is room for. -/
theorem extent_rangePieces (packet packetLength : Nat) :
    ∀ (rSel : List RangeSelect) (bLen : Nat),
      extent (rangePieces packet packetLength rSel bLen) ≤ bLen := by
  intro rSel
  induction rSel with
  | nil => exact fun bLen => Nat.zero_le bLen
  | cons range next ih =>
      intro bLen
      rw [rangePieces]
      dsimp only
      have hclip : clip (packetLength - range.offset) range.length bLen ≤ bLen :=
        Nat.min_le_right ..
      split
      · rw [extent_cons]
        dsimp only
        split
        · have := ih (bLen - clip (packetLength - range.offset) range.length bLen)
          omega
        · exact hclip
      · split
        · exact ih bLen
        · exact Nat.zero_le _

theorem extent_rangePiecesReverse (packet packetLength : Nat) :
    ∀ (rSel : List RangeSelect) (bLen : Nat),
      extent (rangePiecesReverse packet packetLength rSel bLen) ≤ bLen := by
  intro rSel
  induction rSel with
  | nil => exact fun bLen => Nat.zero_le bLen
  | cons range next ih =>
      intro bLen
      rw [rangePiecesReverse]
      dsimp only
      have hclip : clip range.offset range.length bLen ≤ bLen := Nat.min_le_right ..
      split
      · rw [extent_cons]
        dsimp only
        split
        · have := ih (bLen - clip range.offset range.length bLen)
          omega
        · exact hclip
      · split
        · exact ih bLen
        · exact Nat.zero_le _

theorem u16_le (n : Nat) : u16 n ≤ n := Nat.mod_le n 65536

theorem extent_layerPieces (rSel : List RangeSelect) (len size layerOffset : Nat) :
    extent (layerPieces rSel len size layerOffset) ≤ size := by
  rw [layerPieces]
  split
  · exact Nat.zero_le _
  · exact Nat.le_trans (extent_rangePieces ..) (u16_le size)

/-- A preset copies exactly what it demands. -/
theorem extent_preset {f : SelectionFunction} (hf : Preset f) (rSel : List RangeSelect)
    (len size : Nat) :
    extent (pieces f rSel len size headerOffset layers)
      = demand f len headerOffset layers := by
  rcases hf with rfl | rfl | rfl | rfl
  · rw [pieces, extent_recPieces]
    rfl
  · rw [pieces, extent_netPieces]
    rfl
  · rw [pieces, uTcpAndNetPieces, extent_append, extent_netPieces, demand]
    split
    · rw [extent_transPieces]
    · rfl
  · rw [pieces, packetPieces, extent_append, extent_netPieces, extent_cons, extent_nil,
      Nat.add_zero, demand]

/-- **THE DEMAND**: a selection function stays inside the buffer exactly when
    its demand does. -/
theorem writes_fit_iff (f : SelectionFunction) (rSel : List RangeSelect) (len size : Nat) :
    extent (pieces f rSel len size headerOffset layers) ≤ size
      ↔ demand f len headerOffset layers ≤ size := by
  cases f with
  | rec8 => rw [extent_preset _ _ (Or.inl rfl)]
  | onlyNet => rw [extent_preset _ _ (Or.inr (Or.inl rfl))]
  | uTcpAndNet => rw [extent_preset _ _ (Or.inr (Or.inr (Or.inl rfl)))]
  | packet => rw [extent_preset _ _ (Or.inr (Or.inr (Or.inr rfl)))]
  | raw =>
      exact iff_of_true (Nat.le_trans (extent_rangePieces ..) (u16_le size)) (Nat.zero_le _)
  | last =>
      exact iff_of_true (Nat.le_trans (extent_rangePiecesReverse ..) (u16_le size))
        (Nat.zero_le _)
  | link => exact iff_of_true (extent_layerPieces ..) (Nat.zero_le _)
  | net => exact iff_of_true (extent_layerPieces ..) (Nat.zero_le _)
  | trans => exact iff_of_true (extent_layerPieces ..) (Nat.zero_le _)
  | payload => exact iff_of_true (extent_layerPieces ..) (Nat.zero_le _)

end Extent

/-! ## Runs -/

/-- Every byte ever written lies inside the buffer; `len` never exceeds
    `written`, so neither does it exceed the size when the hash is computed. -/
def Bounded (d : DeviceDev) : Prop := d.hashBuffer.written ≤ d.hashBuffer.size

/-- What the dissector finds in a packet of the device demands no more than the
    buffer's size; a packet that is not IP is never looked at. -/
def ArrivalFits (d : DeviceDev) (a : Arrival) : Prop :=
  ∀ nt headerOffset layers,
    run a.frame (nettype d a.caplen) = .ok nt → isIpType nt = true →
    run (fun i => a.frame ((networkPacket a.options d a.caplen).ptr + i))
      (findHeaders (u16 (networkPacket a.options d a.caplen).len) zeroOffsets zeroLayers)
        = .ok (headerOffset, layers) →
    demand a.options.selectionFunction (networkPacket a.options d a.caplen).len
      headerOffset layers ≤ d.hashBuffer.size

/-- Fitting is a matter of the set-up only. -/
theorem arrivalFits_congr {d d' : DeviceDev} (h : SameSetup d d') (a : Arrival) :
    ArrivalFits d' a ↔ ArrivalFits d a := by
  have hnt : nettype d' a.caplen = nettype d a.caplen := by
    rw [nettype, nettype, h.deviceType, h.linkType]
  have hpkt : networkPacket a.options d' a.caplen = networkPacket a.options d a.caplen := by
    rw [networkPacket, networkPacket, h.pktOffset]
  unfold ArrivalFits
  rw [hnt, hpkt, h.size]

/-- One packet keeps the bound exactly when it fits. -/
theorem handle_bounded_iff {d : DeviceDev} {a : Arrival} {r : Handled}
    (h : a.handle d = .ok r) : Bounded r.device ↔ Bounded d ∧ ArrivalFits d a := by
  obtain ⟨nt, hnt, ⟨hip, rfl⟩ | ⟨hip, hr⟩⟩ := handlePacket_cases h
  -- a frame that is not IP leaves the device alone
  · refine ⟨fun hb => ⟨hb, ?_⟩, fun hb => hb.1⟩
    intro nt' _ _ hnt' hip'
    obtain rfl := Except.ok.inj (hnt.symm.trans hnt')
    exact absurd (hip.symm.trans hip') (by decide)
  · obtain ⟨s, hs, -, hbuf⟩ := handleIpPacket_selection hr
    obtain ⟨hsize, hwritten⟩ := selectPacket_written hs
    obtain ⟨bytes, hfind, -⟩ := selectPacket_cases hs
    -- `written` only grows, by as much as the pieces extend
    have hsize' : s.buffer.size = d.hashBuffer.size := hsize
    have hwritten' : s.buffer.written = max d.hashBuffer.written _ := hwritten
    rw [Bounded]
    rw [hbuf, hsize', hwritten', Nat.max_le]
    refine and_congr_right fun _ => ?_
    show extent (pieces _ _ _ d.hashBuffer.size _ _) ≤ d.hashBuffer.size ↔ _
    rw [writes_fit_iff]
    constructor
    · intro hfit nt' ho ly hnt' _ hfind'
      obtain ⟨rfl, rfl⟩ := Prod.mk.inj (Except.ok.inj (hfind.symm.trans hfind'))
      exact hfit
    · intro hfit
      exact hfit nt s.offsets s.layers hnt hip hfind

/-- A run keeps the bound exactly when all its packets fit. -/
theorem receives_bounded_iff {d d' : DeviceDev} {as : List Arrival}
    (h : Receives d as d') :
    Bounded d' ↔ Bounded d ∧ ∀ a ∈ as, ArrivalFits d a := by
  induction h with
  | nil d => simp
  | @cons d d' a as r hr _ ih =>
      -- what fits is judged by the set-up, which no packet changes
      have hfits : ∀ a, ArrivalFits r.device a ↔ ArrivalFits d a :=
        arrivalFits_congr (handlePacket_setup hr)
      rw [ih, handle_bounded_iff hr, List.forall_mem_cons, and_assoc]
      simp only [hfits]

/-- The default options with another selection function. -/
def optionsWith (f : SelectionFunction) : Options :=
  { setDefaultsOptions (fun _ => 0) with selectionFunction := f }

/-- An IPv6 packet of 70 bytes without a next header. -/
def bareIp6Packet : List UInt8 :=
  [0x60, 0, 0, 0, 0, 30, 59, 64] ++ List.replicate 62 0

/-- `bareIp6Packet` as a socket device receives it. -/
def bareIp6Arrival (f : SelectionFunction) : Arrival :=
  ⟨optionsWith f, ⟨0, 0⟩, 70, ofList bareIp6Packet⟩

/-- **THE BUFFER BOUND**: a device that has been set up by `set_defaults_device`
    and has received any packets has written inside its hash buffer only, exactly
    when each of the packets fits the size the buffer was given. -/
theorem bufferBound_iff (options : Options) (dev : DeviceDev) {as : List Arrival}
    {d : DeviceDev} (h : Receives (setDefaultsDevice options dev) as d) :
    Bounded d ↔ ∀ a ∈ as, ArrivalFits (setDefaultsDevice options dev) a := by
  rw [receives_bounded_iff h]
  exact and_iff_right (Nat.zero_le _)

/-- With the network header alone the packet fits into the default 80 bytes. -/
theorem bufferBound_bareIp6 :
    ∃ d, Receives (socketDevice (optionsWith .onlyNet)) [bareIp6Arrival .onlyNet] d ∧
      (Bounded d ↔ ∀ a ∈ [bareIp6Arrival .onlyNet],
        ArrivalFits (socketDevice (optionsWith .onlyNet)) a) := by
  obtain ⟨r, hr⟩ : ∃ r, (bareIp6Arrival .onlyNet).handle
      (socketDevice (optionsWith .onlyNet)) = .ok r :=
    ⟨_, (@handlePacket_ip _ _ _ _ _ 0x86DD rfl rfl).trans rfl⟩
  have h := Receives.cons hr (.nil r.device)
  exact ⟨r.device, h, bufferBound_iff _ _ h⟩

/-- The PACKET preset writes 39 and 50 bytes of the same packet into them. -/
theorem bufferBound_bareIp6_fails :
    ∃ d, Receives (socketDevice (optionsWith .packet)) [bareIp6Arrival .packet] d ∧
      ¬ Bounded d := by
  obtain ⟨r, hr⟩ : ∃ r, (bareIp6Arrival .packet).handle
      (socketDevice (optionsWith .packet)) = .ok r :=
    ⟨_, (@handlePacket_ip _ _ _ _ _ 0x86DD rfl rfl).trans rfl⟩
  refine ⟨r.device, .cons hr (.nil r.device), fun hb => ?_⟩
  have hfits := ((handle_bounded_iff hr).mp hb).2 0x86DD _ _ rfl rfl rfl
  exact absurd hfits (by decide)

end Impd4e.BufferBound
