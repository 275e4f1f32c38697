import Impd4e.PacketHandler

/-! # Where the dissector ends up

    `findHeaders` is a fixed prefix, a loop, and a fixed suffix.  The loop is
    described by the relation `OptionWalk` (rounds, start, end), the prefix and
    the loop together by `TransportAt`; the run of the whole function is then
    the run of its suffix `findTransport` at the position the relation names.

    Everything is stated for `headerOffset[L_NET] = 0`, the only way the probe
    calls it. -/

namespace Impd4e.Dissector

open ReadProg Impd4e.Hash

variable {m : Nat → Option UInt8}

/-! ## The skip loop -/

/-- `OptionWalk m n s t`: from position and believed protocol `s`, `n` rounds of
    the loop lead to `t`, every byte they read being mapped. -/
inductive OptionWalk (m : Nat → Option UInt8) :
    Nat → Nat × UInt8 → Nat × UInt8 → Prop where
  | done (s : Nat × UInt8) : OptionWalk m 0 s s
  | step {n offs : Nat} {proto len proto' : UInt8} {t : Nat × UInt8} :
      isIp6Option proto = true → m (offs + 1) = some len →
      m (offs + optionLength proto len) = some proto' →
      OptionWalk m n (offs + optionLength proto len, proto') t →
      OptionWalk m (n + 1) (offs, proto) t

theorem optionLength_ge (proto len : UInt8) : 8 ≤ optionLength proto len := by
  rw [optionLength]
  split <;> omega

/-- A round moves forward by at least eight bytes. -/
theorem walk_advance {n : Nat} {s t : Nat × UInt8} (h : OptionWalk m n s t) :
    s.1 + 8 * n ≤ t.1 := by
  induction h with
  | done s => exact Nat.le_refl _
  | @step n offs proto len proto' t _ _ _ _ ih =>
      have := optionLength_ge proto len
      have ih' : offs + optionLength proto len + 8 * n ≤ t.1 := ih
      show offs + 8 * (n + 1) ≤ t.1
      omega

/-- A walk of at least one round ends on the byte it has read last. -/
theorem walk_last {n : Nat} {s t : Nat × UInt8} (h : OptionWalk m n s t) :
    0 < n → m t.1 = some t.2 := by
  induction h with
  | done s => exact fun h => absurd h (Nat.lt_irrefl 0)
  | @step n offs proto len proto' t _ _ hp hw ih =>
      intro _
      cases hw with
      | done => exact hp
      | step h1 h2 h3 h4 => exact ih (Nat.succ_pos _)

/-- A walk over one memory is a walk over any memory that maps more. -/
theorem walk_mono {m' : Nat → Option UInt8}
    (hm : ∀ i b, m i = some b → m' i = some b) {n : Nat} {s t : Nat × UInt8}
    (h : OptionWalk m n s t) : OptionWalk m' n s t := by
  induction h with
  | done s => exact .done s
  | step hopt hlen hproto _ ih => exact .step hopt (hm _ _ hlen) (hm _ _ hproto) ih

theorem skipOptions_stop {net rounds offs : Nat} {proto : UInt8}
    (h : isIp6Option proto = false) :
    skipOptions net rounds offs proto = .ret (offs, proto) := by
  unfold skipOptions
  rw [h]
  rfl

theorem skipOptions_zero {net offs : Nat} {proto : UInt8}
    (h : isIp6Option proto = true) : skipOptions net 0 offs proto = .stuck := by
  rw [skipOptions]
  rw [h]
  rfl

theorem skipOptions_succ {rounds offs : Nat} {proto : UInt8}
    (h : isIp6Option proto = true) :
    skipOptions 0 (rounds + 1) offs proto
      = .read (offs + 1) (fun len =>
          .read (offs + optionLength proto len) (fun proto' =>
            skipOptions 0 rounds (offs + optionLength proto len) proto')) := by
  rw [skipOptions, if_pos h]
  simp only [Nat.zero_add]
  rfl

/-- Enough rounds carry the loop along a walk. -/
theorem run_skipOptions {n : Nat} {s t : Nat × UInt8} (h : OptionWalk m n s t)
    (ht : isIp6Option t.2 = false) :
    ∀ rounds, n ≤ rounds → run m (skipOptions 0 rounds s.1 s.2) = .ok t := by
  induction h with
  | done s => intro rounds _; rw [skipOptions_stop ht]; rfl
  | @step n offs proto len proto' t hopt hlen hproto _ ih =>
      intro rounds hr
      obtain ⟨r, rfl⟩ : ∃ r, rounds = r + 1 := ⟨rounds - 1, by omega⟩
      show run m (skipOptions 0 (r + 1) offs proto) = .ok t
      rw [skipOptions_succ hopt, run_read m hlen, run_read m hproto]
      exact ih ht r (by omega)

/-- What the loop returns is the end of a walk. -/
theorem walk_of_run :
    ∀ (rounds offs : Nat) (proto : UInt8) {t : Nat × UInt8},
      run m (skipOptions 0 rounds offs proto) = .ok t →
      ∃ n ≤ rounds, OptionWalk m n (offs, proto) t ∧ isIp6Option t.2 = false := by
  -- one round of fuel is one read of a length and of a protocol
  intro rounds
  induction rounds with
  | zero =>
      intro offs proto t h
      cases ho : isIp6Option proto with
      | true => rw [skipOptions_zero ho] at h; exact nomatch h
      | false =>
          rw [skipOptions_stop ho] at h
          obtain rfl := Except.ok.inj h
          exact ⟨0, Nat.le_refl _, .done _, ho⟩
  | succ r ih =>
      intro offs proto t h
      cases ho : isIp6Option proto with
      | false =>
          rw [skipOptions_stop ho] at h
          obtain rfl := Except.ok.inj h
          exact ⟨0, Nat.zero_le _, .done _, ho⟩
      | true =>
          rw [skipOptions_succ ho] at h
          cases hlen : m (offs + 1) with
          | none => rw [run_read_none m hlen] at h; exact nomatch h
          | some len =>
              rw [run_read m hlen] at h
              cases hp : m (offs + optionLength proto len) with
              | none => rw [run_read_none m hp] at h; exact nomatch h
              | some proto' =>
                  rw [run_read m hp] at h
                  -- both bytes are mapped: the rest of the loop is a shorter walk
                  obtain ⟨n, hn, hw, hstop⟩ := ih _ _ h
                  exact ⟨n + 1, by omega, .step ho hlen hp hw, hstop⟩

/-- Over `size` mapped bytes the loop ends within its rounds: each round but the
    last lands on a mapped byte, eight further on. -/
theorem skipOptions_not_stuck {size : Nat} (hm : ∀ i, size ≤ i → m i = none) :
    ∀ (rounds offs : Nat) (proto : UInt8), size ≤ offs + 8 * rounds →
      (0 < rounds ∨ offs < size) →
      run m (skipOptions 0 rounds offs proto) ≠ .error .stuck := by
  intro rounds
  induction rounds with
  | zero =>
      intro offs proto h1 h2
      rcases h2 with h2 | h2
      · exact absurd h2 (Nat.lt_irrefl 0)
      · exact absurd h2 (by omega)
  | succ r ih =>
      intro offs proto h1 _
      cases ho : isIp6Option proto with
      | false => rw [skipOptions_stop ho]; exact fun h => nomatch h
      | true =>
          rw [skipOptions_succ ho]
          cases hlen : m (offs + 1) with
          | none => rw [run_read_none m hlen]; exact fun h => nomatch h
          | some len =>
              rw [run_read m hlen]
              cases hp : m (offs + optionLength proto len) with
              | none => rw [run_read_none m hp]; exact fun h => nomatch h
              | some proto' =>
                  rw [run_read m hp]
                  -- the protocol byte just read is mapped, so it lies below `size` and the
                  -- rounds left still reach the end
                  have hge := optionLength_ge proto len
                  have hlt : offs + optionLength proto len < size := by
                    by_contra hle
                    rw [hm _ (by omega)] at hp
                    exact nomatch hp
                  exact ih _ _ (by omega) (Or.inr hlt)

/-! ## Prefix and loop together -/

/-- `TransportAt m n net offs proto`: after `n` rounds of its loop `findHeaders`
    looks for a transport header of protocol `proto` at `offs`, every byte read
    on the way being mapped. -/
inductive TransportAt (m : Nat → Option UInt8) :
    Nat → NetProt → Nat → UInt8 → Prop where
  | ip {first proto : UInt8} : m 0 = some first → first &&& 0xf0 = 0x40 →
      m 9 = some proto →
      TransportAt m 0 .ip ((first &&& 0x0F).toNat <<< 2) proto
  | ip6 {n offs : Nat} {first proto proto' : UInt8} : m 0 = some first →
      first &&& 0xf0 = 0x60 → m 6 = some proto →
      OptionWalk m n (ip6Hlen, proto) (offs, proto') →
      isIp6Option proto' = false → TransportAt m n .ip6 offs proto'

theorem transportAt_mono {m' : Nat → Option UInt8}
    (hm : ∀ i b, m i = some b → m' i = some b) {n : Nat} {net : NetProt} {offs : Nat}
    {proto : UInt8} (h : TransportAt m n net offs proto) :
    TransportAt m' n net offs proto := by
  cases h with
  | ip h0 hv h9 => exact .ip (hm _ _ h0) hv (hm _ _ h9)
  | ip6 h0 hv h6 hw hstop =>
      exact .ip6 (hm _ _ h0) hv (hm _ _ h6) (walk_mono hm hw) hstop

/-- Over a list every round of the loop has its own eight bytes. -/
theorem transportAt_rounds {l : List UInt8} {n : Nat} {net : NetProt} {offs : Nat}
    {proto : UInt8} (h : TransportAt (ofList l) n net offs proto) :
    8 * n ≤ l.length := by
  cases h with
  | ip => exact Nat.zero_le _
  | ip6 h0 hv h6 hw hstop =>
      have hadv : 40 + 8 * n ≤ offs := walk_advance hw
      rcases Nat.eq_zero_or_pos n with hn | hn
      · omega
      · have hlast : l[offs]? = some proto := walk_last hw hn
        have := (List.getElem?_eq_some_iff.mp hlast).1
        omega

/-- The offsets with the transport and payload entries cleared. -/
def cleared (headerOffset : HeaderOffset) : HeaderOffset :=
  { headerOffset with trans := absent, payload := absent }

section FindHeaders

variable {headerOffset : HeaderOffset} (hnet : headerOffset.net = 0)

include hnet

theorem findHeadersIn_eq (rounds packetLength : Nat) (layers : Layers) :
    findHeadersIn rounds packetLength headerOffset layers
      = .read 0 (fun first =>
          if first &&& 0xf0 = 0x60 then
            .read 6 (fun proto =>
              (skipOptions 0 rounds ip6Hlen proto).bind (fun t =>
                findTransport packetLength t.1 t.2 (cleared headerOffset)
                  { layers with net := .ip6 }))
          else if first &&& 0xf0 = 0x40 then
            .read 9 (fun proto =>
              findTransport packetLength ((first &&& 0x0F).toNat <<< 2) proto
                (cleared headerOffset) { layers with net := .ip })
          else .ret (cleared headerOffset, { layers with net := .unknown })) := by
  obtain ⟨link, net, trans, payload⟩ := headerOffset
  obtain rfl : net = 0 := hnet
  rw [findHeadersIn]
  simp only [Nat.zero_add]
  refine congrArg (ReadProg.read 0) (funext fun first => ?_)
  show (if first &&& 0xf0 = 0x60 then _ else _) = _
  -- the cases of the source's `switch`, in the order of its version tests
  by_cases h6 : first &&& 0xf0 = 0x60
  · rw [if_pos h6, if_pos h6]
    rfl
  · rw [if_neg h6, if_neg h6]
    by_cases h4 : first &&& 0xf0 = 0x40
    · rw [if_pos h4, if_pos h4]
      rfl
    · rw [if_neg h4, if_neg h4]
      rfl

/-- Once the transport position is known, only the suffix is left to run. -/
theorem run_findHeadersIn {n : Nat} {net : NetProt} {offs : Nat} {proto : UInt8}
    (h : TransportAt m n net offs proto) {rounds : Nat} (hn : n ≤ rounds)
    (packetLength : Nat) (layers : Layers) :
    run m (findHeadersIn rounds packetLength headerOffset layers)
      = run m (findTransport packetLength offs proto (cleared headerOffset)
          { layers with net := net }) := by
  rw [findHeadersIn_eq hnet]
  cases h with
  | @ip first _ h0 hv h9 =>
      -- the version tests exclude each other
      have h6 : ¬ first &&& 0xf0 = 0x60 :=
        fun h6 => absurd (hv.symm.trans h6) (by decide)
      rw [run_read m h0, if_neg h6, if_pos hv, run_read m h9]
  | ip6 h0 hv h6 hw hstop =>
      rw [run_read m h0, if_pos hv, run_read m h6,
        run_bind_ok m (run_skipOptions hw hstop rounds hn)]

/-- A result of `findHeaders` came out of its suffix at some transport position,
    unless the packet is not an IP packet at all. -/
theorem transportAt_of_run {packetLength : Nat} {layers : Layers}
    {r : HeaderOffset × Layers}
    (h : run m (findHeaders packetLength headerOffset layers) = .ok r) :
    (∃ n net offs proto, n ≤ maxRounds ∧ TransportAt m n net offs proto) ∨
      r = (cleared headerOffset, { layers with net := .unknown }) := by
  rw [findHeaders, findHeadersIn_eq hnet] at h
  cases h0 : m 0 with
  | none => rw [run_read_none m h0] at h; exact nomatch h
  | some first =>
      rw [run_read m h0] at h
      by_cases hv6 : first &&& 0xf0 = 0x60
      · rw [if_pos hv6] at h
        cases h6 : m 6 with
        | none => rw [run_read_none m h6] at h; exact nomatch h
        | some proto =>
            rw [run_read m h6, run_bind_eq_ok] at h
            obtain ⟨t, ht, -⟩ := h
            obtain ⟨n, hn, hw, hstop⟩ := walk_of_run maxRounds ip6Hlen proto ht
            exact Or.inl ⟨n, .ip6, t.1, t.2, hn, .ip6 h0 hv6 h6 hw hstop⟩
      · rw [if_neg hv6] at h
        by_cases hv4 : first &&& 0xf0 = 0x40
        · rw [if_pos hv4] at h
          cases h9 : m 9 with
          | none => rw [run_read_none m h9] at h; exact nomatch h
          | some proto => exact Or.inl ⟨0, .ip, _, proto, Nat.zero_le _, .ip h0 hv4 h9⟩
        · rw [if_neg hv4] at h
          -- neither version: `findHeaders` reports an unknown network layer
          exact Or.inr (Except.ok.inj h).symm

/-- Over a list the loop does not use up its rounds: when every byte it asks for
    is there, it ends at some transport position. -/
theorem transportAt_of_mapped {bytes : List UInt8} (hlen : bytes.length ≤ 8 * maxRounds)
    {layers : Layers}
    {packetLength : Nat} {first : UInt8} (h0 : bytes[0]? = some first)
    (hv : first &&& 0xf0 = 0x60 ∨ first &&& 0xf0 = 0x40)
    (h : run (ofList bytes) (findHeaders packetLength headerOffset layers)
      ≠ .error .unmapped) :
    ∃ n net offs proto, TransportAt (ofList bytes) n net offs proto := by
  rw [findHeaders, findHeadersIn_eq hnet, run_read (ofList bytes) h0] at h
  by_cases hv6 : first &&& 0xf0 = 0x60
  · rw [if_pos hv6] at h
    cases h6 : ofList bytes 6 with
    | none => exact absurd (run_read_none _ h6 _) h
    | some proto =>
        rw [run_read _ h6] at h
        cases hs : run (ofList bytes) (skipOptions 0 maxRounds ip6Hlen proto) with
        | ok t =>
            obtain ⟨n, -, hw, hstop⟩ := walk_of_run maxRounds ip6Hlen proto hs
            exact ⟨n, .ip6, t.1, t.2, .ip6 h0 hv6 h6 hw hstop⟩
        | error f =>
            cases f with
            | unmapped => exact absurd (run_bind_error _ hs _) h
            -- the list is too short for the loop to use up its rounds
            | stuck =>
                have hmap : ∀ i, bytes.length ≤ i → ofList bytes i = none :=
                  fun i hi => List.getElem?_eq_none hi
                exact absurd hs (skipOptions_not_stuck hmap maxRounds ip6Hlen proto
                  (by omega) (Or.inl (by decide)))
  · have hv4 := hv.resolve_left hv6
    rw [if_neg hv6, if_pos hv4] at h
    cases h9 : ofList bytes 9 with
    | none => exact absurd (run_read_none _ h9 _) h
    | some proto => exact ⟨0, .ip, _, proto, .ip h0 hv4 h9⟩

end FindHeaders

/-! ## The suffix -/

/-- What `findTransport` makes of the cleared offsets. -/
structure Found (packetLength offs : Nat) (proto : UInt8) (headerOffset : HeaderOffset)
    (layers : Layers) (r : HeaderOffset × Layers) : Prop where
  trans : r.1.trans = offs
  net : r.1.net = headerOffset.net
  link : r.1.link = headerOffset.link
  layers : r.2 = { layers with trans := proto }
  payload : r.1.payload = headerOffset.payload ∨
    (offs ≤ r.1.payload ∧ r.1.payload < packetLength)

theorem findTransport_short {packetLength offs : Nat} (h : packetLength ≤ offs)
    (proto : UInt8) (headerOffset : HeaderOffset) (layers : Layers) :
    findTransport packetLength offs proto headerOffset layers
      = .ret (headerOffset, layers) := by
  rw [findTransport, if_neg (by omega)]

/-- The payload offset is set only inside the packet. -/
theorem findPayload_found {packetLength offs offs' : Nat} {proto : UInt8}
    {headerOffset : HeaderOffset} {layers : Layers} (h : offs ≤ offs') :
    Found packetLength offs proto headerOffset layers
      (findPayload packetLength offs' { headerOffset with trans := offs },
        { layers with trans := proto }) := by
  rw [findPayload]
  split
  · next hlt => exact ⟨rfl, rfl, rfl, rfl, Or.inr ⟨h, hlt⟩⟩
  · exact ⟨rfl, rfl, rfl, rfl, Or.inl rfl⟩

theorem findTransport_triple {P : Nat → Prop} {packetLength offs : Nat}
    {proto : UInt8} {headerOffset : HeaderOffset} {layers : Layers}
    (h : offs < packetLength) (hP : proto = tTcp → P (offs + 12)) :
    Triple m P (findTransport packetLength offs proto headerOffset layers)
      (Found packetLength offs proto headerOffset layers) := by
  rw [findTransport, if_pos h]
  split
  · exact Triple.ret (findPayload_found (Nat.le_add_right ..))
  split
  · exact Triple.ret (findPayload_found (Nat.le_add_right ..))
  split
  · exact Triple.ret (findPayload_found (Nat.le_add_right ..))
  split
  -- TCP alone reads a byte, its data offset, and only when that is captured
  · next htcp =>
      split
      · refine Triple.read (hP htcp) (fun b _ => ?_)
        exact Triple.ret (findPayload_found (Nat.le_add_right ..))
      · exact Triple.ret (findPayload_found (Nat.le_refl _))
  · exact Triple.ret ⟨rfl, rfl, rfl, rfl, Or.inl rfl⟩

/-- The one read of the suffix, and the one way it can fault: the data offset of
    a TCP header that is cut right behind its twelfth byte, or earlier in what
    the memory maps. -/
theorem run_findTransport_error {packetLength offs : Nat} {proto : UInt8}
    {headerOffset : HeaderOffset} {layers : Layers} {f : Fault} :
    run m (findTransport packetLength offs proto headerOffset layers) = .error f ↔
      f = .unmapped ∧ proto = tTcp ∧ offs + 12 ≤ packetLength ∧ m (offs + 12) = none := by
  rw [findTransport]
  by_cases h : offs < packetLength
  · rw [if_pos h]
    by_cases htcp : proto = tTcp
    -- the one branch with a read
    · subst htcp
      rw [if_neg (by decide), if_neg (by decide), if_neg (by decide), if_pos rfl]
      by_cases h12 : packetLength ≥ offs + 12
      · rw [if_pos h12]
        show run m (.read (offs + 12) _) = _ ↔ _
        cases hb : m (offs + 12) with
        | none =>
            rw [run_read_none m hb]
            constructor
            · intro hf
              exact ⟨(Except.error.inj hf).symm, rfl, h12, rfl⟩
            · rintro ⟨rfl, -⟩
              rfl
        | some b =>
            rw [run_read m hb]
            constructor
            · exact fun hf => nomatch hf
            · rintro ⟨-, -, -, hn⟩
              exact nomatch hn
      · rw [if_neg h12]
        constructor
        · exact fun hf => nomatch hf
        · rintro ⟨-, -, h12', -⟩
          exact absurd h12' h12
    · constructor
      -- UDP, ICMP and all others return at once
      · intro hf
        exfalso
        revert hf
        simp only [if_neg htcp]
        split
        · exact fun hf => nomatch hf
        split
        · exact fun hf => nomatch hf
        split <;> exact fun hf => nomatch hf
      · rintro ⟨-, h', -⟩
        exact absurd h' htcp
  · rw [if_neg h]
    constructor
    · exact fun hf => nomatch hf
    · rintro ⟨-, -, h12, -⟩
      exact absurd h12 (by omega)

/-- `findHeaders` as a whole: it reads the version, the protocol chain and
    perhaps one TCP byte, and reports what `TransportAt` names. -/
theorem findHeaders_found {headerOffset : HeaderOffset} (hnet : headerOffset.net = 0)
    {n : Nat} {net : NetProt} {offs : Nat} {proto : UInt8}
    (ht : TransportAt m n net offs proto) (hn : n ≤ maxRounds)
    {packetLength : Nat} {layers : Layers} {r : HeaderOffset × Layers}
    (h : run m (findHeaders packetLength headerOffset layers) = .ok r) :
    (packetLength ≤ offs ∧ r = (cleared headerOffset, { layers with net := net })) ∨
      (offs < packetLength ∧
        Found packetLength offs proto (cleared headerOffset) { layers with net := net } r) := by
  rw [findHeaders, run_findHeadersIn hnet ht hn] at h
  by_cases hlt : offs < packetLength
  · exact Or.inr ⟨hlt, (findTransport_triple (P := fun _ => True) hlt
      (fun _ => trivial)).2 r h⟩
  · rw [findTransport_short (by omega)] at h
    exact Or.inl ⟨by omega, (Except.ok.inj h).symm⟩

end Impd4e.Dissector
