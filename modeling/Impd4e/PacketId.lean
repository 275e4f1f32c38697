import Impd4e.Datagrams
import Impd4e.Traffic

/-! # The packet ID of an exported record

    `handle_ip_packet` computes `pkt_id`, from the hash or with the function
    `-p` names, and then points every record at `hash_id`.  So the digest field
    holds the packet ID exactly when the two are the same number. -/

namespace Impd4e.PacketId

open ReadProg Impd4e.Hash Impd4e.IpfixTemplates Impd4e.PacketHandler Impd4e.FieldMap
  Impd4e.Traffic Impd4e.Settings Impd4e.Datagrams

/-- The entry of a record that its template calls the digest. -/
def digestField (record : Record) : Option (FieldValue × Nat) := do
  let template ← getTemplate record.templateId
  let i ← template.findIdx? (fun field => field.ftype = .digestHashValue)
  record.fields[i]?

variable {m : Nat → Option UInt8} {o : Options} {ts : Timeval} {device : DeviceDev}

/-- Every packet template starts with the time stamp and the digest. -/
theorem fillFields_head {tId : Nat} {hashId : UInt32} {offsets : HeaderOffset}
    {layers : Layers} {fields : List (FieldValue × Nat)}
    (h : run m (fillFields tId ts hashId offsets layers) = .ok (some fields)) :
    (tId = tsId ∨ tId = mintId ∨ tId = tsTtlProtoId ∨ tId = tsTtlProtoIpId) ∧
      ∃ rest, fields = (.num (getTimestamp ts), 8) :: (.num hashId.toNat, 4) :: rest := by
  unfold fillFields at h
  by_cases h1 : tId = tsId
  · simp only [if_pos h1] at h
    exact ⟨Or.inl h1, _, (Option.some.inj (Except.ok.inj h)).symm⟩
  simp only [if_neg h1] at h
  by_cases h2 : tId = mintId
  · simp only [if_pos h2] at h
    obtain ⟨ttl, -, h⟩ := (run_bind_eq_ok _).mp h
    exact ⟨Or.inr (Or.inl h2), _, (Option.some.inj (Except.ok.inj h)).symm⟩
  simp only [if_neg h2] at h
  by_cases h3 : tId = tsTtlProtoId
  · simp only [if_pos h3] at h
    obtain ⟨ttl, -, h⟩ := (run_bind_eq_ok _).mp h
    obtain ⟨length, -, h⟩ := (run_bind_eq_ok _).mp h
    exact ⟨Or.inr (Or.inr (Or.inl h3)), _, (Option.some.inj (Except.ok.inj h)).symm⟩
  simp only [if_neg h3] at h
  by_cases h4 : tId = tsTtlProtoIpId
  · simp only [if_pos h4] at h
    obtain ⟨ttl, -, h⟩ := (run_bind_eq_ok _).mp h
    obtain ⟨length, -, h⟩ := (run_bind_eq_ok _).mp h
    obtain ⟨srcPort, -, h⟩ := (run_bind_eq_ok _).mp h
    obtain ⟨dstPort, -, h⟩ := (run_bind_eq_ok _).mp h
    obtain ⟨srcIpa, -, h⟩ := (run_bind_eq_ok _).mp h
    obtain ⟨dstIpa, -, h⟩ := (run_bind_eq_ok _).mp h
    exact ⟨Or.inr (Or.inr (Or.inr h4)), _, (Option.some.inj (Except.ok.inj h)).symm⟩
  simp only [if_neg h4] at h
  exact nomatch Except.ok.inj h

/-- Whatever the template, the digest entry is the four bytes of the hash. -/
theorem digestField_of_fillFields {tId : Nat} {hashId : UInt32} {offsets : HeaderOffset}
    {layers : Layers} {fields : List (FieldValue × Nat)}
    (h : run m (fillFields tId ts hashId offsets layers) = .ok (some fields)) :
    digestField ⟨tId, fields⟩ = some (.num hashId.toNat, 4) := by
  obtain ⟨rfl | rfl | rfl | rfl, rest, rfl⟩ := fillFields_head h
  · rfl
  · rfl
  · rfl
  · rfl

/-- An exported record carries the hash of the selected bytes as its digest. -/
theorem exported_digest {len : Nat} {r : Handled} {record : Record} {bytes : List UInt8}
    (h : run m (handleIpPacket o ts device len) = .ok r) (hrec : r.exported = some record)
    (hin : run m (hashInput o.selectionFunction o.rSel device.hashBuffer.size len)
      = .ok bytes) :
    digestField record = some (.num (o.hashFunction bytes).toNat, 4) := by
  obtain ⟨s, hs, ⟨-, rfl⟩ | ⟨hashId, -, rfl⟩ | ⟨hashId, hdec, hsel⟩⟩ := handleIpPacket_cases h
  · cases hrec
  · cases hrec
  -- the range test has put the hash of the selected bytes into its decision
  · have hid : hashId = o.hashFunction bytes := by
      have hmap := run_hashInput device.hashBuffer m o len
      rw [hs, hin] at hmap
      have htest : s.decision = rangeTest o bytes := congrArg Prod.snd (Except.ok.inj hmap)
      rw [hdec, rangeTest] at htest
      split at htest
      · cases htest
      · dsimp only at htest
        split at htest
        · exact Decision.selected.inj htest
        · cases htest
    rcases handleSelected_cases hsel with rfl | ⟨fields, hf, rfl⟩
    · cases hrec
    -- both ways of exporting send the fields the template was filled with
    · have hexp : record = ⟨effectiveTemplate o { device with hashBuffer := s.buffer },
          fields⟩ := by
        unfold exportRecord at hrec
        split at hrec
        · exact (Option.some.inj hrec).symm
        · exact (Option.some.inj hrec).symm
      rw [hexp, ← hid]
      exact digestField_of_fillFields hf

/-- A small datagram is exported under these options and under `-p`. -/
theorem exported_udp (o : Options) (h : o = selectAll ∨ o = optP (fun _ => 1) selectAll) :
    ∃ r record bytes,
      run (ofList udpDatagram.bytes) (handleIpPacket o ⟨1, 0⟩ (socketDevice o) 28) = .ok r ∧
      r.exported = some record ∧
      run (ofList udpDatagram.bytes) (hashInput o.selectionFunction o.rSel
        (socketDevice o).hashBuffer.size 28) = .ok bytes := by
  rcases h with rfl | rfl
  · exact ⟨_, _, _, rfl, rfl, rfl⟩
  · exact ⟨_, _, _, rfl, rfl, rfl⟩

/-- **THE PACKET ID**: the digest of an exported record is the packet ID exactly
    when the hash serves as packet ID, or the function `-p` names gives the hash
    of the selected bytes all the same. -/
theorem exported_digest_iff {len : Nat} {r : Handled} {record : Record}
    {bytes : List UInt8}
    (h : run m (handleIpPacket o ts device len) = .ok r) (hrec : r.exported = some record)
    (hin : run m (hashInput o.selectionFunction o.rSel device.hashBuffer.size len)
      = .ok bytes) :
    (∃ pktId, packetId o (o.hashFunction bytes) bytes = some pktId ∧
        digestField record = some (.num pktId.toNat, 4)) ↔
      (o.hashAsPacketID = true ∨
        ∃ g, o.pktidFunction = some g ∧ g bytes = o.hashFunction bytes) := by
  rw [exported_digest h hrec hin]
  rw [packetId]
  by_cases hid : o.hashAsPacketID = true
  · rw [if_pos hid]
    exact iff_of_true ⟨_, rfl, rfl⟩ (Or.inl hid)
  · rw [if_neg hid]
    -- `-p` was given: `pkt_id` is what its function makes of the same bytes
    constructor
    · rintro ⟨pktId, hmap, hdigest⟩
      obtain ⟨g, hg, rfl⟩ := Option.map_eq_some_iff.mp hmap
      have hnum := congrArg Prod.fst (Option.some.inj hdigest)
      exact Or.inr ⟨g, hg, (UInt32.toNat_inj.mp (FieldValue.num.inj hnum)).symm⟩
    · rintro (htrue | ⟨g, hg, heq⟩)
      · exact absurd htrue hid
      · exact ⟨g bytes, by rw [hg]; rfl, by rw [heq]⟩

/-- Without `-p` the digest is the packet ID. -/
theorem exported_digest_udp :
    ∃ r record bytes pktId,
      run (ofList udpDatagram.bytes) (handleIpPacket selectAll ⟨1, 0⟩
        (socketDevice selectAll) 28) = .ok r ∧
      r.exported = some record ∧
      packetId selectAll (selectAll.hashFunction bytes) bytes = some pktId ∧
      digestField record = some (.num pktId.toNat, 4) := by
  obtain ⟨r, record, bytes, h, hrec, hin⟩ := exported_udp selectAll (Or.inl rfl)
  obtain ⟨pktId, hid, hdigest⟩ := (exported_digest_iff h hrec hin).mpr (Or.inl rfl)
  exact ⟨r, record, bytes, pktId, h, hrec, hid, hdigest⟩

/-- With `-p` and another function the record still carries the hash. -/
theorem exported_digest_udp_fails :
    ∃ r record bytes,
      run (ofList udpDatagram.bytes) (handleIpPacket (optP (fun _ => 1) selectAll) ⟨1, 0⟩
        (socketDevice (optP (fun _ => 1) selectAll)) 28) = .ok r ∧
      r.exported = some record ∧
      run (ofList udpDatagram.bytes) (hashInput .uTcpAndNet [⟨0, 0⟩] 80 28) = .ok bytes ∧
      packetId (optP (fun _ => 1) selectAll) 0x20000000 bytes = some 1 ∧
      digestField record ≠ some (.num 1, 4) := by
  obtain ⟨r, record, bytes, h, hrec, hin⟩ :=
    exported_udp (optP (fun _ => 1) selectAll) (Or.inr rfl)
  refine ⟨r, record, bytes, h, hrec, hin, rfl, ?_⟩
  rw [exported_digest h hrec hin]
  show some (FieldValue.num (0x20000000 : UInt32).toNat, 4) ≠ some (FieldValue.num 1, 4)
  decide

end Impd4e.PacketId
