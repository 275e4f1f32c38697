import Impd4e.Dissector

/-! # IP datagrams

    A datagram ends where its own length field says.  What the link layer puts
    behind it, and what lies behind the captured bytes, are not part of it. -/

namespace Impd4e.Datagrams

open ReadProg Impd4e.Hash Impd4e.Dissector

/-- Version 4, a header of at least five words, all there, and the total length. -/
structure IsIp4 (bytes : List UInt8) (first hi lo : UInt8) : Prop where
  first_byte : bytes[0]? = some first
  version : first &&& 0xf0 = 0x40
  ihl : 5 ≤ (first &&& 0x0F).toNat
  header : (first &&& 0x0F).toNat <<< 2 ≤ bytes.length
  hi_byte : bytes[2]? = some hi
  lo_byte : bytes[3]? = some lo
  length : bytes.length = hi.toNat * 256 + lo.toNat

/-- Version 6, and the payload length. -/
structure IsIp6 (bytes : List UInt8) (first hi lo : UInt8) : Prop where
  first_byte : bytes[0]? = some first
  version : first &&& 0xf0 = 0x60
  hi_byte : bytes[4]? = some hi
  lo_byte : bytes[5]? = some lo
  length : bytes.length = ip6Hlen + (hi.toNat * 256 + lo.toNat)

structure Datagram where
  bytes : List UInt8
  valid : ∃ first hi lo, IsIp4 bytes first hi lo ∨ IsIp6 bytes first hi lo

/-- A UDP datagram of 28 bytes, without a payload. -/
def udpDatagram : Datagram where
  bytes := [0x45, 0, 0, 28, 0, 0, 0, 0, 64, 17, 0, 0, 10, 0, 0, 1, 10, 0, 0, 2] ++
    [0, 53, 0, 53, 0, 8, 0, 0]
  valid := ⟨0x45, 0, 28, Or.inl ⟨rfl, by decide, by decide, by decide, rfl, rfl, rfl⟩⟩

/-- The length of the fixed header. -/
def netLength : NetProt → Nat
  | .ip => 20
  | .ip6 => 40
  | .unknown => 0

variable (d : Datagram)

theorem length_le : d.bytes.length ≤ 65575 := by
  obtain ⟨first, hi, lo, h | h⟩ := d.valid
  · have := h.length
    have := hi.toNat_lt
    have := lo.toNat_lt
    omega
  · have h40 : d.bytes.length = 40 + (hi.toNat * 256 + lo.toNat) := h.length
    have := hi.toNat_lt
    have := lo.toNat_lt
    omega

theorem length_ge : 20 ≤ d.bytes.length := by
  obtain ⟨first, hi, lo, h | h⟩ := d.valid
  · have h1 := h.header
    have h2 := h.ihl
    rw [Nat.shiftLeft_eq] at h1
    omega
  · have h40 : d.bytes.length = 40 + (hi.toNat * 256 + lo.toNat) := h.length
    omega

/-- The version the dissector goes by. -/
theorem byte_version :
    ∃ first, d.bytes[0]? = some first ∧ (first &&& 0xf0 = 0x60 ∨ first &&& 0xf0 = 0x40) := by
  obtain ⟨first, hi, lo, h | h⟩ := d.valid
  · exact ⟨first, h.first_byte, Or.inr h.version⟩
  · exact ⟨first, h.first_byte, Or.inl h.version⟩

section Transport

variable {d} {n offs : Nat} {net : NetProt} {proto : UInt8}
  (ht : TransportAt (ofList d.bytes) n net offs proto)

include ht

/-- The fixed header is part of the datagram, the transport header at its end
    at the latest, and an IPv4 header is at most fifteen words long. -/
theorem transportAt_length :
    netLength net ≤ d.bytes.length ∧ netLength net ≤ offs ∧ offs ≤ d.bytes.length ∧
      (net = .ip → offs ≤ 60) ∧ net ≠ .unknown := by
  obtain ⟨first, hi, lo, h | h⟩ := d.valid
  · cases ht with
    | @ip first' _ h0 hv _ =>
        obtain rfl := Option.some.inj (h.first_byte.symm.trans h0)
        have hhead := h.header
        have hihl := h.ihl
        have h15 : (first &&& 0x0F).toNat ≤ 15 := by
          rw [UInt8.toNat_and]
          exact Nat.and_le_right
        rw [Nat.shiftLeft_eq] at hhead ⊢
        refine ⟨?_, ?_, by omega, fun _ => by omega, by decide⟩
        · show 20 ≤ _
          omega
        · show 20 ≤ _
          omega
    -- a version byte cannot be both 4 and 6
    | ip6 h0 hv _ _ _ =>
        obtain rfl := Option.some.inj (h.first_byte.symm.trans h0)
        exact absurd (h.version.symm.trans hv) (by decide)
  · have h40 : d.bytes.length = 40 + (hi.toNat * 256 + lo.toNat) := h.length
    cases ht with
    | ip h0 hv _ =>
        obtain rfl := Option.some.inj (h.first_byte.symm.trans h0)
        exact absurd (h.version.symm.trans hv) (by decide)
    | ip6 h0 hv h6 hw hstop =>
        have hadv : 40 + 8 * n ≤ offs := walk_advance hw
        refine ⟨?_, ?_, ?_, (fun h => nomatch h), by decide⟩
        · show 40 ≤ _
          omega
        · show 40 ≤ _
          omega
        -- without a round the header is behind the fixed one; else its protocol was just read there
        · rcases Nat.eq_zero_or_pos n with hn | hn
          · subst hn
            have : offs = 40 := by cases hw; rfl
            omega
          · have hlast : d.bytes[offs]? = some proto := walk_last hw hn
            have := (List.getElem?_eq_some_iff.mp hlast).1
            omega

end Transport

end Impd4e.Datagrams
