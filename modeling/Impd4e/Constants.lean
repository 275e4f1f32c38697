import Mathlib.Tactic.Common
import Mathlib.Data.List.Basic
import Impd4e.Lib.Binary64
import Impd4e.Lib.ReadProg

/-! # The probe's data: buffers, packets, devices, options

    The types of `constants.h` and the part of `settings.h` that the packet
    path, the option parser and the exporters share.

    A packet is read through a pointer, so every function over packet bytes is
    a `ReadProg` whose addresses are relative to the packet pointer it is given;
    what lies behind the captured bytes is whatever the memory maps there.
    `uint16_t` and `uint32_t` values are naturals reduced where the source can
    wrap.  The two `uint64_t` packet counters go up by one per packet and are
    plain naturals: fewer than 2^64 packets come. -/

namespace Impd4e

/-- A computation over the bytes behind a packet pointer. -/
abbrev Reader (α : Type) := ReadProg UInt8 α

/-- Conversion to `uint16_t`. -/
def u16 (n : Nat) : Nat := n % 65536

/-- Conversion to `uint32_t`. -/
def u32 (n : Nat) : Nat := n % 4294967296

/-- Subtraction of `uint32_t` values. -/
def subU32 (a b : Nat) : Nat := (a + (4294967296 - b)) % 4294967296

/-- The `-1` that marks a missing header, as the `uint32_t` it is stored in. -/
def absent : Nat := 4294967295

theorem u16_of_lt {n : Nat} (h : n < 65536) : u16 n = n := Nat.mod_eq_of_lt h

theorem u16_lt (n : Nat) : u16 n < 65536 := Nat.mod_lt _ (by decide)

theorem subU32_of_le {a b : Nat} (hb : b ≤ a) (ha : a < 4294967296) :
    subU32 a b = a - b := by
  rw [subU32]
  omega

/-! ## `buffer_t` -/

/-- `buffer_t`: the memory from `ptr` on, with the used length and the size
    that was allocated.  `written` is one past the highest index ever written;
    the source has no such field. -/
@[ext]
structure Buffer where
  ptr : List UInt8
  len : Nat
  size : Nat
  written : Nat
  len_le : len ≤ ptr.length
  len_le_written : len ≤ written

/-- The bytes a hash function sees. -/
def Buffer.contents (b : Buffer) : List UInt8 := b.ptr.take b.len

/-- `buffer->len = 0`. -/
def Buffer.reset (b : Buffer) : Buffer where
  ptr := b.ptr
  len := 0
  size := b.size
  written := b.written
  len_le := Nat.zero_le _
  len_le_written := Nat.zero_le _

/-- Copy `bytes` to `ptr + len` and advance `len`, with no look at `size`. -/
def Buffer.append (b : Buffer) (bytes : List UInt8) : Buffer where
  ptr := b.ptr.take b.len ++ bytes ++ b.ptr.drop (b.len + bytes.length)
  len := b.len + bytes.length
  size := b.size
  written := max b.written (b.len + bytes.length)
  len_le := by
    have := b.len_le
    simp only [List.length_append, List.length_take, List.length_drop]
    omega
  len_le_written := Nat.le_max_right _ _

@[simp] theorem Buffer.reset_len (b : Buffer) : b.reset.len = 0 := rfl
@[simp] theorem Buffer.reset_written (b : Buffer) : b.reset.written = b.written := rfl
@[simp] theorem Buffer.append_written (b : Buffer) (bytes : List UInt8) :
    (b.append bytes).written = max b.written (b.len + bytes.length) := rfl

@[simp] theorem Buffer.reset_contents (b : Buffer) : b.reset.contents = [] :=
  List.take_zero

@[simp] theorem Buffer.contents_length (b : Buffer) : b.contents.length = b.len := by
  rw [Buffer.contents, List.length_take, Nat.min_eq_left b.len_le]

/-- Appending extends the contents, whatever the old memory held. -/
@[simp] theorem Buffer.append_contents (b : Buffer) (bytes : List UInt8) :
    (b.append bytes).contents = b.contents ++ bytes := by
  have h : (b.ptr.take b.len ++ bytes).length = b.len + bytes.length := by
    rw [List.length_append, List.length_take, Nat.min_eq_left b.len_le]
  show (b.ptr.take b.len ++ bytes ++ b.ptr.drop (b.len + bytes.length)).take
    (b.len + bytes.length) = b.ptr.take b.len ++ bytes
  rw [← h, List.take_left']
  rfl

theorem Buffer.append_nil (b : Buffer) : b.append [] = b := by
  refine Buffer.ext ?_ rfl rfl (Nat.max_eq_left b.len_le_written)
  show b.ptr.take b.len ++ [] ++ b.ptr.drop b.len = b.ptr
  rw [List.append_nil, List.take_append_drop]

/-- Two appends in a row are one. -/
theorem Buffer.append_append (b : Buffer) (bytes bytes' : List UInt8) :
    (b.append bytes).append bytes' = b.append (bytes ++ bytes') := by
  have hl : (b.contents ++ bytes).length = b.len + bytes.length := by
    rw [List.length_append, Buffer.contents_length]
  have hlen : b.len + bytes.length + bytes'.length = b.len + (bytes ++ bytes').length := by
    rw [List.length_append, Nat.add_assoc]
  refine Buffer.ext ?_ hlen rfl ?_
  · show (b.append bytes).contents ++ bytes'
      ++ (b.contents ++ bytes ++ b.ptr.drop (b.len + bytes.length)).drop
          (b.len + bytes.length + bytes'.length)
      = b.contents ++ (bytes ++ bytes') ++ b.ptr.drop (b.len + (bytes ++ bytes').length)
    rw [Buffer.append_contents, ← hlen, ← hl, List.drop_length_add_append,
      List.drop_drop, List.append_assoc b.contents]
  · show max (max b.written (b.len + bytes.length)) (b.len + bytes.length + bytes'.length)
      = max b.written (b.len + (bytes ++ bytes').length)
    rw [List.length_append]
    omega

/-! ## Layers -/

/-- `netProt_t` -/
inductive NetProt where
  | unknown
  | ip
  | ip6
  deriving DecidableEq, Repr

/-- The enumeration's value, as `layers[L_NET]` holds it. -/
def NetProt.toNat : NetProt → Nat
  | .unknown => 0
  | .ip => 4
  | .ip6 => 6

/-- `transProt_t`, as far as the probe tells protocols apart. -/
abbrev tUnknown : UInt8 := 0
abbrev tIcmp : UInt8 := 1
abbrev tTcp : UInt8 := 6
abbrev tUdp : UInt8 := 17
abbrev tIcmp6 : UInt8 := 58
abbrev tSctp : UInt8 := 132

/-- `uint32_t offsets[4]`, indexed by `OSIlayer_t`. -/
structure HeaderOffset where
  link : Nat
  net : Nat
  trans : Nat
  payload : Nat
  deriving DecidableEq, Repr

/-- `uint8_t layers[4]`; the link and payload entries are never used. -/
structure Layers where
  net : NetProt
  trans : UInt8
  deriving DecidableEq, Repr

/-! ## Selection ranges and functions -/

/-- A node of `struct range_select`; the chain is a list. -/
structure RangeSelect where
  offset : Nat
  length : Nat
  deriving DecidableEq, Repr

/-- The selection functions `parseSelFunction` can install. -/
inductive SelectionFunction where
  | rec8
  | onlyNet
  | uTcpAndNet
  | packet
  | raw
  | last
  | link
  | net
  | trans
  | payload
  deriving DecidableEq, Repr

/-- `hashFunction`: a hash of the buffer's contents. -/
abbrev HashFunction := List UInt8 → UInt32

/-! ## Options and devices -/

/-- `options_t`, as far as the modelled functions use it, with the chain `rSel`
    of hash.c that is installed together with `selection_function`. -/
structure Options where
  numberInterfaces : Nat
  templateID : Nat
  offset : Nat
  hashFunction : HashFunction
  pktidFunction : Option HashFunction
  selectionFunction : SelectionFunction
  rSel : List RangeSelect
  selRangeMin : UInt32
  selRangeMax : UInt32
  snapLength : Nat
  exportPacketCount : Nat
  exportPktidInterval : Binary64.Double
  exportSamplingInterval : Binary64.Double
  exportStatsInterval : Binary64.Double
  hashAsPacketID : Bool

/-- `device_type_t` -/
inductive DeviceType where
  | unknown
  | pcap
  | pcapFile
  | socketUnix
  | socketInet
  | file
  deriving DecidableEq, Repr

/-- The `DLT_*` values the probe knows, and any other one. -/
inductive LinkType where
  | en10mb
  | atmRfc1483
  | linuxSll
  | raw
  | other (dlt : Nat)
  deriving DecidableEq, Repr

/-- An IPv4 address in network byte order, by its bytes in memory. -/
structure Ipv4Address where
  a : UInt8
  b : UInt8
  c : UInt8
  d : UInt8
  deriving DecidableEq, Repr

/-- `device_dev_t`, as far as the modelled functions use it.  `totalpacketcount`
    and `samplingDeltaCount` hold what has come, which stays below 2^64. -/
structure DeviceDev where
  deviceType : DeviceType
  deviceName : String
  ipv4Address : Ipv4Address
  linkType : LinkType
  templateId : Nat
  pktOffset : Nat
  hashBuffer : Buffer
  exportPacketCount : Nat
  totalpacketcount : Nat
  packetsDropped : Nat
  samplingSize : Nat
  samplingDeltaCount : Nat

end Impd4e
