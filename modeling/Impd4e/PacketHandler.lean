import Impd4e.Hash
import Impd4e.IpfixTemplates

/-! # From a captured frame to an exported record

    `handle_packet` and `handle_ip_packet`: count the packet, find its network
    type, skip the link header, fill the hash buffer, hash it, compare the hash
    with the selection range, and export a record for a selected packet.

    The first stage of `handle_ip_packet`, up to the range test, is
    `selectPacket`; the stage behind it only counts and exports. -/

namespace Impd4e.PacketHandler

open ReadProg Impd4e.Hash Impd4e.IpfixTemplates

/-! ## The selection stage -/

/-- What becomes of a packet. -/
inductive Decision where
  /-- `handle_default_packet`: not an IP packet -/
  | unsupported
  /-- the selection function left the hash buffer empty -/
  | noSelection
  /-- the hash is outside the selection range -/
  | dropped (hashId : UInt32)
  /-- the hash is inside the selection range -/
  | selected (hashId : UInt32)
  deriving DecidableEq, Repr

/-- The `hash_id` that was computed, if any. -/
def Decision.hashId : Decision → Option UInt32
  | .unsupported => none
  | .noSelection => none
  | .dropped h => some h
  | .selected h => some h

def Decision.isSelected : Decision → Bool
  | .selected _ => true
  | _ => false

/-- The arrays `offsets` and `layers` as `handle_ip_packet` starts with them. -/
def zeroOffsets : HeaderOffset := ⟨0, 0, 0, 0⟩
def zeroLayers : Layers := ⟨.unknown, 0⟩

/-- Reset the hash buffer, find the headers, run the selection function. -/
def selectFields (o : Options) (hashBuffer : Buffer) (len : Nat) :
    Reader (Buffer × HeaderOffset × Layers) := do
  let (offsets, layers) ← findHeaders (u16 len) zeroOffsets zeroLayers
  let buffer ← selectionFunction o.selectionFunction o.rSel len hashBuffer.reset
    offsets layers
  return (buffer, offsets, layers)

/-- The range test on the hash of the selected bytes. -/
def rangeTest (o : Options) (contents : List UInt8) : Decision :=
  if contents.length = 0 then .noSelection
  else
    let hashId := o.hashFunction contents
    if o.selRangeMin ≤ hashId ∧ hashId ≤ o.selRangeMax then .selected hashId
    else .dropped hashId

structure Selection where
  buffer : Buffer
  offsets : HeaderOffset
  layers : Layers
  decision : Decision

/-- `handle_ip_packet` up to the range test. -/
def selectPacket (o : Options) (hashBuffer : Buffer) (len : Nat) :
    Reader Selection := do
  let (buffer, offsets, layers) ← selectFields o hashBuffer len
  return ⟨buffer, offsets, layers, rangeTest o buffer.contents⟩

/-! ## The export stage -/

/-- A 16-bit value in network byte order. -/
def readU16 (i : Nat) : Reader Nat := do
  let hi ← cell i
  let lo ← cell (i + 1)
  return hi.toNat * 256 + lo.toNat

def getTtl (offset : Nat) : NetProt → Reader Nat
  | .ip => do return (← cell (offset + 8)).toNat
  | .ip6 => do return (← cell (offset + 7)).toNat
  | .unknown => return 0

def getIpLength (offset : Nat) : NetProt → Reader Nat
  | .ip => readU16 (offset + 2)
  | .ip6 => readU16 (offset + 4)
  | .unknown => return 0

/-- The four bytes behind the pointer `get_ipa` returns; anything but IPv4
    points to a static zero. -/
def getIpa (offset : Nat) : NetProt → Reader (List UInt8)
  | .ip => block (offset + 12) 4
  | .ip6 => return [0, 0, 0, 0]
  | .unknown => return [0, 0, 0, 0]

def getPort (offset : Nat) (transtype : UInt8) : Reader Nat :=
  if transtype = tUdp ∨ transtype = tTcp ∨ transtype = tSctp then readU16 offset
  else return 0

/-- `struct timeval` -/
structure Timeval where
  sec : Nat
  usec : Nat
  deriving DecidableEq, Repr

def getTimestamp (ts : Timeval) : Nat :=
  (ts.sec * 1000000 + ts.usec) % 18446744073709551616

/-- What one entry of `fields` points to. -/
inductive FieldValue where
  | num (n : Nat)
  | addr (bytes : List UInt8)
  | text (s : String)
  deriving DecidableEq, Repr

/-- A call of `ipfix_export_array`: the id of the template and the entries of
    `fields` and `lengths`. -/
structure Record where
  templateId : Nat
  fields : List (FieldValue × Nat)
  deriving DecidableEq, Repr

/-- The switch that fills `fields` and `lengths`; `none` is its default. -/
def fillFields (tId : Nat) (ts : Timeval) (hashId : UInt32) (offsets : HeaderOffset)
    (layers : Layers) : Reader (Option (List (FieldValue × Nat))) :=
  let timestamp := getTimestamp ts
  if tId = tsId then
    return some [(.num timestamp, 8), (.num hashId.toNat, 4)]
  else if tId = mintId then do
    let ttl ← getTtl offsets.net layers.net
    return some [(.num timestamp, 8), (.num hashId.toNat, 4), (.num ttl, 1)]
  else if tId = tsTtlProtoId then do
    let ttl ← getTtl offsets.net layers.net
    let length ← getIpLength offsets.net layers.net
    return some [(.num timestamp, 8), (.num hashId.toNat, 4), (.num ttl, 1),
      (.num length, 2), (.num layers.trans.toNat, 1), (.num layers.net.toNat, 1)]
  else if tId = tsTtlProtoIpId then do
    let ttl ← getTtl offsets.net layers.net
    let length ← getIpLength offsets.net layers.net
    let srcPort ← getPort offsets.trans layers.trans
    let dstPort ← getPort (u32 (offsets.trans + 2)) layers.trans
    let srcIpa ← getIpa offsets.net layers.net
    let dstIpa ← getIpa (offsets.net + 4) layers.net
    return some [(.num timestamp, 8), (.num hashId.toNat, 4), (.num ttl, 1),
      (.num length, 2), (.num layers.trans.toNat, 1), (.num layers.net.toNat, 1),
      (.addr srcIpa, 4), (.num srcPort, 2), (.addr dstIpa, 4), (.num dstPort, 2)]
  else return none

/-- `pkt_id`; `none` is a call through a NULL `pktid_function`. -/
def packetId (o : Options) (hashId : UInt32) (contents : List UInt8) : Option UInt32 :=
  if o.hashAsPacketID then some hashId
  else o.pktidFunction.map (fun f => f contents)

/-- The template in force for a device. -/
def effectiveTemplate (o : Options) (device : DeviceDev) : Nat :=
  if device.templateId = absent then o.templateID else device.templateId

/-- What handling one packet leaves behind and hands out. -/
structure Handled where
  device : DeviceDev
  decision : Decision
  exported : Option Record
  flushed : Bool

/-- The end of the selected branch: export the record, flush when the device
    has reached the flush count, and forget the dropped packets. -/
def exportRecord (o : Options) (device : DeviceDev) (decision : Decision)
    (record : Record) : Handled :=
  if device.exportPacketCount ≥ o.exportPacketCount then
    ⟨{ device with exportPacketCount := 0, packetsDropped := 0 }, decision,
      some record, true⟩
  else ⟨{ device with packetsDropped := 0 }, decision, some record, false⟩

/-- The selected branch of `handle_ip_packet`. -/
def handleSelected (o : Options) (ts : Timeval) (device : DeviceDev)
    (hashId : UInt32) (offsets : HeaderOffset) (layers : Layers) : Reader Handled :=
  let device := { device with
    exportPacketCount := u32 (device.exportPacketCount + 1)
    samplingSize := u32 (device.samplingSize + 1) }
  if o.exportPktidInterval ≤ 0 then
    return ⟨device, .selected hashId, none, false⟩
  else
    match packetId o hashId device.hashBuffer.contents with
    | none => .stuck
    | some _pktId =>
        let tId := effectiveTemplate o device
        match getTemplate tId with
        | none => .stuck
        | some _template => do
            match ← fillFields tId ts hashId offsets layers with
            | none => return ⟨device, .selected hashId, none, false⟩
            | some fields =>
                return exportRecord o device (.selected hashId) ⟨tId, fields⟩

def handleIpPacket (o : Options) (ts : Timeval) (device : DeviceDev) (len : Nat) :
    Reader Handled := do
  let s ← selectPacket o device.hashBuffer len
  let device := { device with hashBuffer := s.buffer }
  match s.decision with
  | .unsupported => return ⟨device, s.decision, none, false⟩
  | .noSelection => return ⟨device, s.decision, none, false⟩
  | .dropped _ =>
      return ⟨{ device with packetsDropped := u32 (device.packetsDropped + 1) },
        s.decision, none, false⟩
  | .selected hashId => handleSelected o ts device hashId s.offsets s.layers

/-! ## `handle_packet` -/

/-- `packet_t`, its pointer as an offset into the captured frame. -/
structure Packet where
  ptr : Nat
  len : Nat
  deriving DecidableEq, Repr

def applyOffset (pkt : Packet) (offset : Nat) : Packet :=
  if offset < pkt.len then ⟨pkt.ptr + offset, pkt.len - offset⟩
  else { pkt with len := 0 }

abbrev ethertypeIp : Nat := 0x0800
abbrev ethertypeIp6 : Nat := 0x86DD

/-- The protocol type field of a link header. -/
def getNettype : LinkType → Reader Nat
  | .en10mb => readU16 12
  | .atmRfc1483 => readU16 6
  | .linuxSll => readU16 14
  | .raw => return 0
  | .other _ => return 0

/-- The protocol type of a bare packet, from its version nibble. -/
def getNettypePkt (len : Nat) : Reader Nat :=
  if 20 ≤ len then do
    let first ← cell 0
    if first &&& 0xf0 = 0x40 then return ethertypeIp
    else if first &&& 0xf0 = 0x60 then return ethertypeIp6
    else return 0
  else return 0

/-- `info.nettype` -/
def nettype (device : DeviceDev) (caplen : Nat) : Reader Nat :=
  match device.deviceType with
  | .pcap => getNettype device.linkType
  | .pcapFile => getNettype device.linkType
  | .socketUnix => getNettypePkt caplen
  | .socketInet => getNettypePkt caplen
  | .file => return 0
  | .unknown => return 0

/-- The packet behind the link header and the user offset. -/
def networkPacket (o : Options) (device : DeviceDev) (caplen : Nat) : Packet :=
  applyOffset (applyOffset ⟨0, caplen⟩ device.pktOffset) o.offset

def isIpType (nettype : Nat) : Bool :=
  nettype == ethertypeIp || nettype == ethertypeIp6

/-- The counters `handle_packet` bumps for every packet. -/
def countPacket (device : DeviceDev) : DeviceDev :=
  { device with
    samplingDeltaCount := device.samplingDeltaCount + 1
    totalpacketcount := device.totalpacketcount + 1 }

def handlePacket (o : Options) (ts : Timeval) (caplen : Nat) (device : DeviceDev) :
    Reader Handled := do
  let device := countPacket device
  let nettype ← nettype device caplen
  let pkt := networkPacket o device caplen
  if isIpType nettype then (handleIpPacket o ts device pkt.len).rebase pkt.ptr
  else return ⟨device, .unsupported, none, false⟩

/-- The decision `handle_packet` takes, without the export behind it. -/
def packetDecision (o : Options) (caplen : Nat) (device : DeviceDev) :
    Reader Decision := do
  let nettype ← nettype device caplen
  let pkt := networkPacket o device caplen
  if isIpType nettype then do
    let s ← (selectPacket o device.hashBuffer pkt.len).rebase pkt.ptr
    return s.decision
  else return .unsupported

end Impd4e.PacketHandler
