import Impd4e.Constants

/-! # Dissecting a packet and filling the hash buffer

    The packet half of hash.c: `findHeaders` locates the layers of an IP packet,
    the `copyFields_*` functions append parts of the packet to the hash buffer.
    Addresses are relative to `packet->ptr`; nothing here compares an address
    with the captured length unless the source does. -/

namespace Impd4e.Hash

open ReadProg

/-! ## `findHeaders` -/

abbrev icmpHlen : Nat := 4
abbrev icmp6Hlen : Nat := 4
abbrev udpHlen : Nat := 8
abbrev ip6Hlen : Nat := 40

abbrev ip6hdrHop : UInt8 := 0
abbrev ip6hdrRoute : UInt8 := 43
abbrev ip6hdrFrag : UInt8 := 44
abbrev ip6hdrAh : UInt8 := 51
abbrev ip6hdrDest : UInt8 := 60

/-- The loop condition: headers the dissector skips. -/
def isIp6Option (proto : UInt8) : Bool :=
  proto == ip6hdrHop || proto == ip6hdrRoute || proto == ip6hdrFrag
    || proto == ip6hdrAh || proto == ip6hdrDest

/-- How far one round of the loop moves, from the protocol it believes in and
    the length byte it reads. -/
def optionLength (proto len : UInt8) : Nat :=
  if proto ≠ ip6hdrAh then len.toNat * 8 + 8 else len.toNat * 4 + 8

/-- The IPv6 skip loop, for at most `rounds` rounds.  It advances first and
    reads the next protocol where it then stands. -/
def skipOptions (net : Nat) : Nat → Nat → UInt8 → Reader (Nat × UInt8)
  | rounds, offs, proto =>
      if isIp6Option proto then
        match rounds with
        | 0 => .stuck
        | rounds + 1 => do
            let len ← cell (net + offs + 1)
            let offs := offs + optionLength proto len
            let proto ← cell (net + offs)
            skipOptions net rounds offs proto
      else .ret (offs, proto)

/-- `offs` is an `int` and grows by at least 8 in a round: after this many
    rounds it has overflowed, which C leaves undefined. -/
def maxRounds : Nat := 268435456

/-- The part of `findHeaders` behind the transport switch. -/
def findPayload (packetLength offs : Nat) (headerOffset : HeaderOffset) :
    HeaderOffset :=
  if offs < packetLength then { headerOffset with payload := offs }
  else headerOffset

/-- The part of `findHeaders` behind the network switch. -/
def findTransport (packetLength offs : Nat) (proto : UInt8)
    (headerOffset : HeaderOffset) (layers : Layers) :
    Reader (HeaderOffset × Layers) :=
  if offs < packetLength then
    let headerOffset := { headerOffset with trans := offs }
    let layers := { layers with trans := proto }
    if proto = tIcmp then
      .ret (findPayload packetLength (offs + icmpHlen) headerOffset, layers)
    else if proto = tIcmp6 then
      .ret (findPayload packetLength (offs + icmp6Hlen) headerOffset, layers)
    else if proto = tUdp then
      .ret (findPayload packetLength (offs + udpHlen) headerOffset, layers)
    else if proto = tTcp then
      if packetLength ≥ offs + 12 then do
        let b ← cell (offs + 12)
        return (findPayload packetLength (offs + ((b &&& 0xF0) >>> 2).toNat)
          headerOffset, layers)
      else .ret (findPayload packetLength offs headerOffset, layers)
    else .ret (headerOffset, layers)
  else .ret (headerOffset, layers)

/-- `findHeaders`, with the number of rounds its loop may take. -/
def findHeadersIn (rounds packetLength : Nat) (headerOffset : HeaderOffset)
    (layers : Layers) : Reader (HeaderOffset × Layers) := do
  let offs := headerOffset.net
  let headerOffset := { headerOffset with trans := absent, payload := absent }
  let first ← cell headerOffset.net
  if first &&& 0xf0 = 0x60 then
    let proto ← cell (headerOffset.net + 6)
    let (offs, proto) ← skipOptions headerOffset.net rounds (offs + ip6Hlen) proto
    findTransport packetLength offs proto headerOffset { layers with net := .ip6 }
  else if first &&& 0xf0 = 0x40 then
    let offs := offs + ((first &&& 0x0F).toNat <<< 2)
    let proto ← cell (headerOffset.net + 9)
    findTransport packetLength offs proto headerOffset { layers with net := .ip }
  else return (headerOffset, { layers with net := .unknown })

def findHeaders (packetLength : Nat) (headerOffset : HeaderOffset)
    (layers : Layers) : Reader (HeaderOffset × Layers) :=
  findHeadersIn maxRounds packetLength headerOffset layers

/-! ## The copy functions

    Each takes `packet->len`, the buffer, the offsets and the layers. -/

/-- `append_packet` -/
def appendPacket (b : Buffer) (p count : Nat) : Reader Buffer := do
  let bytes ← block p count
  return b.append bytes

/-- The IP header without the fields that change between hops. -/
def copyNetFields (buffer : Buffer) (headerOffset : HeaderOffset)
    (layers : Layers) : Reader Buffer :=
  match layers.net with
  | .ip => do
      let buffer ← appendPacket buffer headerOffset.net 8
      let buffer ← appendPacket buffer (headerOffset.net + 9) 1
      appendPacket buffer (headerOffset.net + 12) 8
  | .ip6 => do
      let buffer ← appendPacket buffer headerOffset.net 7
      appendPacket buffer (headerOffset.net + 8) 32
  | .unknown => .ret buffer

/-- Is there a transport header the presets look at? -/
def hasTransport (headerOffset : HeaderOffset) (layers : Layers) : Bool :=
  headerOffset.trans != absent && layers.trans != tUnknown

def copyFieldsRec (buffer : Buffer) (headerOffset : HeaderOffset)
    (layers : Layers) : Reader Buffer :=
  if hasTransport headerOffset layers ∧ layers.net = .ip then do
    let buffer ← appendPacket buffer (headerOffset.net + 4) 2
    if layers.trans = tTcp then
      let buffer ← appendPacket buffer (headerOffset.trans + 6) 2
      let buffer ← appendPacket buffer (headerOffset.trans + 10) 2
      appendPacket buffer (headerOffset.trans + 16) 2
    else if layers.trans = tUdp then
      let buffer ← appendPacket buffer headerOffset.trans 2
      let buffer ← appendPacket buffer (headerOffset.trans + 3) 1
      appendPacket buffer (headerOffset.trans + 5) 3
    else if layers.trans = tIcmp ∨ layers.trans = tIcmp6 then
      let buffer ← appendPacket buffer (headerOffset.trans + 2) 2
      appendPacket buffer (headerOffset.trans + 12) 4
    else return buffer
  else .ret buffer

def copyFieldsOnlyNet (buffer : Buffer) (headerOffset : HeaderOffset)
    (layers : Layers) : Reader Buffer :=
  copyNetFields buffer headerOffset layers

def copyFieldsUTcpAndNet (len : Nat) (buffer : Buffer)
    (headerOffset : HeaderOffset) (layers : Layers) : Reader Buffer := do
  let buffer ← copyNetFields buffer headerOffset layers
  if hasTransport headerOffset layers then
    if layers.trans = tTcp ∨ layers.trans = tIcmp ∨ layers.trans = tIcmp6 then
      appendPacket buffer headerOffset.trans (min 20 (subU32 len headerOffset.trans))
    else if layers.trans = tUdp then
      appendPacket buffer headerOffset.trans (min 8 (subU32 len headerOffset.trans))
    else return buffer
  else return buffer.reset

def copyFieldsPacket (len : Nat) (buffer : Buffer) (headerOffset : HeaderOffset)
    (layers : Layers) : Reader Buffer := do
  let buffer ← copyNetFields buffer headerOffset layers
  appendPacket buffer (headerOffset.net + 20) (min (subU32 len 20) 50)

/-! ## Copying ranges -/

/-- How many bytes a range takes of `avail`: all of them when its length is 0,
    and never more than the buffer still holds. -/
def clip (avail length bLen : Nat) : Nat :=
  min (if length = 0 then avail else min avail length) bLen

/-- `copyFields_Select` from the packet pointer `packet` on; the buffer's
    length is the source's `written`. -/
def copyFieldsSelect (packet packetLength : Nat) :
    List RangeSelect → Buffer → Nat → Reader Buffer
  | [], b, _ => .ret b
  | range :: next, b, bLen =>
      let write := packetLength - range.offset
      if 0 < write then do
        let write := clip write range.length bLen
        let b ← appendPacket b (packet + range.offset) write
        if 0 < bLen - write then copyFieldsSelect packet packetLength next b (bLen - write)
        else return b
      else if 0 < bLen then copyFieldsSelect packet packetLength next b bLen
      else .ret b

/-- `copyFields_Select_reverse`: offsets count from the end of the packet. -/
def copyFieldsSelectReverse (packet packetLength : Nat) :
    List RangeSelect → Buffer → Nat → Reader Buffer
  | [], b, _ => .ret b
  | range :: next, b, bLen =>
      let write := range.offset
      if ¬ packetLength < write then do
        let write := clip write range.length bLen
        let b ← appendPacket b (packet + (packetLength - range.offset)) write
        if 0 < bLen - write then
          copyFieldsSelectReverse packet packetLength next b (bLen - write)
        else return b
      else if 0 < bLen then copyFieldsSelectReverse packet packetLength next b bLen
      else .ret b

def copyFieldsLast (rSel : List RangeSelect) (len : Nat) (buffer : Buffer) :
    Reader Buffer :=
  copyFieldsSelectReverse 0 (u16 len) rSel buffer.reset (u16 buffer.size)

def copyFieldsRaw (rSel : List RangeSelect) (len : Nat) (buffer : Buffer) :
    Reader Buffer :=
  copyFieldsSelect 0 (u16 len) rSel buffer.reset (u16 buffer.size)

/-- The ranges counted from one layer, when the packet has it. -/
def copyFieldsLayer (rSel : List RangeSelect) (len : Nat) (buffer : Buffer)
    (layerOffset : Nat) : Reader Buffer :=
  if layerOffset = absent then .ret buffer
  else copyFieldsSelect layerOffset (u16 (subU32 len layerOffset)) rSel
    buffer.reset (u16 buffer.size)

def copyFieldsLink (rSel : List RangeSelect) (len : Nat) (buffer : Buffer)
    (headerOffset : HeaderOffset) : Reader Buffer :=
  copyFieldsLayer rSel len buffer headerOffset.link

def copyFieldsNet (rSel : List RangeSelect) (len : Nat) (buffer : Buffer)
    (headerOffset : HeaderOffset) : Reader Buffer :=
  copyFieldsLayer rSel len buffer headerOffset.net

def copyFieldsTrans (rSel : List RangeSelect) (len : Nat) (buffer : Buffer)
    (headerOffset : HeaderOffset) : Reader Buffer :=
  copyFieldsLayer rSel len buffer headerOffset.trans

def copyFieldsPayload (rSel : List RangeSelect) (len : Nat) (buffer : Buffer)
    (headerOffset : HeaderOffset) : Reader Buffer :=
  copyFieldsLayer rSel len buffer headerOffset.payload

/-- Call through the `selection_function` pointer. -/
def selectionFunction (f : SelectionFunction) (rSel : List RangeSelect) (len : Nat)
    (buffer : Buffer) (headerOffset : HeaderOffset) (layers : Layers) :
    Reader Buffer :=
  match f with
  | .rec8 => copyFieldsRec buffer headerOffset layers
  | .onlyNet => copyFieldsOnlyNet buffer headerOffset layers
  | .uTcpAndNet => copyFieldsUTcpAndNet len buffer headerOffset layers
  | .packet => copyFieldsPacket len buffer headerOffset layers
  | .raw => copyFieldsRaw rSel len buffer
  | .last => copyFieldsLast rSel len buffer
  | .link => copyFieldsLink rSel len buffer headerOffset
  | .net => copyFieldsNet rSel len buffer headerOffset
  | .trans => copyFieldsTrans rSel len buffer headerOffset
  | .payload => copyFieldsPayload rSel len buffer headerOffset

end Impd4e.Hash
