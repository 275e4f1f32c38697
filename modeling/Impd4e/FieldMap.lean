import Impd4e.PacketHandler

/-! # Which bytes a selection function copies

    Every `copyFields_*` function appends blocks of the packet to the buffer,
    and which blocks these are depends on the offsets, the layers and the two
    lengths only, never on what the buffer or the packet holds.  `pieces` lists
    them, as addresses and counts; `selectionFunction_eq` says that the code
    copies exactly these, in this order.

    So everything the selection stage hands on is the result of a program that
    never sees the buffer, `observe`, and of the buffer only the size counts. -/

namespace Impd4e.FieldMap

open ReadProg Impd4e.Hash Impd4e.PacketHandler

/-- Blocks of a packet: address and number of bytes. -/
abbrev Pieces := List (Nat × Nat)

/-! ## The pieces of each function -/

def netPieces (headerOffset : HeaderOffset) : NetProt → Pieces
  | .ip => [(headerOffset.net, 8), (headerOffset.net + 9, 1), (headerOffset.net + 12, 8)]
  | .ip6 => [(headerOffset.net, 7), (headerOffset.net + 8, 32)]
  | .unknown => []

def recTransPieces (trans : Nat) (proto : UInt8) : Pieces :=
  if proto = tTcp then [(trans + 6, 2), (trans + 10, 2), (trans + 16, 2)]
  else if proto = tUdp then [(trans, 2), (trans + 3, 1), (trans + 5, 3)]
  else if proto = tIcmp ∨ proto = tIcmp6 then [(trans + 2, 2), (trans + 12, 4)]
  else []

def recPieces (headerOffset : HeaderOffset) (layers : Layers) : Pieces :=
  if hasTransport headerOffset layers ∧ layers.net = .ip then
    (headerOffset.net + 4, 2) :: recTransPieces headerOffset.trans layers.trans
  else []

def transPieces (len trans : Nat) (proto : UInt8) : Pieces :=
  if proto = tTcp ∨ proto = tIcmp ∨ proto = tIcmp6 then [(trans, min 20 (subU32 len trans))]
  else if proto = tUdp then [(trans, min 8 (subU32 len trans))]
  else []

def uTcpAndNetPieces (len : Nat) (headerOffset : HeaderOffset) (layers : Layers) :
    Pieces :=
  netPieces headerOffset layers.net ++
    if hasTransport headerOffset layers then
      transPieces len headerOffset.trans layers.trans
    else []

def packetPieces (len : Nat) (headerOffset : HeaderOffset) (layers : Layers) : Pieces :=
  netPieces headerOffset layers.net ++ [(headerOffset.net + 20, min (subU32 len 20) 50)]

/-- The pieces of a range chain, until the buffer is full. -/
def rangePieces (packet packetLength : Nat) : List RangeSelect → Nat → Pieces
  | [], _ => []
  | range :: next, bLen =>
      let write := packetLength - range.offset
      if 0 < write then
        let write := clip write range.length bLen
        (packet + range.offset, write) ::
          if 0 < bLen - write then rangePieces packet packetLength next (bLen - write)
          else []
      else if 0 < bLen then rangePieces packet packetLength next bLen
      else []

def rangePiecesReverse (packet packetLength : Nat) : List RangeSelect → Nat → Pieces
  | [], _ => []
  | range :: next, bLen =>
      if ¬ packetLength < range.offset then
        let write := clip range.offset range.length bLen
        (packet + (packetLength - range.offset), write) ::
          if 0 < bLen - write then
            rangePiecesReverse packet packetLength next (bLen - write)
          else []
      else if 0 < bLen then rangePiecesReverse packet packetLength next bLen
      else []

def layerPieces (rSel : List RangeSelect) (len size layerOffset : Nat) : Pieces :=
  if layerOffset = absent then []
  else rangePieces layerOffset (u16 (subU32 len layerOffset)) rSel (u16 size)

/-- The bytes each selection function copies. -/
def pieces (f : SelectionFunction) (rSel : List RangeSelect) (len size : Nat)
    (headerOffset : HeaderOffset) (layers : Layers) : Pieces :=
  match f with
  | .rec8 => recPieces headerOffset layers
  | .onlyNet => netPieces headerOffset layers.net
  | .uTcpAndNet => uTcpAndNetPieces len headerOffset layers
  | .packet => packetPieces len headerOffset layers
  | .raw => rangePieces 0 (u16 len) rSel (u16 size)
  | .last => rangePiecesReverse 0 (u16 len) rSel (u16 size)
  | .link => layerPieces rSel len size headerOffset.link
  | .net => layerPieces rSel len size headerOffset.net
  | .trans => layerPieces rSel len size headerOffset.trans
  | .payload => layerPieces rSel len size headerOffset.payload

/-- The selection functions without ranges. -/
def Preset (f : SelectionFunction) : Prop :=
  f = .rec8 ∨ f = .onlyNet ∨ f = .uTcpAndNet ∨ f = .packet

/-- A preset neither knows the ranges nor asks for the size of the buffer. -/
theorem pieces_preset {f : SelectionFunction} (hf : Preset f)
    (rSel rSel' : List RangeSelect) (len size size' : Nat) (headerOffset : HeaderOffset)
    (layers : Layers) :
    pieces f rSel len size headerOffset layers
      = pieces f rSel' len size' headerOffset layers := by
  rcases hf with rfl | rfl | rfl | rfl
  · rfl
  · rfl
  · rfl
  · rfl

/-- Does the buffer keep what was copied?  `copyFields_U_TCP_and_Net` takes it
    back when the packet has no transport header. -/
def keeps (f : SelectionFunction) (headerOffset : HeaderOffset) (layers : Layers) :
    Bool :=
  match f with
  | .uTcpAndNet => hasTransport headerOffset layers
  | _ => true

/-! ## Filling a buffer with pieces -/

/-- Append the bytes of some pieces to a buffer. -/
def fill (b : Buffer) (ps : Pieces) : Reader Buffer :=
  (blocks ps).bind (fun bytes => .ret (b.append bytes))

theorem fill_nil (b : Buffer) : fill b [] = .ret b := by
  show ReadProg.ret (b.append []) = .ret b
  rw [Buffer.append_nil]

theorem appendPacket_eq (b : Buffer) (p count : Nat) :
    appendPacket b p count = fill b [(p, count)] := by
  show _ = ((block p count).bind _).bind _
  rw [bind_assoc]
  refine congrArg _ (funext fun bytes => ?_)
  show _ = ReadProg.ret (b.append (bytes ++ []))
  rw [List.append_nil]
  rfl

/-- Filling twice in a row is filling with all the pieces. -/
theorem fill_fill (b : Buffer) (ps qs : Pieces) :
    (fill b ps).bind (fun b => fill b qs) = fill b (ps ++ qs) := by
  rw [fill, fill, blocks_append, bind_assoc, bind_assoc]
  refine congrArg _ (funext fun bytes => ?_)
  rw [ret_bind, fill, bind_assoc]
  refine congrArg _ (funext fun bytes' => ?_)
  rw [ret_bind, Buffer.append_append]

theorem appendPacket_bind (b : Buffer) (p count : Nat) (qs : Pieces) :
    (appendPacket b p count).bind (fun b => fill b qs) = fill b ((p, count) :: qs) := by
  rw [appendPacket_eq, fill_fill]
  rfl

/-! ## Each function copies its pieces -/

variable (b : Buffer) (headerOffset : HeaderOffset) (layers : Layers)

theorem copyNetFields_eq :
    copyNetFields b headerOffset layers = fill b (netPieces headerOffset layers.net) := by
  unfold copyNetFields netPieces
  cases layers.net with
  | unknown => exact (fill_nil b).symm
  | ip => simp only [bind_eq, appendPacket_eq, fill_fill, List.cons_append, List.nil_append]
  | ip6 => simp only [bind_eq, appendPacket_eq, fill_fill, List.cons_append, List.nil_append]

theorem copyFieldsRec_eq :
    copyFieldsRec b headerOffset layers = fill b (recPieces headerOffset layers) := by
  rw [copyFieldsRec, recPieces]
  by_cases h : hasTransport headerOffset layers ∧ layers.net = .ip
  · rw [if_pos h, if_pos h, ← appendPacket_bind]
    refine congrArg _ (funext fun b => ?_)
    rw [recTransPieces]
    split
    · simp only [bind_eq, appendPacket_eq, fill_fill, List.cons_append, List.nil_append]
    split
    · simp only [bind_eq, appendPacket_eq, fill_fill, List.cons_append, List.nil_append]
    split
    · simp only [bind_eq, appendPacket_eq, fill_fill, List.cons_append, List.nil_append]
    · exact (fill_nil b).symm
  · rw [if_neg h, if_neg h, fill_nil]

/-- Without a transport header the buffer is filled all the same, and emptied. -/
theorem copyFieldsUTcpAndNet_eq (len : Nat) :
    copyFieldsUTcpAndNet len b headerOffset layers
      = (fill b (uTcpAndNetPieces len headerOffset layers)).bind (fun b =>
          .ret (if hasTransport headerOffset layers then b else b.reset)) := by
  rw [copyFieldsUTcpAndNet, uTcpAndNetPieces]
  rw [← fill_fill, bind_assoc, bind_eq, copyNetFields_eq]
  refine congrArg _ (funext fun b => ?_)
  by_cases h : hasTransport headerOffset layers
  · simp only [if_pos h]
    rw [bind_ret]
    rw [transPieces]
    split
    · exact appendPacket_eq ..
    split
    · exact appendPacket_eq ..
    · exact (fill_nil b).symm
  · simp only [if_neg h]
    rw [fill_nil]
    rfl

theorem copyFieldsPacket_eq (len : Nat) :
    copyFieldsPacket len b headerOffset layers
      = fill b (packetPieces len headerOffset layers) := by
  rw [copyFieldsPacket, packetPieces]
  rw [← fill_fill, bind_eq, copyNetFields_eq]
  exact congrArg _ (funext fun b => appendPacket_eq ..)

theorem copyFieldsSelect_eq (packet packetLength : Nat) :
    ∀ (rSel : List RangeSelect) (b : Buffer) (bLen : Nat),
      copyFieldsSelect packet packetLength rSel b bLen
        = fill b (rangePieces packet packetLength rSel bLen) := by
  intro rSel
  induction rSel with
  | nil => exact fun b _ => (fill_nil b).symm
  | cons range next ih =>
      intro b bLen
      rw [copyFieldsSelect, rangePieces]
      by_cases hw : 0 < packetLength - range.offset
      · simp only [if_pos hw]
        rw [← appendPacket_bind]
        refine congrArg _ (funext fun b => ?_)
        by_cases hb : 0 < bLen - clip (packetLength - range.offset) range.length bLen
        · rw [if_pos hb, if_pos hb, ih]
        · rw [if_neg hb, if_neg hb, fill_nil]
          rfl
      · simp only [if_neg hw]
        by_cases hb : 0 < bLen
        · rw [if_pos hb, if_pos hb, ih]
        · rw [if_neg hb, if_neg hb, fill_nil]

theorem copyFieldsSelectReverse_eq (packet packetLength : Nat) :
    ∀ (rSel : List RangeSelect) (b : Buffer) (bLen : Nat),
      copyFieldsSelectReverse packet packetLength rSel b bLen
        = fill b (rangePiecesReverse packet packetLength rSel bLen) := by
  intro rSel
  induction rSel with
  | nil => exact fun b _ => (fill_nil b).symm
  | cons range next ih =>
      intro b bLen
      rw [copyFieldsSelectReverse, rangePiecesReverse]
      by_cases hw : ¬ packetLength < range.offset
      · simp only [if_pos hw]
        rw [← appendPacket_bind]
        refine congrArg _ (funext fun b => ?_)
        by_cases hb : 0 < bLen - clip range.offset range.length bLen
        · rw [if_pos hb, if_pos hb, ih]
        · rw [if_neg hb, if_neg hb, fill_nil]
          rfl
      · simp only [if_neg hw]
        by_cases hb : 0 < bLen
        · rw [if_pos hb, if_pos hb, ih]
        · rw [if_neg hb, if_neg hb, fill_nil]

theorem copyFieldsLayer_eq (rSel : List RangeSelect) (len layerOffset : Nat) :
    copyFieldsLayer rSel len b.reset layerOffset
      = fill b.reset (layerPieces rSel len b.size layerOffset) := by
  rw [copyFieldsLayer, layerPieces]
  by_cases h : layerOffset = absent
  · rw [if_pos h, if_pos h, fill_nil]
  · rw [if_neg h, if_neg h, copyFieldsSelect_eq]
    rfl

/-- **THE FIELD MAP**: on an emptied buffer a selection function copies its
    pieces, and keeps them or empties the buffer again. -/
theorem selectionFunction_eq (f : SelectionFunction) (rSel : List RangeSelect)
    (len : Nat) :
    selectionFunction f rSel len b.reset headerOffset layers
      = (blocks (pieces f rSel len b.size headerOffset layers)).bind (fun bytes =>
          .ret (if keeps f headerOffset layers then b.reset.append bytes
            else (b.reset.append bytes).reset)) := by
  cases f with
  | rec8 => exact copyFieldsRec_eq ..
  | onlyNet => exact copyNetFields_eq ..
  | uTcpAndNet =>
      show copyFieldsUTcpAndNet .. = _
      rw [copyFieldsUTcpAndNet_eq, fill, bind_assoc]
      rfl
  | packet => exact copyFieldsPacket_eq ..
  | raw => exact copyFieldsSelect_eq ..
  | last => exact copyFieldsSelectReverse_eq ..
  | link => exact copyFieldsLayer_eq ..
  | net => exact copyFieldsLayer_eq ..
  | trans => exact copyFieldsLayer_eq ..
  | payload => exact copyFieldsLayer_eq ..

/-! ## What the selection stage hands on -/

/-- The hash input, the headers found, and the decision. -/
structure Observation where
  contents : List UInt8
  offsets : HeaderOffset
  layers : Layers
  decision : Decision

/-- All of a `Selection` but the rest of the buffer. -/
def observation (s : Selection) : Observation :=
  ⟨s.buffer.contents, s.offsets, s.layers, s.decision⟩

/-- The selection stage without a buffer, for one of `size` bytes. -/
def observe (o : Options) (size len : Nat) : Reader Observation :=
  (findHeaders (u16 len) zeroOffsets zeroLayers).bind (fun r =>
    (blocks (pieces o.selectionFunction o.rSel len size r.1 r.2)).bind (fun bytes =>
      let contents := if keeps o.selectionFunction r.1 r.2 then bytes else []
      .ret ⟨contents, r.1, r.2, rangeTest o contents⟩))

theorem selectPacket_observe (o : Options) (len : Nat) :
    (selectPacket o b len).bind (fun s => .ret (observation s)) = observe o b.size len := by
  show (((findHeaders _ _ _).bind _).bind _).bind _ = _
  rw [bind_assoc, bind_assoc, observe]
  refine congrArg _ (funext fun r => ?_)
  obtain ⟨headerOffset, layers⟩ := r
  show ((selectionFunction _ _ _ _ _ _).bind _).bind _ = _
  rw [bind_assoc, selectionFunction_eq, bind_assoc]
  refine congrArg _ (funext fun bytes => ?_)
  show ReadProg.ret (Observation.mk _ _ _ _) = _
  by_cases hk : keeps o.selectionFunction headerOffset layers
  · simp only [if_pos hk, Buffer.append_contents, Buffer.reset_contents, List.nil_append]
  · simp only [if_neg hk, Buffer.reset_contents]

/-- **OLD BUFFER CONTENTS DO NOT MATTER**: what a run of the selection stage
    hands on depends on the size of the buffer only. -/
theorem run_observe (m : Nat → Option UInt8) (o : Options) (len : Nat) :
    (run m (selectPacket o b len)).map observation = run m (observe o b.size len) := by
  rw [← selectPacket_observe, run_map]

/-- The hash input alone. -/
def hashInput (f : SelectionFunction) (rSel : List RangeSelect) (size len : Nat) :
    Reader (List UInt8) :=
  (findHeaders (u16 len) zeroOffsets zeroLayers).bind (fun r =>
    (blocks (pieces f rSel len size r.1 r.2)).bind (fun bytes =>
      .ret (if keeps f r.1 r.2 then bytes else [])))

/-- The decision is the range test on the hash input. -/
theorem run_hashInput (m : Nat → Option UInt8) (o : Options) (len : Nat) :
    (run m (selectPacket o b len)).map (fun s => (s.buffer.contents, s.decision))
      = (run m (hashInput o.selectionFunction o.rSel b.size len)).map
          (fun bytes => (bytes, rangeTest o bytes)) := by
  have hprog : (observe o b.size len).bind (fun x => .ret (x.contents, x.decision))
      = (hashInput o.selectionFunction o.rSel b.size len).bind
          (fun bytes => .ret (bytes, rangeTest o bytes)) := by
    rw [observe, hashInput, bind_assoc, bind_assoc]
    refine congrArg _ (funext fun r => ?_)
    rw [bind_assoc, bind_assoc]
    rfl
  rw [run_map m (hashInput _ _ _ _), ← hprog, ← run_map, ← run_observe]
  cases run m (selectPacket o b len) with
  | error f => rfl
  | ok s => rfl

end Impd4e.FieldMap
