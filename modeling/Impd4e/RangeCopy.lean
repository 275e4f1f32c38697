import Impd4e.FieldMap

/-! # What a chain of ranges copies

    `copyFields_Select` as positions: a node of offset and length copies a run
    of packet positions, a chain the runs of its nodes one behind the other, and
    a buffer takes as many of them as fit. -/

namespace Impd4e.RangeCopy

open ReadProg Impd4e.Hash Impd4e.FieldMap

variable {β : Type}

/-- The positions a node makes `copyFields_Select` copy.  The length 0 stands
    for "to the end of the packet". -/
def copiedNode (len : Nat) (range : RangeSelect) : List Nat :=
  List.range' range.offset
    (if range.length = 0 then len - range.offset else min (len - range.offset) range.length)

def copied (len : Nat) (rSel : List RangeSelect) : List Nat :=
  rSel.flatMap (copiedNode len)

/-- Behind the end of the packet a node copies nothing. -/
theorem copiedNode_behind {len : Nat} {range : RangeSelect} (h : len ≤ range.offset) :
    copiedNode len range = [] := by
  have hzero : len - range.offset = 0 := Nat.sub_eq_zero_of_le h
  rw [copiedNode, hzero, Nat.zero_min, ite_self]
  rfl

theorem copied_lt {len : Nat} {rSel : List RangeSelect} : ∀ p ∈ copied len rSel, p < len := by
  intro p hp
  obtain ⟨range, -, hp⟩ := List.mem_flatMap.mp hp
  obtain ⟨hge, hlt⟩ := List.mem_range'_1.mp hp
  split at hlt
  · omega
  · omega

theorem take_range' (start count n : Nat) :
    (List.range' start count).take n = List.range' start (min count n) := by
  rcases Nat.le_total count n with h | h
  · rw [List.take_range'_of_length_le h, Nat.min_eq_left h]
  · rw [List.take_range'_of_length_ge h, Nat.min_eq_right h]

/-- The pieces of a chain stay inside the packet. -/
theorem rangePieces_inside (len : Nat) (rSel : List RangeSelect) :
    ∀ bLen, ∀ p ∈ rangePieces 0 len rSel bLen, p.1 + p.2 ≤ len := by
  induction rSel with
  | nil => exact fun _ _ hp => absurd hp List.not_mem_nil
  | cons range next ih =>
      intro bLen p hp
      rw [rangePieces] at hp
      by_cases hw : 0 < len - range.offset
      · simp only [if_pos hw] at hp
        have hclip : clip (len - range.offset) range.length bLen ≤ len - range.offset := by
          rw [clip]
          split
          · exact Nat.min_le_left _ _
          · exact Nat.le_trans (Nat.min_le_left _ _) (Nat.min_le_left _ _)
        rcases List.mem_cons.mp hp with rfl | hp
        · show 0 + range.offset + clip _ _ _ ≤ len
          omega
        · split at hp
          · exact ih _ p hp
          · exact absurd hp List.not_mem_nil
      · simp only [if_neg hw] at hp
        split at hp
        · exact ih _ p hp
        · exact absurd hp List.not_mem_nil

/-- The pieces hold the positions of the nodes, up to the size of the buffer. -/
theorem rangePieces_positions (len : Nat) (rSel : List RangeSelect) :
    ∀ bLen, (rangePieces 0 len rSel bLen).flatMap (fun p => List.range' p.1 p.2)
      = (copied len rSel).take bLen := by
  induction rSel with
  | nil => exact fun bLen => List.take_nil.symm
  | cons range next ih =>
      intro bLen
      have hcopied : copied len (range :: next) = copiedNode len range ++ copied len next := rfl
      rw [rangePieces, hcopied]
      by_cases hw : 0 < len - range.offset
      · simp only [if_pos hw, List.flatMap_cons]
        -- the node clips its run to the packet, its length and the buffer, in this order
        have hhead : List.range' (0 + range.offset) (clip (len - range.offset) range.length bLen)
            = (copiedNode len range).take bLen := by
          rw [copiedNode, take_range', Nat.zero_add]
          rfl
        have hlength : bLen - clip (len - range.offset) range.length bLen
            = bLen - (copiedNode len range).length := by
          rw [copiedNode, List.length_range', clip]
          omega
        rw [hhead, List.take_append, hlength]
        refine congrArg ((copiedNode len range).take bLen ++ ·) ?_
        -- the next node is reached only while there is room
        by_cases hb : 0 < bLen - (copiedNode len range).length
        · rw [if_pos hb]
          exact ih _
        · rw [if_neg hb, Nat.eq_zero_of_not_pos hb, List.take_zero]
          rfl
      -- a node behind the packet is skipped, and the chain goes on
      · rw [copiedNode_behind (Nat.sub_eq_zero_iff_le.mp (Nat.eq_zero_of_not_pos hw)),
          List.nil_append]
        simp only [if_neg hw]
        by_cases hb : 0 < bLen
        · rw [if_pos hb]
          exact ih bLen
        · rw [if_neg hb, Nat.eq_zero_of_not_pos hb, List.take_zero]
          rfl

/-- A slice of a packet, byte by byte. -/
theorem slice_eq (l : List UInt8) :
    ∀ count start, start + count ≤ l.length →
      (l.drop start).take count = (List.range' start count).map (fun p => l.getD p 0) := by
  intro count
  induction count with
  | zero => intro start _; exact List.take_zero
  | succ count ih =>
      intro start h
      have hlt : start < l.length := by omega
      rw [List.drop_eq_getElem_cons hlt, List.take_succ_cons, ih (start + 1) (by omega),
        List.range'_succ, List.map_cons, List.getD_eq_getElem?_getD,
        List.getElem?_eq_getElem hlt]
      rfl

/-- The bytes of the pieces are those at the positions the chain copies. -/
theorem rangePieces_bytes (packet : List UInt8) (rSel : List RangeSelect) (bLen : Nat) :
    (rangePieces 0 packet.length rSel bLen).flatMap (fun p => (packet.drop p.1).take p.2)
      = ((copied packet.length rSel).take bLen).map fun p => packet.getD p 0 := by
  have hpieces := rangePieces_inside packet.length rSel bLen
  rw [← rangePieces_positions, List.map_flatMap]
  refine List.flatMap_congr ?_
  intro p hp
  exact slice_eq packet p.2 p.1 (hpieces p hp)

/-- `copyFields_Select` over the bytes of a packet. -/
theorem run_copyFieldsSelect (packet : List UInt8) (rSel : List RangeSelect) (b : Buffer)
    (bLen : Nat) :
    run (ofList packet) (copyFieldsSelect 0 packet.length rSel b bLen)
      = .ok (b.append (((copied packet.length rSel).take bLen).map fun p => packet.getD p 0)) := by
  have hpieces := rangePieces_inside packet.length rSel bLen
  rw [copyFieldsSelect_eq, fill, run_bind_ok _ (run_blocks packet _ hpieces), rangePieces_bytes]
  rfl

/-- **RANGE COPY** — on the bytes of a packet `copyFields_Raw` leaves the bytes
    at the positions its chain copies, as many as fit, and reads no other. -/
theorem run_copyFieldsRaw (packet : List UInt8) (hlen : packet.length ≤ 65535)
    (rSel : List RangeSelect) (buffer : Buffer) :
    run (ofList packet) (copyFieldsRaw rSel packet.length buffer)
      = .ok (buffer.reset.append
          (((copied packet.length rSel).take (u16 buffer.size)).map fun p =>
            packet.getD p 0)) := by
  have hu16 : u16 packet.length = packet.length := u16_of_lt (by omega)
  rw [copyFieldsRaw, hu16]
  exact run_copyFieldsSelect packet rSel buffer.reset (u16 buffer.size)

/-! ## Slices of the packet -/

/-- `packet[offset .. min(L, offset + length))`, to the end for the length 0. -/
def slice (packet : List UInt8) (range : RangeSelect) : List UInt8 :=
  let stop :=
    if range.length = 0 then packet.length else min packet.length (range.offset + range.length)
  (packet.take stop).drop range.offset

/-- What a chain selects of a packet. -/
def selected (packet : List UInt8) (rSel : List RangeSelect) : List UInt8 :=
  rSel.flatMap (slice packet)

/-- The slice of a node holds the bytes at the positions of the node. -/
theorem slice_eq_map (packet : List UInt8) (range : RangeSelect) :
    slice packet range = (copiedNode packet.length range).map fun p => packet.getD p 0 := by
  rw [slice, copiedNode, List.drop_take]
  by_cases hbehind : packet.length ≤ range.offset
  · rw [List.drop_eq_nil_of_le hbehind, List.take_nil, Nat.sub_eq_zero_of_le hbehind,
      Nat.zero_min, ite_self]
    rfl
  · by_cases hzero : range.length = 0
    · rw [if_pos hzero, if_pos hzero]
      exact slice_eq packet _ _ (by omega)
    · rw [if_neg hzero, if_neg hzero]
      have hcount : min packet.length (range.offset + range.length) - range.offset
          = min (packet.length - range.offset) range.length := by omega
      rw [hcount]
      exact slice_eq packet _ _ (by omega)

theorem selected_eq_map (packet : List UInt8) (rSel : List RangeSelect) :
    selected packet rSel = (copied packet.length rSel).map fun p => packet.getD p 0 := by
  rw [selected, copied, List.map_flatMap]
  exact List.flatMap_congr fun range _ => slice_eq_map packet range

/-! ## Counting from the end -/

/-- The chain whose offsets count from the front, where `rSel` counts from the
    end; nodes that start before the packet are dropped. -/
def mirrored (packetLength : Nat) (rSel : List RangeSelect) : List RangeSelect :=
  rSel.filterMap fun range =>
    if range.offset ≤ packetLength then
      some { range with offset := packetLength - range.offset }
    else none

theorem mirrored_cons_inside {packetLength : Nat} {range : RangeSelect}
    (h : range.offset ≤ packetLength) (next : List RangeSelect) :
    mirrored packetLength (range :: next)
      = ⟨packetLength - range.offset, range.length⟩ :: mirrored packetLength next :=
  List.filterMap_cons_some (if_pos h)

theorem mirrored_cons_outside {packetLength : Nat} {range : RangeSelect}
    (h : ¬ range.offset ≤ packetLength) (next : List RangeSelect) :
    mirrored packetLength (range :: next) = mirrored packetLength next :=
  List.filterMap_cons_none (if_neg h)

/-- With no room left nothing is copied. -/
theorem copyFieldsSelect_full (packet packetLength : Nat) (rSel : List RangeSelect)
    (b : Buffer) : copyFieldsSelect packet packetLength rSel b 0 = .ret b := by
  cases rSel with
  | nil => rfl
  | cons range next =>
      rw [copyFieldsSelect]
      by_cases hw : 0 < packetLength - range.offset
      · simp only [if_pos hw]
        rw [clip, Nat.min_zero]
        show ReadProg.ret (b.append []) = .ret b
        rw [Buffer.append_nil]
      · simp only [if_neg hw]
        rw [if_neg (Nat.lt_irrefl 0)]

/-- **BACKWARD IS FORWARD** — the two loops clip differently, and read the same
    bytes in the same order once the offsets are mirrored. -/
theorem copyFieldsSelectReverse_mirrored (packet packetLength : Nat) :
    ∀ (rSel : List RangeSelect) (b : Buffer) (bLen : Nat),
      copyFieldsSelectReverse packet packetLength rSel b bLen
        = copyFieldsSelect packet packetLength (mirrored packetLength rSel) b bLen := by
  intro rSel
  induction rSel with
  | nil => exact fun _ _ => rfl
  | cons range next ih =>
      intro b bLen
      rw [copyFieldsSelectReverse]
      by_cases hin : range.offset ≤ packetLength
      · simp only [if_pos (Nat.not_lt.mpr hin)]
        rw [mirrored_cons_inside hin, copyFieldsSelect]
        have havail : packetLength - (packetLength - range.offset) = range.offset := by omega
        simp only [havail]
        by_cases hw : 0 < range.offset
        · simp only [if_pos hw, ih]
        -- offset 0: nothing is left behind the end, and the reverse loop copies 0 bytes
        · obtain hzero : range.offset = 0 := Nat.eq_zero_of_not_pos hw
          have hclip : clip range.offset range.length bLen = 0 := by
            rw [hzero, clip, Nat.zero_min, ite_self, Nat.zero_min]
          simp only [if_neg hw, hclip, Nat.sub_zero, ih]
          show (if 0 < bLen then copyFieldsSelect packet packetLength _ (b.append []) bLen
            else .ret (b.append [])) = _
          rw [Buffer.append_nil]
      · simp only [if_neg (fun h : ¬ packetLength < range.offset => hin (Nat.le_of_not_lt h))]
        rw [mirrored_cons_outside hin]
        by_cases hb : 0 < bLen
        · rw [if_pos hb, ih]
        · rw [if_neg hb, Nat.eq_zero_of_not_pos hb, copyFieldsSelect_full]

/-! ## Counting from a base -/

/-- Another packet pointer moves the pieces. -/
theorem rangePieces_base (base len : Nat) (rSel : List RangeSelect) :
    ∀ bLen, rangePieces base len rSel bLen
      = (rangePieces 0 len rSel bLen).map fun p => (base + p.1, p.2) := by
  induction rSel with
  | nil => exact fun _ => rfl
  | cons range next ih =>
      intro bLen
      rw [rangePieces, rangePieces]
      by_cases hw : 0 < len - range.offset
      · simp only [if_pos hw, List.map_cons, Nat.zero_add]
        refine congrArg ((base + range.offset, _) :: ·) ?_
        split
        · exact ih _
        · rfl
      · simp only [if_neg hw]
        split
        · exact ih _
        · rfl

/-- From a base on, `len` bytes are all that `copyFields_Select` sees. -/
theorem run_copyFieldsSelect_base (memory : List UInt8) {base len : Nat}
    (h : base + len ≤ memory.length) (rSel : List RangeSelect) (b : Buffer) (bLen : Nat) :
    run (ofList memory) (copyFieldsSelect base len rSel b bLen)
      = .ok (b.append ((selected ((memory.drop base).take len) rSel).take bLen)) := by
  have hlen : ((memory.drop base).take len).length = len := by
    rw [List.length_take, List.length_drop]
    omega
  have hinside := rangePieces_inside len rSel bLen
  have hpieces : ∀ p ∈ rangePieces base len rSel bLen, p.1 + p.2 ≤ memory.length := by
    intro p hp
    rw [rangePieces_base] at hp
    obtain ⟨q, hq, rfl⟩ := List.mem_map.mp hp
    have hle := hinside q hq
    show base + q.1 + q.2 ≤ memory.length
    omega
  have hbytes : (rangePieces base len rSel bLen).flatMap
        (fun p => (memory.drop p.1).take p.2)
      = (selected ((memory.drop base).take len) rSel).take bLen := by
    rw [selected_eq_map, ← List.map_take, ← rangePieces_bytes, hlen, rangePieces_base,
      List.flatMap_map]
    refine List.flatMap_congr ?_
    intro q hq
    have hle := hinside q hq
    show (memory.drop (base + q.1)).take q.2
      = (((memory.drop base).take len).drop q.1).take q.2
    rw [List.drop_take, List.take_take, List.drop_drop, Nat.min_eq_left (by omega)]
  rw [copyFieldsSelect_eq, fill, run_bind_ok _ (run_blocks memory _ hpieces), hbytes]
  rfl

/-! ## Both directions -/

/-- The buffer `r` is `b` with as many of the bytes as fit into `bLen`: no other
    byte of it has changed, and none was written at `bLen` or behind. -/
structure Copies (bytes : List UInt8) (bLen : Nat) (b r : Buffer) : Prop where
  contents : r.contents = bytes.take bLen
  len : r.len = (bytes.take bLen).length
  len_le : r.len ≤ bLen
  written : r.written = max b.written r.len
  unchanged : r.ptr.drop r.len = b.ptr.drop r.len

theorem copies_append (bytes : List UInt8) (bLen : Nat) (b : Buffer) :
    Copies bytes bLen b (b.reset.append (bytes.take bLen)) where
  contents := by rw [Buffer.append_contents, Buffer.reset_contents, List.nil_append]
  len := Nat.zero_add _
  len_le := by
    show 0 + (bytes.take bLen).length ≤ bLen
    rw [Nat.zero_add, List.length_take]
    exact Nat.min_le_left _ _
  written := rfl
  unchanged := by
    show (b.ptr.take 0 ++ bytes.take bLen ++ b.ptr.drop (0 + (bytes.take bLen).length)).drop
        (0 + (bytes.take bLen).length) = b.ptr.drop (0 + (bytes.take bLen).length)
    rw [List.take_zero, List.nil_append, Nat.zero_add, List.drop_left]

theorem run_copyFieldsSelect_copies (packet : List UInt8) (rSel : List RangeSelect)
    (b : Buffer) (bLen : Nat) :
    ∃ r, run (ofList packet) (copyFieldsSelect 0 packet.length rSel b.reset bLen) = .ok r ∧
      Copies (selected packet rSel) bLen b r := by
  refine ⟨_, run_copyFieldsSelect packet rSel b.reset bLen, ?_⟩
  rw [List.map_take, ← selected_eq_map]
  exact copies_append _ bLen b

/-- **FORWARD AND BACKWARD** — both loops read nothing but the packet and leave
    the slices of the chain, cut to the buffer; backward, the chain is the
    mirrored one, and the result that of the forward loop on it. -/
theorem copyFieldsSelect_both (packet : List UInt8) (rSel : List RangeSelect) (b : Buffer)
    (bLen : Nat) :
    (∃ r, run (ofList packet) (copyFieldsSelect 0 packet.length rSel b.reset bLen) = .ok r ∧
      Copies (selected packet rSel) bLen b r) ∧
    ∃ r, run (ofList packet) (copyFieldsSelectReverse 0 packet.length rSel b.reset bLen)
        = .ok r ∧
      run (ofList packet) (copyFieldsSelect 0 packet.length
        (mirrored packet.length rSel) b.reset bLen) = .ok r ∧
      Copies (selected packet (mirrored packet.length rSel)) bLen b r := by
  refine ⟨run_copyFieldsSelect_copies packet rSel b bLen, ?_⟩
  obtain ⟨r, hrun, hcopies⟩ :=
    run_copyFieldsSelect_copies packet (mirrored packet.length rSel) b bLen
  refine ⟨r, ?_, hrun, hcopies⟩
  rw [copyFieldsSelectReverse_mirrored]
  exact hrun

/-- The last two bytes, and the first of the last three. -/
example : selected [1, 2, 3, 4, 5] (mirrored 5 [⟨2, 0⟩, ⟨9, 0⟩, ⟨3, 1⟩]) = [4, 5, 3] := by decide

end Impd4e.RangeCopy
