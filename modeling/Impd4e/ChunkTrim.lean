import Impd4e.Lib.Cut
import Impd4e.Lib.DownScan
import Impd4e.StreamSegments

/-! # The copy and trim of a chunk

    `connection_read` copies a chunk into an array of its own and clears the
    control characters at its end.  The loop has no lower bound: here the array
    lies on a stack of arbitrary bytes, and every index is recorded. -/

namespace Impd4e.Console

open Machine Impd4e.CString
open DownScan (Stop cleared)

variable {Cmd : Type}

/-- The stack from `msg` on, where the bytes are copied to its start. -/
def copied (bytes : List UInt8) (stack : Int → UInt8) : Int → UInt8 := fun i =>
  if i < 0 then stack i else bytes[i.toNat]?.getD (stack i)

/-- `connection_read` up to its message, on `char msg[len + 1]` at the index 0
    of the stack: `strncpy`, then at most `fuel` rounds of the `do … while`. -/
def connectionTrim (fuel : Nat) (chunk : List UInt8) (stack : Int → UInt8) :
    DownScan.Run UInt8 :=
  let len := chunk.length
  let trimmed := DownScan.run iscntrl 0 fuel (copied (strncpy chunk len) stack) len
  { trimmed with touched := ((List.range len).map fun i : Nat => (i : Int)) ++ trimmed.touched }

/-- The C string in `char msg[size]`. -/
def message (size : Nat) (mem : Int → UInt8) : CStr :=
  ((List.range size).map fun i : Nat => mem i).takeWhile (· ≠ 0)

/-- What a chunk says: its bytes up to the first NUL. -/
def chunkText (chunk : List UInt8) : CStr := chunk.takeWhile (· ≠ 0)

/-- **THE TRIM IS SAFE AND RIGHT** — it touches no index but those of `msg`, it
    ends, and it leaves the chunk's text without the control characters at its
    end. -/
structure TrimsInside (chunk : List UInt8) (stack : Int → UInt8) : Prop where
  inside : ∀ fuel, ∀ i ∈ (connectionTrim fuel chunk stack).touched,
    0 ≤ i ∧ i ≤ chunk.length
  ends : ∃ fuel, (connectionTrim fuel chunk stack).ended = true
  text : ∀ fuel, (connectionTrim fuel chunk stack).ended = true →
    message (chunk.length + 1) (connectionTrim fuel chunk stack).mem =
      (chunkText chunk).rdropWhile iscntrl

/-! ## The copy -/

theorem copied_get {bytes : List UInt8} (stack : Int → UInt8) {n : Nat}
    (h : n < bytes.length) : copied bytes stack n = bytes[n] := by
  rw [copied, if_neg (by omega), Int.toNat_natCast, List.getElem?_eq_getElem h,
    Option.getD_some]

/-- `strncpy` of a whole chunk: its text, and NULs up to its length. -/
theorem strncpy_chunk (chunk : List UInt8) :
    strncpy chunk chunk.length =
      chunkText chunk ++ List.replicate (chunk.length - (chunkText chunk).length) 0 := by
  rw [strncpy, List.take_length, chunkText]

theorem length_strncpy_chunk (chunk : List UInt8) :
    (strncpy chunk chunk.length).length = chunk.length := by
  have hle : (chunkText chunk).length ≤ chunk.length :=
    (List.takeWhile_prefix _).length_le
  rw [strncpy_chunk, List.length_append, List.length_replicate]
  omega

/-- The padding asks the loop to go on, like the control characters do. -/
theorem iscntrl_padding {n : Nat} : ∀ c ∈ List.replicate n (0 : UInt8), iscntrl c = true := by
  intro c hc
  rw [List.eq_of_mem_replicate hc]
  decide

/-- A character that stays, with nothing but control characters behind it, is
    where the loop stops. -/
theorem copied_stop {a b : List UInt8} {c : UInt8} (stack : Int → UInt8)
    (hc : iscntrl c = false) (hb : ∀ d ∈ b, iscntrl d = true) :
    Stop iscntrl (copied (a ++ c :: b) stack) a.length (a ++ c :: b).length := by
  have hlen : (a ++ c :: b).length = a.length + (b.length + 1) := by
    rw [List.length_append, List.length_cons]
  refine ⟨by omega, ?_, ?_⟩
  · rw [copied_get stack (by omega), List.getElem_append_right (Nat.le_refl _)]
    simp only [Nat.sub_self, List.getElem_cons_zero]
    exact hc
  · intro j hj hji
    obtain ⟨n, rfl⟩ := Int.eq_ofNat_of_zero_le (show 0 ≤ j by omega)
    obtain ⟨d, rfl⟩ := Nat.exists_eq_add_of_lt (show a.length < n by omega)
    have hn : a.length + d + 1 < (a ++ c :: b).length := by omega
    have hd : d < b.length := by omega
    have hget : (a ++ c :: b)[a.length + d + 1] = b[d] := by
      rw [List.getElem_append_right (by omega)]
      simp only [show a.length + d + 1 - a.length = d + 1 by omega, List.getElem_cons_succ]
    rw [copied_get stack hn, hget]
    exact hb _ (List.getElem_mem hd)

/-- The C string in memory is a text without NULs with a NUL behind it. -/
theorem message_eq {text : CStr} {size : Nat} {mem : Int → UInt8}
    (hplain : ∀ d ∈ text, d ≠ 0) (hget : ∀ n (h : n < text.length), mem n = text[n])
    (hnul : mem text.length = 0) (hsize : text.length < size) : message size mem = text := by
  obtain ⟨rest, rfl⟩ := Nat.exists_eq_add_of_lt hsize
  have hfront : (List.range text.length).map (fun i : Nat => mem i) = text := by
    refine List.ext_getElem (by rw [List.length_map, List.length_range]) ?_
    intro n hn hn'
    rw [List.getElem_map, List.getElem_range, hget n hn']
  rw [message, Nat.add_assoc, List.range_add, List.map_append, hfront,
    List.range_succ_eq_map, List.map_cons, List.map_cons]
  refine Cut.takeWhile_first (fun d hd => decide_eq_true (hplain d hd)) ?_
  rw [Nat.add_zero, hnul]
  decide

/-- Behind the clearing, the array reads as what is in front of it. -/
theorem message_cleared {a b : List UInt8} {c : UInt8} (stack : Int → UInt8)
    (hplain : ∀ d ∈ a ++ [c], d ≠ 0) :
    message ((a ++ c :: b).length + 1)
      (cleared 0 (copied (a ++ c :: b) stack) a.length (a ++ c :: b).length) = a ++ [c] := by
  have hlen : (a ++ c :: b).length = a.length + (b.length + 1) := by
    rw [List.length_append, List.length_cons]
  have hkept : (a ++ [c]).length = a.length + 1 := by
    rw [List.length_append, List.length_singleton]
  have hsplit : a ++ c :: b = (a ++ [c]) ++ b := by
    rw [List.append_assoc, List.singleton_append]
  refine message_eq hplain ?_ ?_ (by omega)
  · intro n hn
    rw [cleared, if_neg (by omega), copied_get stack (by omega)]
    simp only [hsplit]
    exact List.getElem_append_left hn
  · rw [cleared, if_pos (by omega)]

/-! ## The loop -/

/-- A text with a character that stays is trimmed to it. -/
theorem trimsInside_of_last {chunk a b : List UInt8} {c : UInt8} (stack : Int → UInt8)
    (htext : chunkText chunk = a ++ c :: b) (hc : iscntrl c = false)
    (hb : ∀ d ∈ b, iscntrl d = true) : TrimsInside chunk stack := by
  obtain ⟨pad, hcopy, hpad⟩ : ∃ pad, strncpy chunk chunk.length = a ++ c :: (b ++ pad) ∧
      ∀ d ∈ pad, iscntrl d = true := by
    refine ⟨List.replicate (chunk.length - (chunkText chunk).length) 0, ?_, iscntrl_padding⟩
    rw [strncpy_chunk, htext, List.append_assoc, List.cons_append]
  have hlen : (a ++ c :: (b ++ pad)).length = chunk.length := by
    rw [← hcopy, length_strncpy_chunk]
  have hstop : Stop iscntrl (copied (strncpy chunk chunk.length) stack) a.length
      chunk.length := by
    have := copied_stop (a := a) stack hc (List.forall_mem_append.mpr ⟨hb, hpad⟩)
    rwa [hlen, ← hcopy] at this
  refine ⟨?_, ⟨chunk.length, hstop.ends (by omega)⟩, ?_⟩
  · intro fuel i hi
    rcases List.mem_append.mp hi with hcopied | hloop
    · obtain ⟨n, hn, rfl⟩ := List.mem_map.mp hcopied
      have := List.mem_range.mp hn
      omega
    · have := hstop.touched fuel i hloop
      omega
  · intro fuel hended
    have hmem : (connectionTrim fuel chunk stack).mem =
        cleared 0 (copied (strncpy chunk chunk.length) stack) a.length chunk.length :=
      hstop.mem_eq hended
    have hplain : ∀ d ∈ a ++ [c], d ≠ 0 := by
      intro d hd
      have hin : d ∈ chunkText chunk := by
        rw [htext, ← List.singleton_append, ← List.append_assoc]
        exact List.mem_append_left b hd
      have hkept := List.mem_takeWhile_imp hin
      exact of_decide_eq_true hkept
    have hmessage := message_cleared (b := b ++ pad) stack hplain
    rw [hlen, ← hcopy] at hmessage
    rw [hmem, hmessage, htext, Cut.rdropWhile_append_neg a b (by rw [hc]; decide),
      List.rdropWhile_eq_nil_iff.mpr hb]

/-- A text of control characters alone lets the loop out of `msg`. -/
theorem not_trimsInside {chunk : List UInt8} (stack : Int → UInt8)
    (hall : ∀ c ∈ chunkText chunk, iscntrl c = true) : ¬ TrimsInside chunk stack := by
  intro h
  have hcopy : ∀ c ∈ strncpy chunk chunk.length, iscntrl c = true := by
    rw [strncpy_chunk]
    exact List.forall_mem_append.mpr ⟨hall, iscntrl_padding⟩
  have hpasses : ∀ j : Int, 0 ≤ j → j < chunk.length →
      iscntrl (copied (strncpy chunk chunk.length) stack j) = true := by
    intro j hj hji
    obtain ⟨n, rfl⟩ := Int.eq_ofNat_of_zero_le hj
    rw [copied_get stack (by rw [length_strncpy_chunk]; omega)]
    exact hcopy _ (List.getElem_mem _)
  -- with a round for each index, the loop reads the byte below `msg`
  have hbelow : (0 : Int) - 1 ∈ (connectionTrim (chunk.length + 1) chunk stack).touched :=
    List.mem_append_right _ (DownScan.run_passes hpasses (by omega) (by omega))
  exact absurd (h.inside _ _ hbelow).1 (by decide)

/-- **WHEN THE TRIM STAYS INSIDE** — exactly when the chunk has, before its
    first NUL, a byte that is no control character. -/
theorem trimsInside_iff (chunk : List UInt8) (stack : Int → UInt8) :
    TrimsInside chunk stack ↔ ∃ c ∈ chunk.takeWhile (· ≠ 0), iscntrl c = false := by
  rcases Cut.forall_or_last (fun c => iscntrl c = true) (chunkText chunk) with
    hall | ⟨a, c, b, htext, hc, hb⟩
  · constructor
    · intro h
      exact absurd h (not_trimsInside stack hall)
    · rintro ⟨c, hc, hplain⟩
      rw [hall c hc] at hplain
      cases hplain
  · have hplain : iscntrl c = false := Bool.eq_false_iff.mpr hc
    refine ⟨fun _ => ⟨c, ?_, hplain⟩, fun _ => trimsInside_of_last stack htext hplain hb⟩
    rw [← chunkText, htext]
    exact List.mem_append_right a List.mem_cons_self

/-- **AN EMPTY LINE LEAVES `msg`**: of the chunk of a lone newline, the loop
    reads the byte below the array. -/
theorem empty_line_leaves_msg :
    [newline] ≠ [] ∧ [newline].length ≤ bufferSize ∧ ¬ TrimsInside [newline] fun _ => 0 := by
  refine ⟨List.cons_ne_nil _ _, by decide, ?_⟩
  intro h
  have hread : (-1 : Int) ∈ (connectionTrim 2 [newline] fun _ => 0).touched := by decide
  exact absurd (h.inside 2 (-1) hread).1 (by decide)

/-! ## The message of a read -/

/-- What the trim of a copied chunk comes to. -/
theorem trimLoop_chunk (chunk : List UInt8) :
    trimLoop (strncpy chunk chunk.length) chunk.length =
      if (chunkText chunk).all iscntrl then none
      else some ((chunkText chunk).rdropWhile iscntrl) := by
  have h := trimLoop_whole (strncpy chunk chunk.length)
  rw [length_strncpy_chunk] at h
  rw [h, strncpy_chunk, Cut.rdropWhile_append_pos _ iscntrl_padding, List.all_append,
    List.all_eq_true.mpr iscntrl_padding, Bool.and_true]

/-- The trim of the message stays inside, or it looks at `msg[-1]`. -/
theorem trimLoop_trimsInside (chunk : List UInt8) (stack : Int → UInt8) :
    (trimLoop (strncpy chunk chunk.length) chunk.length = none ∧ ¬ TrimsInside chunk stack) ∨
      (trimLoop (strncpy chunk chunk.length) chunk.length =
        some ((chunkText chunk).rdropWhile iscntrl) ∧ TrimsInside chunk stack) := by
  rw [trimLoop_chunk]
  rcases Cut.forall_or_last (fun c => iscntrl c = true) (chunkText chunk) with
    hall | ⟨a, c, b, htext, hc, hb⟩
  · exact Or.inl ⟨if_pos (List.all_eq_true.mpr hall), not_trimsInside stack hall⟩
  · refine Or.inr ⟨if_neg ?_, trimsInside_of_last stack htext (Bool.eq_false_iff.mpr hc) hb⟩
    intro hall
    refine hc (List.all_eq_true.mp hall c ?_)
    rw [htext]
    exact List.mem_append_right a List.mem_cons_self

/-- `connection_read` gets to its callbacks exactly when the trim stays inside. -/
theorem connectionRead_eq_none_iff (reg : List Cmd) (answer : Nat → Int)
    (conn : Connection) (stack : Int → UInt8) :
    connectionRead reg answer conn = none ↔ ¬ TrimsInside conn.inBuf stack := by
  rw [connectionRead]
  rcases trimLoop_trimsInside conn.inBuf stack with ⟨hnone, hout⟩ | ⟨hsome, hin⟩
  · rw [hnone]
    exact ⟨fun _ => hout, fun _ => rfl⟩
  · rw [hsome]
    constructor
    · intro h
      cases h
    · intro h
      exact absurd hin h

end Impd4e.Console
