import Impd4e.Netcon
import Mathlib.Data.List.DropRight
import Mathlib.Data.List.TakeWhile

/-! # Command lines on a byte stream

    A collector sends command lines over TCP; `read` cuts the stream into
    chunks where it likes.  Every chunk becomes a message of its own, so the
    callbacks see the lines exactly when each chunk is one line. -/

namespace Impd4e.Console

open Machine Impd4e.CString

variable {Cmd : Type}

/-- What one `read_cb` obtains from `read`, and what the callbacks answer to the
    message made of it. -/
structure Chunk where
  bytes : List UInt8
  answer : Nat → Int

/-- The read event of a chunk on the connection `i`. -/
def Chunk.event (i : Nat) (chunk : Chunk) : Event Cmd :=
  .readCb i chunk.answer ⟨false, true⟩ chunk.bytes

/-- A command without its terminator. -/
structure CommandLine (line : List UInt8) : Prop where
  short : line.length < bufferSize
  plain : ∀ c ∈ line, iscntrl c = false

instance (line : List UInt8) : Decidable (CommandLine line) :=
  decidable_of_iff (line.length < bufferSize ∧ (line.all fun c => !iscntrl c) = true)
    ⟨fun h => ⟨h.1, fun c hc => Bool.not_eq_true' _ ▸ List.all_eq_true.mp h.2 c hc⟩,
      fun h => ⟨h.short, List.all_eq_true.mpr fun c hc => Bool.not_eq_true' _ ▸ h.plain c hc⟩⟩

def newline : UInt8 := 10

/-- A line as it is sent. -/
def terminated (line : List UInt8) : List UInt8 := line ++ [newline]

/-- The stream that carries the lines. -/
def stream (lines : List (List UInt8)) : List UInt8 := (lines.map terminated).flatten

/-- The chunks are a way of splitting the stream that `read` can produce. -/
structure Splits (lines : List (List UInt8)) (chunks : List Chunk) : Prop where
  whole : (chunks.map Chunk.bytes).flatten = stream lines
  obtained : ∀ chunk ∈ chunks, 0 < chunk.bytes.length ∧ chunk.bytes.length ≤ bufferSize

/-- **THE LINES ARRIVE** — over the chunks, the registered callbacks see each
    line once, complete and in order. -/
def LinesArrive (s : Netcon Cmd) (i : Nat) (chunks : List Chunk)
    (lines : List (List UInt8)) : Prop :=
  ∃ s' out, run step s (chunks.map (Chunk.event i)) = some (s', out) ∧
    out.map Dispatch.msg = lines ∧ ∀ d ∈ out, d.offered ≠ []

/-! ## The trim -/

/-- `strncpy` of a text without NULs is the text. -/
theorem strncpy_self {text : List UInt8} (h : ∀ c ∈ text, c ≠ 0) :
    strncpy text text.length = text := by
  have hall : (text.take text.length).takeWhile (· ≠ 0) = text := by
    rw [List.take_length, List.takeWhile_eq_self_iff]
    intro c hc
    exact decide_eq_true (h c hc)
  rw [strncpy, hall, Nat.sub_self, List.replicate_zero, List.append_nil]

/-- What the trim of a buffer comes to: nothing but control characters lets it
    look at `msg[-1]`, and else they go at the end. -/
theorem trimLoop_eq {msg : List UInt8} {len : Nat} (hlen : len ≤ msg.length) :
    trimLoop msg len =
      if (msg.take len).all iscntrl then none else some ((msg.take len).rdropWhile iscntrl) := by
  induction len with
  | zero => rfl
  | succ len ih =>
      have hin : len < msg.length := hlen
      rw [trimLoop, List.getElem?_eq_getElem hin, List.take_succ_eq_append_getElem hin,
        List.all_append, List.all_cons, List.all_nil, Bool.and_true]
      dsimp only
      by_cases hctl : iscntrl msg[len] = true
      · rw [if_pos hctl, ih (Nat.le_of_succ_le hlen), List.rdropWhile_concat_pos _ _ _ hctl,
          hctl, Bool.and_true]
      · rw [if_neg hctl, List.rdropWhile_concat_neg _ _ _ hctl,
          if_neg fun h => hctl (Bool.and_eq_true_iff.mp h).2]

/-- The same of a whole buffer. -/
theorem trimLoop_whole (msg : List UInt8) :
    trimLoop msg msg.length =
      if msg.all iscntrl then none else some (msg.rdropWhile iscntrl) := by
  rw [trimLoop_eq (Nat.le_refl _), List.take_length]

/-- A chunk is its message and control characters behind it. -/
theorem trim_splits {msg text : List UInt8} (h : trimLoop msg msg.length = some text) :
    text ≠ [] ∧ ∃ tail, msg = text ++ tail ∧ ∀ c ∈ tail, iscntrl c = true := by
  rw [trimLoop_whole] at h
  by_cases hall : msg.all iscntrl = true
  · rw [if_pos hall] at h
    cases h
  · rw [if_neg hall] at h
    obtain rfl := Option.some.inj h
    refine ⟨?_, msg.rtakeWhile iscntrl, List.rdropWhile_append_rtakeWhile.symm,
      fun c hc => List.mem_rtakeWhile_imp hc⟩
    intro hnil
    exact hall (List.all_eq_true.mpr (List.rdropWhile_eq_nil_iff.mp hnil))

/-- A line that is not empty is trimmed to its text. -/
theorem trim_terminated {text : List UInt8} (hplain : ∀ c ∈ text, iscntrl c = false)
    (hne : text ≠ []) : trimLoop (terminated text) (terminated text).length = some text := by
  obtain ⟨front, c, rfl⟩ := (List.eq_nil_or_concat' text).resolve_left hne
  have hc : ¬ iscntrl c = true := by
    rw [hplain c (List.mem_append_right front (List.mem_singleton_self c))]
    decide
  have hkept : ¬ (terminated (front ++ [c])).all iscntrl = true := by
    intro hall
    refine hc (List.all_eq_true.mp hall c (List.mem_append_left _ ?_))
    exact List.mem_append_right front (List.mem_singleton_self c)
  -- the newline goes, the character before it stays
  rw [trimLoop_whole, if_neg hkept, terminated,
    List.rdropWhile_concat_pos _ _ _ (by decide), List.rdropWhile_concat_neg _ _ _ hc]

/-! ## One chunk -/

/-- The connection `i` with nothing in its buffer, as `netcon_resync` sets it up
    and every read leaves it. -/
def Listening (s : Netcon Cmd) (i : Nat) : Prop :=
  ∃ conn, s.conn[i]? = some conn ∧ conn.inBuf = []

/-- A read into an empty buffer takes a chunk of what there is, and makes a
    message of it. -/
theorem readCb_obtains (reg : List Cmd) (answer : Nat → Int) {received : List UInt8}
    (h : received ≠ []) (fd : Int) (evRead : Option Int) :
    readCb reg answer ⟨false, true⟩ received ⟨fd, evRead, []⟩ =
      (connectionRead reg answer ⟨fd, evRead, received.take bufferSize⟩).map
        fun r => (r.1, [r.2]) := by
  have hne : ¬ (received.take bufferSize).length = 0 := by
    rw [List.length_take]
    exact Nat.ne_of_gt (Nat.lt_min.mpr ⟨by decide, List.length_pos_of_ne_nil h⟩)
  exact if_neg hne

/-- A chunk leaves the console as it was, and gives the trimmed chunk to the
    callbacks. -/
theorem step_chunk {s : Netcon Cmd} {i : Nat} (hs : Listening s i) {chunk : Chunk}
    (hpos : 0 < chunk.bytes.length) (hlen : chunk.bytes.length ≤ bufferSize)
    (hnul : ∀ c ∈ chunk.bytes, c ≠ 0) :
    step s (chunk.event i) =
      (trimLoop chunk.bytes chunk.bytes.length).map fun msg =>
        (s, [⟨msg, (executeLoop chunk.answer 0 netconCmdUnknown s.reg).1,
          (executeLoop chunk.answer 0 netconCmdUnknown s.reg).2⟩]) := by
  obtain ⟨⟨fd, evRead, inBuf⟩, hconn, rfl⟩ := hs
  have hread : readCb s.reg chunk.answer ⟨false, true⟩ chunk.bytes ⟨fd, evRead, []⟩ =
      (trimLoop chunk.bytes chunk.bytes.length).map fun msg =>
        (⟨fd, evRead, []⟩, [⟨msg, (executeLoop chunk.answer 0 netconCmdUnknown s.reg).1,
          (executeLoop chunk.answer 0 netconCmdUnknown s.reg).2⟩]) := by
    have htake : chunk.bytes.take bufferSize = chunk.bytes := List.take_of_length_le hlen
    rw [readCb_obtains _ _ (List.ne_nil_of_length_pos hpos), htake, connectionRead,
      strncpy_self hnul]
    cases trimLoop chunk.bytes chunk.bytes.length with
    | none => rfl
    | some msg => rfl
  have hset : s.conn.set i ⟨fd, evRead, []⟩ = s.conn := by
    obtain ⟨hi, hget⟩ := List.getElem?_eq_some_iff.mp hconn
    rw [← hget, List.set_getElem_self hi]
  rw [Chunk.event, step, hconn]
  dsimp only
  rw [hread]
  cases trimLoop chunk.bytes chunk.bytes.length with
  | none => rfl
  | some msg =>
      dsimp only [Option.map_some]
      rw [hset]

/-! ## All chunks -/

/-- A callback is asked, where one is registered. -/
theorem executeLoop_asks (answer : Nat → Int) {reg : List Cmd} (hreg : reg ≠ []) :
    (executeLoop answer 0 netconCmdUnknown reg).1 ≠ [] := by
  cases reg with
  | nil => exact absurd rfl hreg
  | cons cmd next =>
      rw [executeLoop, if_pos (by decide)]
      exact List.cons_ne_nil _ _

/-- The messages of a run are the trimmed chunks. -/
theorem linesArrive_iff_trimmed {s : Netcon Cmd} {i : Nat} (hs : Listening s i)
    (hreg : s.reg ≠ []) {chunks : List Chunk}
    (hchunks : ∀ chunk ∈ chunks,
      (0 < chunk.bytes.length ∧ chunk.bytes.length ≤ bufferSize) ∧ ∀ c ∈ chunk.bytes, c ≠ 0)
    (msgs : List (List UInt8)) :
    LinesArrive s i chunks msgs ↔
      List.Forall₂ (fun bytes msg => trimLoop bytes bytes.length = some msg)
        (chunks.map Chunk.bytes) msgs := by
  induction chunks generalizing msgs with
  | nil =>
      rw [List.map_nil, List.forall₂_nil_left_iff]
      constructor
      · rintro ⟨s', out, hrun, rfl, -⟩
        obtain ⟨-, rfl⟩ := Prod.mk.inj (Option.some.inj hrun)
        rfl
      · rintro rfl
        exact ⟨s, [], rfl, rfl, fun d hd => absurd hd List.not_mem_nil⟩
  | cons chunk chunks ih =>
      obtain ⟨⟨⟨hpos, hlen⟩, hnul⟩, hrest⟩ := List.forall_mem_cons.mp hchunks
      have hstep := step_chunk hs hpos hlen hnul
      rw [List.map_cons, List.forall₂_cons_left_iff]
      constructor
      · rintro ⟨s', out, hrun, rfl, hasked⟩
        obtain ⟨s₁, out₁, out₂, h₁, h₂, rfl⟩ := run_cons_eq_some.mp hrun
        rw [hstep] at h₁
        obtain ⟨msg, hmsg, hout⟩ := Option.map_eq_some_iff.mp h₁
        obtain ⟨rfl, rfl⟩ := Prod.mk.inj hout
        refine ⟨msg, out₂.map Dispatch.msg, hmsg, ?_, rfl⟩
        exact (ih hrest _).mp ⟨s', out₂, h₂, rfl,
          fun d hd => hasked d (List.mem_cons_of_mem _ hd)⟩
      · rintro ⟨msg, msgs, hmsg, hmsgs, rfl⟩
        obtain ⟨s', out, hrun, rfl, hasked⟩ := (ih hrest _).mpr hmsgs
        rw [hmsg, Option.map_some] at hstep
        refine ⟨s', _, run_cons_eq_some.mpr ⟨s, _, out, hstep, hrun, rfl⟩, rfl, ?_⟩
        intro d hd
        rcases List.mem_cons.mp hd with rfl | hd
        · exact executeLoop_asks _ hreg
        · exact hasked d hd

theorem iscntrl_newline : iscntrl newline = true := by decide

/-- Chunks that trim to lines begin with a character of the first line. -/
theorem chunks_begin {bs lines : List (List UInt8)} {c : UInt8} {rest : List UInt8}
    (hlines : ∀ l ∈ lines, ∀ c ∈ l, iscntrl c = false)
    (hmsgs : List.Forall₂ (fun bytes msg => trimLoop bytes bytes.length = some msg) bs lines)
    (hflat : bs.flatten = c :: rest) : iscntrl c = false := by
  cases hmsgs with
  | nil => cases hflat
  | @cons b line bs lines hb hbs =>
      obtain ⟨hne, tail', rfl, -⟩ := trim_splits hb
      obtain ⟨c', line', rfl⟩ := List.exists_cons_of_ne_nil hne
      rw [List.flatten_cons, List.cons_append, List.cons_append] at hflat
      obtain rfl := List.head_eq_of_cons_eq hflat
      exact hlines _ List.mem_cons_self c' List.mem_cons_self

/-- And so does the stream of the lines. -/
theorem stream_begins {bs lines : List (List UInt8)} {c : UInt8} {rest : List UInt8}
    (hlines : ∀ l ∈ lines, ∀ c ∈ l, iscntrl c = false)
    (hmsgs : List.Forall₂ (fun bytes msg => trimLoop bytes bytes.length = some msg) bs lines)
    (hflat : stream lines = c :: rest) : iscntrl c = false := by
  cases hmsgs with
  | nil => cases hflat
  | @cons b line bs lines hb hbs =>
      obtain ⟨hne, -⟩ := trim_splits hb
      obtain ⟨c', line', rfl⟩ := List.exists_cons_of_ne_nil hne
      have := List.head_eq_of_cons_eq (show c' :: (line' ++ [newline] ++ stream lines) = _
        from (by rw [← hflat]; rfl))
      rw [← this]
      exact hlines _ List.mem_cons_self c' List.mem_cons_self


/-- Behind a message of its own, the stream goes on with the newline, and the
    chunk ends with it. -/
theorem tail_is_newline {tail : List UInt8} {bs lines : List (List UInt8)}
    (htail : ∀ c ∈ tail, iscntrl c = true)
    (hlines : ∀ l ∈ lines, ∀ c ∈ l, iscntrl c = false)
    (hmsgs : List.Forall₂ (fun bytes msg => trimLoop bytes bytes.length = some msg) bs lines)
    (hwhole : tail ++ bs.flatten = newline :: stream lines) :
    tail = [newline] ∧ bs.flatten = stream lines := by
  cases tail with
  | nil =>
      have := chunks_begin hlines hmsgs hwhole
      rw [iscntrl_newline] at this
      cases this
  | cons c tail =>
      obtain ⟨hc, hwhole⟩ := List.cons_eq_cons.mp hwhole
      cases tail with
      | nil => exact ⟨by rw [hc], hwhole⟩
      | cons c' tail =>
          have := stream_begins hlines hmsgs hwhole.symm
          rw [htail c' (List.mem_cons_of_mem _ List.mem_cons_self)] at this
          cases this

/-- The chunks trim to the lines exactly if they are the lines as sent. -/
theorem trimmed_iff {lines : List (List UInt8)}
    (hlines : ∀ l ∈ lines, ∀ c ∈ l, iscntrl c = false) {bs : List (List UInt8)}
    (hwhole : bs.flatten = stream lines) :
    List.Forall₂ (fun bytes msg => trimLoop bytes bytes.length = some msg) bs lines ↔
      bs = lines.map terminated ∧ [] ∉ lines := by
  constructor
  · intro h
    induction h with
    | nil => exact ⟨rfl, List.not_mem_nil⟩
    | @cons b line bs lines hb hbs ih =>
        obtain ⟨hne, tail, rfl, htail⟩ := trim_splits hb
        obtain ⟨-, hlines'⟩ := List.forall_mem_cons.mp hlines
        rw [List.flatten_cons, List.append_assoc] at hwhole
        have hcut : tail ++ bs.flatten = newline :: stream lines := by
          refine List.append_cancel_left (hwhole.trans ?_)
          rw [stream, List.map_cons, List.flatten_cons, terminated, List.append_assoc]
          rfl
        obtain ⟨rfl, hrest⟩ := tail_is_newline htail hlines' hbs hcut
        obtain ⟨rfl, hnone⟩ := ih hlines' hrest
        exact ⟨rfl, fun hmem => (List.mem_cons.mp hmem).elim (fun h => hne h.symm) hnone⟩
  · rintro ⟨rfl, hnone⟩
    rw [List.forall₂_map_left_iff, List.forall₂_same]
    intro line hline
    exact trim_terminated (hlines line hline) fun h => hnone (h ▸ hline)

/-- **SEGMENTATION MATTERS** — the callbacks see the lines exactly if each chunk
    is one line with its newline, and no line is empty. -/
theorem linesArrive_iff (s : Netcon Cmd) (i : Nat) (hs : Listening s i)
    (hreg : s.reg ≠ []) (lines : List (List UInt8))
    (hlines : ∀ line ∈ lines, CommandLine line) (chunks : List Chunk)
    (hsplits : Splits lines chunks) :
    LinesArrive s i chunks lines ↔
      chunks.map Chunk.bytes = lines.map terminated ∧ [] ∉ lines := by
  have hplain : ∀ l ∈ lines, ∀ c ∈ l, iscntrl c = false := fun l hl => (hlines l hl).plain
  rw [linesArrive_iff_trimmed hs hreg, trimmed_iff hplain hsplits.whole]
  intro chunk hchunk
  refine ⟨hsplits.obtained chunk hchunk, ?_⟩
  -- a stream of command lines has no NUL
  rintro c hc rfl
  have hin : (0 : UInt8) ∈ stream lines := by
    rw [← hsplits.whole]
    exact List.mem_flatten.mpr ⟨_, List.mem_map_of_mem hchunk, hc⟩
  obtain ⟨sent, hsent, h0⟩ := List.mem_flatten.mp hin
  obtain ⟨line, hline, rfl⟩ := List.mem_map.mp hsent
  rcases List.mem_append.mp h0 with h0 | h0
  · have := hplain line hline 0 h0
    exact absurd this (by decide)
  · exact absurd (List.mem_singleton.mp h0) (by decide)

/-- A console with one callback and one connection. -/
def oneCallback : Netcon Unit := ⟨[()], [⟨7, some 7, []⟩]⟩

/-- Two lines, each in a chunk of its own. -/
theorem linesArrive_lineByLine :
    LinesArrive oneCallback 0
        [⟨terminated (str "t min"), fun _ => 1⟩, ⟨terminated (str "I 0"), fun _ => 1⟩]
        [str "t min", str "I 0"] ↔
      [terminated (str "t min"), terminated (str "I 0")] =
          [str "t min", str "I 0"].map terminated ∧ [] ∉ [str "t min", str "I 0"] := by
  refine linesArrive_iff oneCallback 0 ⟨_, rfl, rfl⟩ (List.cons_ne_nil _ _) _ ?_
    [⟨terminated (str "t min"), fun _ => 1⟩, ⟨terminated (str "I 0"), fun _ => 1⟩] ⟨rfl, ?_⟩
  · intro line hline
    rcases List.mem_cons.mp hline with rfl | hline
    · decide
    · obtain rfl := List.mem_singleton.mp hline
      decide
  · intro chunk hchunk
    rcases List.mem_cons.mp hchunk with rfl | hchunk
    · exact ⟨by decide, by decide⟩
    · obtain rfl := List.mem_singleton.mp hchunk
      exact ⟨by decide, by decide⟩

/-- **A LINE CUT IN TWO IS TWO COMMANDS**: `t min` in the chunks `t m` and
    `in`. -/
theorem cut_line_is_two_messages :
    CommandLine (str "t min") ∧
      Splits [str "t min"] [⟨str "t m", fun _ => 0⟩, ⟨terminated (str "in"), fun _ => 0⟩] ∧
      ¬ LinesArrive oneCallback 0
        [⟨str "t m", fun _ => 0⟩, ⟨terminated (str "in"), fun _ => 0⟩] [str "t min"] := by
  refine ⟨by decide, ⟨rfl, ?_⟩, ?_⟩
  · intro chunk hchunk
    rcases List.mem_cons.mp hchunk with rfl | hchunk
    · exact ⟨by decide, by decide⟩
    · obtain rfl := List.mem_singleton.mp hchunk
      exact ⟨by decide, by decide⟩
  · rintro ⟨s', out, hrun, hmsgs, -⟩
    have heval : run step oneCallback
        ([⟨str "t m", fun _ => 0⟩, ⟨terminated (str "in"), fun _ => 0⟩].map (Chunk.event 0)) =
          some (oneCallback, [⟨str "t m", [()], 0⟩, ⟨str "in", [()], 0⟩]) := rfl
    obtain ⟨-, rfl⟩ := Prod.mk.inj (Option.some.inj (heval.symm.trans hrun))
    exact absurd hmsgs (by decide)

end Impd4e.Console
