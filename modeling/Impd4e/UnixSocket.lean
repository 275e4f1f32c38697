import Impd4e.SocketHandler

/-! # The Unix-domain input

    `socket_dispatch_unix` on a connected stream socket, and what
    `packet_watcher_cb` does with its result.  The peer writes bytes and may close
    its end; how many of the waiting bytes one `recv` returns is up to the kernel.

    Nothing is lost, doubled or put out of order, and the watcher goes only when
    the peer is gone and all is read.  But a stream has no packets in it: whatever
    the peer wrote at once, every cut of the bytes into pieces that fit the buffer
    can be what is handed over. -/

namespace Impd4e.UnixSocket

open Machine Impd4e.SocketHandler

/-! ## The model -/

/-- What `socket_dispatch_unix` leaves in the socket, hands to the callback and
    returns. -/
structure Dispatched where
  waiting : List UInt8
  handed : List Handed
  result : Int
  deriving DecidableEq, Repr

/-- The bytes a `recv` into `snapLength` bytes returns where bytes wait: at least
    one, not more than there are, and else as many as the kernel likes. -/
def received (snapLength wish available : Nat) : Nat :=
  min (max 1 wish) (min snapLength available)

/-- The loop of `socket_dispatch_unix` from round `i` on, which is also
    `nPackets`; `fuel` bounds the rounds.  With no bytes left `recv` answers 0
    when the peer has closed its end and fails with `EAGAIN` otherwise. -/
def dispatchLoop (snapLength : Nat) (maxPackets : Int) (wish : Nat → Nat) (closed : Bool) :
    Nat → Nat → List UInt8 → Dispatched
  | 0, i, waiting => ⟨waiting, [], i⟩
  | _ + 1, i, [] =>
      if (i : Int) < maxPackets ∨ 0 = maxPackets ∨ -1 = maxPackets then
        ⟨[], [], if closed then -1 else i⟩
      else ⟨[], [], i⟩
  | fuel + 1, i, b :: bs =>
      if (i : Int) < maxPackets ∨ 0 = maxPackets ∨ -1 = maxPackets then
        let caplen := received snapLength (wish i) (b :: bs).length
        if caplen = 0 then ⟨b :: bs, [], -1⟩
        else
          let rest := dispatchLoop snapLength maxPackets wish closed fuel (i + 1)
            ((b :: bs).drop caplen)
          { rest with handed := ⟨⟨caplen, caplen⟩, (b :: bs).take caplen⟩ :: rest.handed }
      else ⟨b :: bs, [], i⟩

/-- Every round but the last takes a byte, so the fuel is enough. -/
def socketDispatchUnix (snapLength : Nat) (maxPackets : Int) (wish : Nat → Nat)
    (closed : Bool) (waiting : List UInt8) : Dispatched :=
  dispatchLoop snapLength maxPackets wish closed (waiting.length + 1) 0 waiting

/-- A `TYPE_SOCKET_UNIX` device: the bytes in its socket, whether the peer has
    closed its end, and whether the read watcher is registered. -/
structure Input where
  waiting : List UInt8
  closed : Bool
  registered : Bool
  deriving DecidableEq, Repr

/-- The device behind `open_socket_unix`. -/
def openSocketUnix : Input := ⟨[], false, true⟩

/-- `packet_watcher_cb` for this device, called with `EV_READ`. -/
def packetWatcherCb (snapLength : Nat) (wish : Nat → Nat) (s : Input) : Input × List Handed :=
  let dispatched := socketDispatchUnix snapLength pcapDispatchPacketCount wish s.closed s.waiting
  (⟨dispatched.waiting, s.closed, if 0 > dispatched.result then false else s.registered⟩,
    dispatched.handed)

inductive Event where
  | write (bytes : List UInt8)
  | close
  | packetWatcherCb (wish : Nat → Nat)

/-- One event; a closed end writes no more, and libev does not call a watcher
    that is not registered. -/
def step (snapLength : Nat) (s : Input) : Event → Option (Input × List Handed)
  | .write bytes => if s.closed then none else some ({ s with waiting := s.waiting ++ bytes }, [])
  | .close => some ({ s with closed := true }, [])
  | .packetWatcherCb wish =>
      some (if s.registered then packetWatcherCb snapLength wish s else (s, []))

/-! ## What the bytes become -/

/-- The bytes an event brings. -/
def Event.bytes : Event → List UInt8
  | .write bytes => bytes
  | .close => []
  | .packetWatcherCb _ => []

def written (es : List Event) : List UInt8 := es.flatMap Event.bytes

/-- The call one piece of the stream leads to. -/
def handOver (piece : List UInt8) : Handed := ⟨⟨piece.length, piece.length⟩, piece⟩

/-- The pieces one `recv` can return. -/
def Fits (snapLength : Nat) (piece : List UInt8) : Prop :=
  0 < piece.length ∧ piece.length ≤ snapLength

variable {snapLength : Nat}

theorem received_pos (hs : 0 < snapLength) (wish : Nat) {available : Nat}
    (ha : 0 < available) : 0 < received snapLength wish available := by
  rw [received]
  omega

theorem received_le (snapLength wish available : Nat) :
    received snapLength wish available ≤ snapLength ∧
      received snapLength wish available ≤ available := by
  rw [received]
  omega

/-- The kernel can return exactly a piece that fits. -/
theorem received_piece {piece : List UInt8} (h : Fits snapLength piece) (rest : List UInt8) :
    received snapLength piece.length (piece ++ rest).length = piece.length := by
  obtain ⟨hpos, hle⟩ := h
  rw [received, List.length_append]
  omega

/-! ## One call -/

/-- What a call did: it took pieces off the head of the stream; it answers -1
    only when the stream has ended. -/
structure Took (snapLength : Nat) (closed : Bool) (waiting : List UInt8)
    (r : Dispatched) : Prop where
  pieces : ∃ pieces : List (List UInt8), waiting = pieces.flatten ++ r.waiting ∧
    r.handed = pieces.map handOver ∧ ∀ p ∈ pieces, Fits snapLength p
  ended : r.result < 0 → closed = true ∧ r.waiting = []

theorem dispatchLoop_took (hs : 0 < snapLength) (maxPackets : Int) (wish : Nat → Nat)
    (closed : Bool) :
    ∀ (fuel i : Nat) (waiting : List UInt8),
      Took snapLength closed waiting
        (dispatchLoop snapLength maxPackets wish closed fuel i waiting) := by
  intro fuel
  have hnat : ∀ i : Nat, ¬ (i : Int) < 0 := fun i => Int.not_lt.mpr (Int.natCast_nonneg i)
  induction fuel with
  | zero =>
      intro i waiting
      exact ⟨⟨[], rfl, rfl, fun _ h => absurd h List.not_mem_nil⟩, fun h => absurd h (hnat i)⟩
  | succ fuel ih =>
      intro i waiting
      have hnone : Took snapLength closed waiting ⟨waiting, [], i⟩ :=
        ⟨⟨[], rfl, rfl, fun _ h => absurd h List.not_mem_nil⟩, fun h => absurd h (hnat i)⟩
      by_cases hi : (i : Int) < maxPackets ∨ 0 = maxPackets ∨ -1 = maxPackets
      · cases waiting with
        | nil =>
            rw [dispatchLoop, if_pos hi]
            refine ⟨⟨[], rfl, rfl, fun _ h => absurd h List.not_mem_nil⟩, fun h => ⟨?_, rfl⟩⟩
            cases closed with
            | true => rfl
            | false => exact absurd h (hnat i)
        | cons b bs =>
            have hpos : 0 < received snapLength (wish i) (b :: bs).length :=
              received_pos hs _ (Nat.zero_lt_succ _)
            obtain ⟨hle, hle'⟩ := received_le snapLength (wish i) (b :: bs).length
            rw [dispatchLoop, if_pos hi]
            dsimp only
            rw [if_neg (Nat.ne_of_gt hpos)]
            obtain ⟨⟨pieces, hsplit, hhanded, hfits⟩, hended⟩ :=
              ih (i + 1) ((b :: bs).drop (received snapLength (wish i) (b :: bs).length))
            have hlen : ((b :: bs).take (received snapLength (wish i) (b :: bs).length)).length
                = received snapLength (wish i) (b :: bs).length := by
              rw [List.length_take]
              omega
            refine ⟨⟨(b :: bs).take (received snapLength (wish i) (b :: bs).length) :: pieces,
              ?_, ?_, ?_⟩, hended⟩
            · rw [List.flatten_cons, List.append_assoc, ← hsplit, List.take_append_drop]
            · rw [List.map_cons, ← hhanded, handOver, hlen]
            · intro p hp
              rcases List.mem_cons.mp hp with rfl | hp
              · exact ⟨by rw [hlen]; exact hpos, by rw [hlen]; exact hle⟩
              · exact hfits p hp
      · cases waiting with
        | nil => rwa [dispatchLoop, if_neg hi]
        | cons b bs => rwa [dispatchLoop, if_neg hi]

theorem socketDispatchUnix_took (hs : 0 < snapLength) (wish : Nat → Nat) (closed : Bool)
    (waiting : List UInt8) : Took snapLength closed waiting
      (socketDispatchUnix snapLength pcapDispatchPacketCount wish closed waiting) :=
  dispatchLoop_took hs _ wish closed _ 0 waiting

/-- A call leaves nothing of nothing, and less of anything else. -/
theorem socketDispatchUnix_length (hs : 0 < snapLength) (wish : Nat → Nat) (closed : Bool)
    (waiting : List UInt8) :
    (socketDispatchUnix snapLength pcapDispatchPacketCount wish closed waiting).waiting.length
      ≤ waiting.length - 1 := by
  cases waiting with
  | nil => exact Nat.le_refl 0
  | cons b bs =>
      have hpos : 0 < received snapLength (wish 0) (b :: bs).length :=
        received_pos hs _ (Nat.zero_lt_succ _)
      rw [socketDispatchUnix, dispatchLoop, if_pos (Or.inl (by decide))]
      dsimp only
      rw [if_neg (Nat.ne_of_gt hpos)]
      obtain ⟨⟨pieces, hsplit, -, -⟩, -⟩ := dispatchLoop_took hs pcapDispatchPacketCount wish
        closed (b :: bs).length (0 + 1)
          ((b :: bs).drop (received snapLength (wish 0) (b :: bs).length))
      have hlen := congrArg List.length hsplit
      rw [List.length_drop, List.length_append] at hlen
      show (dispatchLoop snapLength pcapDispatchPacketCount wish closed (b :: bs).length (0 + 1)
        ((b :: bs).drop (received snapLength (wish 0) (b :: bs).length))).waiting.length
          ≤ (b :: bs).length - 1
      omega

/-! ## Runs -/

theorem written_append (es fs : List Event) : written (es ++ fs) = written es ++ written fs :=
  List.flatMap_append

/-- What holds behind every run: the pieces handed over and the bytes that wait
    make up what was written, and a watcher that is gone has read a stream that
    has ended to its end. -/
structure Sound (snapLength : Nat) (bytes : List UInt8) (s : Input) (out : List Handed) :
    Prop where
  pieces : ∃ pieces : List (List UInt8), bytes = pieces.flatten ++ s.waiting ∧
    out = pieces.map handOver ∧ ∀ p ∈ pieces, Fits snapLength p
  gone : s.registered = false → s.closed = true ∧ s.waiting = []

theorem step_sound (hs : 0 < snapLength) {bytes : List UInt8} {s s' : Input}
    {out out' : List Handed} (h : Sound snapLength bytes s out) {e : Event}
    (hstep : step snapLength s e = some (s', out')) :
    Sound snapLength (bytes ++ e.bytes) s' (out ++ out') := by
  obtain ⟨⟨pieces, hbytes, hout, hfits⟩, hgone⟩ := h
  cases e with
  | write more =>
      by_cases hclosed : s.closed = true
      · rw [step, if_pos hclosed] at hstep
        exact nomatch hstep
      · rw [step, if_neg hclosed] at hstep
        obtain ⟨rfl, rfl⟩ := Prod.mk.inj (Option.some.inj hstep)
        refine ⟨⟨pieces, ?_, by rw [hout, List.append_nil], hfits⟩,
          fun hreg => absurd (hgone hreg).1 hclosed⟩
        show bytes ++ more = pieces.flatten ++ (s.waiting ++ more)
        rw [hbytes, List.append_assoc]
  | close =>
      obtain ⟨rfl, rfl⟩ := Prod.mk.inj (Option.some.inj hstep)
      exact ⟨⟨pieces, (List.append_nil bytes).trans hbytes, by rw [hout, List.append_nil], hfits⟩,
        fun hreg => ⟨rfl, (hgone hreg).2⟩⟩
  | packetWatcherCb wish =>
      show Sound snapLength (bytes ++ []) s' (out ++ out')
      rw [List.append_nil]
      by_cases hreg : s.registered = true
      · rw [step, if_pos hreg] at hstep
        obtain ⟨rfl, rfl⟩ := Prod.mk.inj (Option.some.inj hstep)
        obtain ⟨⟨pieces', hsplit, hhanded, hfits'⟩, hended⟩ :=
          socketDispatchUnix_took hs wish s.closed s.waiting
        refine ⟨⟨pieces ++ pieces', ?_, ?_, ?_⟩, fun hgone' => ?_⟩
        · show bytes = (pieces ++ pieces').flatten
            ++ (socketDispatchUnix snapLength pcapDispatchPacketCount wish s.closed
                s.waiting).waiting
          rw [List.flatten_append, List.append_assoc, ← hsplit, hbytes]
        · rw [List.map_append, hout, ← hhanded]
        · intro p hp
          exact (List.mem_append.mp hp).elim (hfits p) (hfits' p)
        · -- the watcher was registered, so this call answered -1
          refine hended ?_
          by_contra hresult
          have hkept : (packetWatcherCb snapLength wish s).1.registered = s.registered :=
            if_neg hresult
          exact Bool.noConfusion (hreg.symm.trans (hkept.symm.trans hgone'))
      · rw [step, if_neg hreg] at hstep
        obtain ⟨rfl, rfl⟩ := Prod.mk.inj (Option.some.inj hstep)
        exact ⟨⟨pieces, hbytes, by rw [hout, List.append_nil], hfits⟩, hgone⟩

theorem run_sound (hs : 0 < snapLength) {es : List Event} {s : Input} {out : List Handed}
    (h : run (step snapLength) openSocketUnix es = some (s, out)) :
    Sound snapLength (written es) s out := by
  refine run_rule (P := fun es s out => Sound snapLength (written es) s out) ?_ ?_ h
  · exact ⟨⟨[], rfl, rfl, fun _ hp => absurd hp List.not_mem_nil⟩,
      fun hreg => Bool.noConfusion hreg⟩
  · intro es s out e s' out' ih hstep
    have hsplit : written (es ++ [e]) = written es ++ e.bytes := by
      rw [written_append]
      exact congrArg _ (List.append_nil e.bytes)
    rw [hsplit]
    exact step_sound hs ih hstep

/-- As many calls as bytes wait empty the socket. -/
theorem run_drains (hs : 0 < snapLength) {wishes : List (Nat → Nat)} {s t : Input}
    {bytes : List UInt8} {out₀ out : List Handed} (hsound : Sound snapLength bytes s out₀)
    (hlen : s.waiting.length ≤ wishes.length)
    (h : run (step snapLength) s (wishes.map Event.packetWatcherCb) = some (t, out)) :
    t.waiting = [] := by
  induction wishes generalizing s bytes out₀ out with
  | nil =>
      obtain ⟨rfl, -⟩ := Prod.mk.inj (Option.some.inj h)
      exact List.length_eq_zero_iff.mp (Nat.le_zero.mp hlen)
  | cons wish wishes ih =>
      obtain ⟨s₁, out₁, out₂, hstep, hrun, -⟩ := run_cons_eq_some.mp h
      refine ih (step_sound hs hsound hstep) ?_ hrun
      rw [List.length_cons] at hlen
      by_cases hreg : s.registered = true
      · rw [step, if_pos hreg] at hstep
        obtain ⟨rfl, -⟩ := Prod.mk.inj (Option.some.inj hstep)
        have := socketDispatchUnix_length hs wish s.closed s.waiting
        show (socketDispatchUnix _ _ _ _ s.waiting).waiting.length ≤ wishes.length
        omega
      · -- a watcher that is gone has left nothing
        rw [step, if_neg hreg] at hstep
        obtain ⟨rfl, -⟩ := Prod.mk.inj (Option.some.inj hstep)
        rw [(hsound.gone (Bool.eq_false_iff.mpr hreg)).2]
        exact Nat.zero_le _

theorem packets_handOver (pieces : List (List UInt8)) :
    (pieces.map handOver).map Handed.packet = pieces := by
  rw [List.map_map]
  exact List.map_id pieces

theorem written_calls (wishes : List (Nat → Nat)) :
    written (wishes.map Event.packetWatcherCb) = [] := by
  rw [written, List.flatMap_map]
  exact List.flatMap_eq_nil_iff.mpr fun _ _ => rfl

/-- **THE STREAM IS HANDED OVER ONCE, IN ORDER AND WHOLE**: behind every run the
    packets handed over and the bytes that wait make up what the peer wrote, no
    packet is empty or longer than the buffer, a watcher that is deregistered has
    read all of a stream that has ended, and from there as many calls as bytes
    wait hand over the rest. -/
theorem stream_conserved (hs : 0 < snapLength) (es : List Event) (s : Input) (out : List Handed)
    (h : run (step snapLength) openSocketUnix es = some (s, out)) :
    (out.map Handed.packet).flatten ++ s.waiting = written es ∧
      (∀ p ∈ out, p.hdr.len = p.packet.length ∧ p.hdr.caplen = p.packet.length ∧
        Fits snapLength p.packet) ∧
      (s.registered = false → s.closed = true ∧ s.waiting = []) ∧
      ∀ (wishes : List (Nat → Nat)) (t : Input) (out' : List Handed),
        s.waiting.length ≤ wishes.length →
        run (step snapLength) s (wishes.map Event.packetWatcherCb) = some (t, out') →
          t.waiting = [] ∧ ((out ++ out').map Handed.packet).flatten = written es := by
  have hsound := run_sound hs h
  obtain ⟨⟨pieces, hbytes, hout, hfits⟩, hgone⟩ := hsound
  refine ⟨?_, ?_, hgone, ?_⟩
  · rw [hout, packets_handOver, ← hbytes]
  · intro p hp
    rw [hout] at hp
    obtain ⟨piece, hpiece, rfl⟩ := List.mem_map.mp hp
    exact ⟨rfl, rfl, hfits piece hpiece⟩
  · intro wishes t out' hlen hrun
    have hempty := run_drains hs (run_sound hs h) hlen hrun
    refine ⟨hempty, ?_⟩
    have hall := run_sound hs (run_append_eq_some.mpr ⟨s, out, out', h, hrun, rfl⟩)
    obtain ⟨⟨pieces', hbytes', hout', -⟩, -⟩ := hall
    rw [written_append, written_calls, List.append_nil, hempty, List.append_nil] at hbytes'
    rw [hout', packets_handOver, ← hbytes']

/-- A stream of three bytes, read by one call and then ended. -/
theorem stream_conserved_short :
    ∃ s, run (step 2) openSocketUnix
        [.write [1, 2, 3], .packetWatcherCb (fun _ => 2), .close, .packetWatcherCb (fun _ => 2)]
        = some (s, [handOver [1, 2], handOver [3]]) ∧
      ([handOver [1, 2], handOver [3]].map Handed.packet).flatten ++ s.waiting = [1, 2, 3] :=
  ⟨⟨[], true, false⟩, rfl, (stream_conserved (show 0 < 2 by decide)
    [.write [1, 2, 3], .packetWatcherCb (fun _ => 2), .close, .packetWatcherCb (fun _ => 2)]
    ⟨[], true, false⟩ [handOver [1, 2], handOver [3]] rfl).1⟩

/-! ## The packets a stream can become -/

/-- A call whose `recv`s return the pieces `cs` of the stream takes the rounds it
    has left, one piece each. -/
theorem dispatchLoop_cut {wish : Nat → Nat} (cs : List (List UInt8))
    (hfits : ∀ c ∈ cs, Fits snapLength c) :
    ∀ (i fuel : Nat), (∀ k c, cs[k]? = some c → wish (i + k) = c.length) →
      cs.flatten.length < fuel →
      dispatchLoop snapLength pcapDispatchPacketCount wish false fuel i cs.flatten
        = ⟨(cs.drop (10 - i)).flatten, (cs.take (10 - i)).map handOver,
            (i + (cs.take (10 - i)).length : Nat)⟩ := by
  induction cs with
  | nil =>
      intro i fuel _ hfuel
      rw [List.drop_nil, List.take_nil]
      cases fuel with
      | zero => exact absurd hfuel (Nat.not_lt_zero _)
      | succ fuel =>
          show dispatchLoop _ _ _ _ _ _ [] = _
          rw [dispatchLoop]
          exact ite_self _
  | cons c cs ih =>
      intro i fuel hwish hfuel
      obtain ⟨hc, hcs⟩ := List.forall_mem_cons.mp hfits
      rw [List.flatten_cons] at hfuel ⊢
      rw [List.length_append] at hfuel
      have hpos := hc.1
      have hreceived := received_piece hc cs.flatten
      cases fuel with
      | zero => exact absurd hfuel (Nat.not_lt_zero _)
      | succ fuel =>
          obtain ⟨b, bs, hcons⟩ : ∃ b bs, c ++ cs.flatten = b :: bs :=
            List.exists_cons_of_length_pos (by rw [List.length_append]; omega)
          by_cases hi : (i : Int) < pcapDispatchPacketCount ∨ 0 = pcapDispatchPacketCount ∨
              -1 = pcapDispatchPacketCount
          · have hlt : i < 10 := by
              rcases hi with hi | hi | hi
              · exact Int.ofNat_lt.mp hi
              · exact absurd hi (by decide)
              · exact absurd hi (by decide)
            have hrest := ih hcs (i + 1) fuel
              (fun k d hk => by rw [← hwish (k + 1) d hk]; congr 1; omega) (by omega)
            have hwish0 : wish i = c.length := hwish 0 c rfl
            rw [hcons, dispatchLoop, if_pos hi, ← hcons, hwish0, hreceived]
            dsimp only
            rw [if_neg (by omega), List.drop_left, List.take_left, hrest,
              show 10 - i = (10 - (i + 1)) + 1 by omega, List.drop_succ_cons,
              List.take_succ_cons, List.map_cons, List.length_cons,
              show i + 1 + (cs.take (10 - (i + 1))).length
                = i + ((cs.take (10 - (i + 1))).length + 1) by omega]
            rfl
          · have hge : 10 - i = 0 := by
              have : ¬ i < 10 := fun hlt => hi (Or.inl (Int.ofNat_lt.mpr hlt))
              omega
            rw [hcons, dispatchLoop, if_neg hi, ← hcons, hge]
            rfl

/-- Calls that hand over the pieces one after the other. -/
theorem exists_calls (n : Nat) :
    ∀ cs : List (List UInt8), cs.length ≤ n → (∀ c ∈ cs, Fits snapLength c) →
      ∃ wishes : List (Nat → Nat),
        run (step snapLength) ⟨cs.flatten, false, true⟩ (wishes.map Event.packetWatcherCb)
          = some (⟨[], false, true⟩, cs.map handOver) := by
  induction n with
  | zero =>
      intro cs hlen _
      obtain rfl := List.length_eq_zero_iff.mp (Nat.le_zero.mp hlen)
      exact ⟨[], rfl⟩
  | succ n ih =>
      intro cs hlen hfits
      by_cases hnil : cs = []
      · subst hnil
        exact ⟨[], rfl⟩
      · have hpos := List.length_pos_of_ne_nil hnil
        -- one call takes ten pieces, the others the rest
        obtain ⟨wishes, hrun⟩ := ih (cs.drop 10) (by rw [List.length_drop]; omega)
          fun c hc => hfits c (List.mem_of_mem_drop hc)
        let wish : Nat → Nat := fun k => ((cs[k]?).map List.length).getD 0
        have hloop := @dispatchLoop_cut snapLength wish cs hfits 0 (cs.flatten.length + 1)
          (fun k c hk => by show ((cs[0 + k]?).map _).getD 0 = _; rw [Nat.zero_add, hk]; rfl)
          (Nat.lt_succ_self _)
        have hstep : step snapLength ⟨cs.flatten, false, true⟩ (.packetWatcherCb wish)
            = some (⟨(cs.drop 10).flatten, false, true⟩, (cs.take 10).map handOver) := by
          rw [step, if_pos rfl, packetWatcherCb, socketDispatchUnix, hloop]
          dsimp only
          rw [if_neg (Int.not_lt.mpr (Int.natCast_nonneg _))]
        refine ⟨wish :: wishes, run_cons_eq_some.mpr ⟨_, _, _, hstep, hrun, ?_⟩⟩
        rw [← List.map_append, List.take_append_drop]

theorem run_writes (frames : List (List UInt8)) (waiting : List UInt8) :
    run (step snapLength) ⟨waiting, false, true⟩ (frames.map Event.write)
      = some (⟨waiting ++ frames.flatten, false, true⟩, []) := by
  induction frames generalizing waiting with
  | nil => rw [List.flatten_nil, List.append_nil]; rfl
  | cons frame frames ih =>
      refine run_cons_eq_some.mpr ⟨⟨waiting ++ frame, false, true⟩, [], [], rfl, ?_, rfl⟩
      rw [ih, List.flatten_cons, List.append_assoc]

/-- **A STREAM HAS NO PACKETS**: whatever frames the peer writes, the packets that
    can be handed over are all the cuts of the bytes into pieces that fit the
    buffer, and no others; where a frame ended is lost. -/
theorem handed_over_iff_cut (hs : 0 < snapLength) (frames cs : List (List UInt8)) :
    (∃ (wishes : List (Nat → Nat)) (s : Input),
      run (step snapLength) openSocketUnix
          (frames.map Event.write ++ wishes.map Event.packetWatcherCb)
        = some (s, cs.map handOver) ∧ s.waiting = []) ↔
      cs.flatten = frames.flatten ∧ ∀ c ∈ cs, Fits snapLength c := by
  constructor
  · rintro ⟨wishes, s, hrun, hempty⟩
    obtain ⟨⟨pieces, hbytes, hout, hfits⟩, -⟩ := run_sound hs hrun
    have hwritten : written (frames.map Event.write) = frames.flatten := by
      rw [written, List.flatMap_map]
      exact List.flatMap_id'
    rw [written_append, hwritten, written_calls, hempty, List.append_nil, List.append_nil]
      at hbytes
    have hpieces : cs = pieces := by
      rw [← packets_handOver cs, hout, packets_handOver]
    subst hpieces
    exact ⟨hbytes.symm, hfits⟩
  · rintro ⟨hflat, hfits⟩
    obtain ⟨wishes, hcalls⟩ := exists_calls cs.length cs le_rfl hfits
    have hwrites := @run_writes snapLength frames []
    rw [List.nil_append, ← hflat] at hwrites
    exact ⟨wishes, ⟨[], false, true⟩,
      run_append_eq_some.mpr ⟨_, _, _, hwrites, hcalls, rfl⟩, rfl⟩

/-- Two written packets can come in as one, and one as two. -/
theorem handed_over_merged : ∃ (wishes : List (Nat → Nat)) (s : Input),
    run (step 80) openSocketUnix
        ([[69, 0], [69, 1]].map Event.write ++ wishes.map Event.packetWatcherCb)
      = some (s, [[69, 0, 69], [1]].map handOver) ∧ s.waiting = [] := by
  refine (handed_over_iff_cut (by decide) [[69, 0], [69, 1]] [[69, 0, 69], [1]]).mpr
    ⟨rfl, fun c hc => ?_⟩
  simp only [List.mem_cons, List.not_mem_nil, or_false] at hc
  rcases hc with rfl | rfl
  · exact ⟨by decide, by decide⟩
  · exact ⟨by decide, by decide⟩

end Impd4e.UnixSocket
