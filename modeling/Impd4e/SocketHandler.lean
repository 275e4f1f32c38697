import Impd4e.Constants
import Impd4e.Lib.Cut
import Impd4e.Lib.Machine

/-! # The UDP input

    `socket_dispatch_inet` and what `packet_watcher_cb` does with its result,
    over the queue of the socket: datagrams arrive, the event loop calls the
    read watcher of the device as long as it is registered. -/

namespace Impd4e.SocketHandler

open Machine

/-- The payload of a datagram. -/
abbrev Datagram := List UInt8

/-- `struct pcap_pkthdr`, as far as it is looked at before `handle_packet`. -/
structure PcapPkthdr where
  len : Nat
  caplen : Nat
  deriving DecidableEq, Repr

/-- A call of `handle_packet`. -/
structure Handed where
  hdr : PcapPkthdr
  packet : List UInt8
  deriving DecidableEq, Repr

/-- What `socket_dispatch_inet` leaves in the socket, hands to the callback and
    returns. -/
structure Dispatched where
  queue : List Datagram
  handed : List Handed
  result : Int
  deriving DecidableEq, Repr

/-- The loop of `socket_dispatch_inet` from round `i` on, which is also
    `nPackets`.  `recv` fails on an empty queue only, and then with `EAGAIN`;
    `wouldBlock i` tells whether an older failure left `EAGAIN` or
    `EWOULDBLOCK` in `errno` by round `i`. -/
def dispatchLoop (snapLength : Nat) (maxPackets : Int) (wouldBlock : Nat → Bool) :
    Nat → List Datagram → Dispatched
  | i, [] => ⟨[], [], i⟩
  | i, d :: queue =>
      if (i : Int) < maxPackets ∨ 0 = maxPackets ∨ -1 = maxPackets then
        -- the peek tells the whole length, but `hdr.len` is a `uint32_t`
        let len := u32 d.length
        if len = 0 then ⟨d :: queue, [], -1⟩
        else if len = 4294967295 then
          ⟨d :: queue, [], if wouldBlock i then i else -1⟩
        else
          let buffer := d.take snapLength
          let caplen := u32 buffer.length
          if caplen = 0 then ⟨queue, [], -1⟩
          else if caplen = 4294967295 then ⟨queue, [], if wouldBlock i then i else -1⟩
          else
            let rest := dispatchLoop snapLength maxPackets wouldBlock (i + 1) queue
            { rest with handed := ⟨⟨len, caplen⟩, buffer⟩ :: rest.handed }
      else ⟨d :: queue, [], i⟩

def socketDispatchInet (snapLength : Nat) (maxPackets : Int) (wouldBlock : Nat → Bool)
    (queue : List Datagram) : Dispatched :=
  dispatchLoop snapLength maxPackets wouldBlock 0 queue

/-- `PCAP_DISPATCH_PACKET_COUNT` -/
abbrev pcapDispatchPacketCount : Int := 10

/-- A `TYPE_SOCKET_INET` device: the datagrams in its socket, and whether its
    read watcher is registered. -/
structure Input where
  queue : List Datagram
  registered : Bool
  deriving DecidableEq, Repr

/-- The device behind `open_socket_inet`. -/
def openSocketInet : Input := ⟨[], true⟩

/-- `packet_watcher_cb` for this device, called with `EV_READ`. -/
def packetWatcherCb (snapLength : Nat) (wouldBlock : Nat → Bool) (s : Input) :
    Input × List Handed :=
  let dispatched :=
    socketDispatchInet snapLength pcapDispatchPacketCount wouldBlock s.queue
  (⟨dispatched.queue, if 0 > dispatched.result then false else s.registered⟩,
    dispatched.handed)

inductive Event where
  | arrive (d : Datagram)
  | packetWatcherCb (wouldBlock : Nat → Bool)

/-- One event; libev does not call a watcher that is not registered. -/
def step (snapLength : Nat) (s : Input) : Event → Option (Input × List Handed)
  | .arrive d => some ({ s with queue := s.queue ++ [d] }, [])
  | .packetWatcherCb wouldBlock =>
      some (if s.registered then packetWatcherCb snapLength wouldBlock s else (s, []))

/-! ## What a UDP input is for -/

/-- The datagram an event brings. -/
def Event.arrival : Event → Option Datagram
  | .arrive d => some d
  | .packetWatcherCb _ => none

def arrivals (es : List Event) : List Datagram := es.filterMap Event.arrival

/-- The call a datagram is to lead to. -/
def handOver (snapLength : Nat) (d : Datagram) : Handed :=
  ⟨⟨d.length, min d.length snapLength⟩, d.take snapLength⟩

/-- The calls a sequence of datagrams is to lead to. -/
def handOvers (snapLength : Nat) (ds : List Datagram) : List Handed :=
  (ds.filter (fun d => d ≠ [])).map (handOver snapLength)

/-- **THE INPUT SURVIVES ITS TRAFFIC** — however the datagrams come and the
    watcher is called in between, the watcher stays registered, what was handed
    over and what waits make up what came, and enough calls hand over all. -/
structure Survives (snapLength : Nat) (ds : List Datagram) : Prop where
  registered : ∀ es s out, arrivals es <+: ds →
    run (step snapLength) openSocketInet es = some (s, out) → s.registered = true
  inOrder : ∀ es s out, arrivals es <+: ds →
    run (step snapLength) openSocketInet es = some (s, out) →
      out ++ handOvers snapLength s.queue = handOvers snapLength (arrivals es)
  complete : ∀ es calls s out, arrivals es = ds → arrivals calls = [] →
    ds.length ≤ calls.length →
    run (step snapLength) openSocketInet (es ++ calls) = some (s, out) →
      out = handOvers snapLength ds

/-! ## Datagrams that are told apart from return codes -/

/-- The lengths that are no special value of `hdr.len`. -/
def Plain (d : Datagram) : Prop := 0 < d.length ∧ d.length < 4294967295

theorem handOvers_append (snapLength : Nat) (ds ds' : List Datagram) :
    handOvers snapLength (ds ++ ds') =
      handOvers snapLength ds ++ handOvers snapLength ds' := by
  rw [handOvers, handOvers, handOvers, List.filter_append, List.map_append]

theorem handOvers_cons_plain (snapLength : Nat) {d : Datagram} (hd : Plain d)
    (ds : List Datagram) :
    handOvers snapLength (d :: ds) = handOver snapLength d :: handOvers snapLength ds := by
  have hne : d ≠ [] := List.ne_nil_of_length_pos hd.1
  rw [handOvers, handOvers, List.filter_cons_of_pos (by simpa using hne), List.map_cons]

variable {snapLength : Nat}

/-- A round of the loop on a plain datagram takes it and hands it over. -/
theorem dispatchLoop_plain (hs : 0 < snapLength) (hs' : snapLength < 65536)
    (wouldBlock : Nat → Bool) {maxPackets : Int} {i : Nat}
    (hi : (i : Int) < maxPackets ∨ 0 = maxPackets ∨ -1 = maxPackets)
    {d : Datagram} (hd : Plain d) (queue : List Datagram) :
    dispatchLoop snapLength maxPackets wouldBlock i (d :: queue) =
      { dispatchLoop snapLength maxPackets wouldBlock (i + 1) queue with
        handed := handOver snapLength d ::
          (dispatchLoop snapLength maxPackets wouldBlock (i + 1) queue).handed } := by
  obtain ⟨hpos, hlt⟩ := hd
  have hlen : u32 d.length = d.length := Nat.mod_eq_of_lt (by omega)
  have hcap : u32 (d.take snapLength).length = min d.length snapLength := by
    rw [List.length_take, Nat.min_comm]
    exact Nat.mod_eq_of_lt (by omega)
  rw [dispatchLoop, if_pos hi]
  dsimp only
  rw [hlen, hcap, if_neg (by omega), if_neg (by omega), if_neg (by omega),
    if_neg (by omega)]
  rfl

/-- The loop takes plain datagrams from the head of the queue, at least one if
    there is one and a round is left. -/
theorem dispatchLoop_takes (hs : 0 < snapLength) (hs' : snapLength < 65536)
    (wouldBlock : Nat → Bool) (maxPackets : Int) :
    ∀ (queue : List Datagram) (i : Nat), (∀ d ∈ queue, Plain d) →
      ∃ taken rest, queue = taken ++ rest ∧
        dispatchLoop snapLength maxPackets wouldBlock i queue =
          ⟨rest, handOvers snapLength taken, (i + taken.length : Nat)⟩ ∧
        (queue ≠ [] → (i : Int) < maxPackets → taken ≠ []) := by
  intro queue
  induction queue with
  | nil =>
      intro i _
      exact ⟨[], [], rfl, rfl, fun h => absurd rfl h⟩
  | cons d queue ih =>
      intro i hplain
      obtain ⟨hd, hqueue⟩ := List.forall_mem_cons.mp hplain
      by_cases hi : (i : Int) < maxPackets ∨ 0 = maxPackets ∨ -1 = maxPackets
      · obtain ⟨taken, rest, hsplit, hloop, -⟩ := ih (i + 1) hqueue
        refine ⟨d :: taken, rest, by rw [hsplit, List.cons_append], ?_,
          fun _ _ => List.cons_ne_nil d taken⟩
        rw [dispatchLoop_plain hs hs' wouldBlock hi hd, hloop, handOvers_cons_plain _ hd,
          List.length_cons, Nat.add_assoc, Nat.add_comm 1]
      · refine ⟨[], d :: queue, rfl, ?_, fun _ h => absurd (Or.inl h) hi⟩
        rw [dispatchLoop, if_neg hi]
        rfl

/-- The watcher's callback on plain datagrams: it stays registered, and takes
    the head of the queue. -/
theorem packetWatcherCb_takes (hs : 0 < snapLength) (hs' : snapLength < 65536)
    (wouldBlock : Nat → Bool) {s : Input} (hplain : ∀ d ∈ s.queue, Plain d) :
    ∃ taken rest, s.queue = taken ++ rest ∧
      packetWatcherCb snapLength wouldBlock s =
        (⟨rest, s.registered⟩, handOvers snapLength taken) ∧
      (s.queue ≠ [] → taken ≠ []) := by
  obtain ⟨taken, rest, hsplit, hloop, hsome⟩ :=
    dispatchLoop_takes hs hs' wouldBlock pcapDispatchPacketCount s.queue 0 hplain
  refine ⟨taken, rest, hsplit, ?_, fun h => hsome h (by decide)⟩
  rw [packetWatcherCb, socketDispatchInet, hloop]
  dsimp only
  rw [if_neg (Int.not_lt.mpr (Int.natCast_nonneg _))]

/-! ## Runs -/

theorem arrivals_append (es fs : List Event) :
    arrivals (es ++ fs) = arrivals es ++ arrivals fs :=
  List.filterMap_append

/-- What holds behind every run of plain datagrams: the watcher is registered,
    and all datagrams but those that wait were taken and handed over. -/
structure Sound (snapLength : Nat) (ds : List Datagram) (s : Input)
    (out : List Handed) : Prop where
  registered : s.registered = true
  taken : ∃ taken, ds = taken ++ s.queue ∧ out = handOvers snapLength taken

theorem step_sound (hs : 0 < snapLength) (hs' : snapLength < 65536) {ds : List Datagram}
    {s s' : Input} {out out' : List Handed} (h : Sound snapLength ds s out)
    (hplain : ∀ d ∈ ds, Plain d) {e : Event}
    (hstep : step snapLength s e = some (s', out')) :
    Sound snapLength (ds ++ e.arrival.toList) s' (out ++ out') := by
  obtain ⟨hreg, taken, hds, hout⟩ := h
  cases e with
  | arrive d =>
      obtain ⟨rfl, rfl⟩ := Prod.mk.inj (Option.some.inj hstep)
      refine ⟨hreg, taken, ?_, by rw [hout, List.append_nil]⟩
      show ds ++ [d] = taken ++ (s.queue ++ [d])
      rw [hds, List.append_assoc]
  | packetWatcherCb wouldBlock =>
      have hqueue : ∀ d ∈ s.queue, Plain d := by
        intro d hd
        exact hplain d (hds ▸ List.mem_append_right taken hd)
      obtain ⟨taken', rest, hsplit, hcb, -⟩ :=
        packetWatcherCb_takes hs hs' wouldBlock hqueue
      rw [step, if_pos hreg, hcb] at hstep
      obtain ⟨rfl, rfl⟩ := Prod.mk.inj (Option.some.inj hstep)
      refine ⟨hreg, taken ++ taken', ?_, by rw [hout, handOvers_append]⟩
      show ds ++ [] = taken ++ taken' ++ rest
      rw [List.append_nil, hds, hsplit, List.append_assoc]

theorem run_sound (hs : 0 < snapLength) (hs' : snapLength < 65536) {es : List Event}
    (hplain : ∀ d ∈ arrivals es, Plain d) {s : Input} {out : List Handed}
    (h : run (step snapLength) openSocketInet es = some (s, out)) :
    Sound snapLength (arrivals es) s out := by
  refine run_rule (P := fun es s out => (∀ d ∈ arrivals es, Plain d) →
    Sound snapLength (arrivals es) s out) ?_ ?_ h hplain
  · intro _
    exact ⟨rfl, [], rfl, rfl⟩
  · intro es s out e s' out' ih hstep hplain
    have hsplit : arrivals (es ++ [e]) = arrivals es ++ e.arrival.toList := by
      rw [arrivals_append]
      cases e <;> rfl
    have hplain' : ∀ d ∈ arrivals es, Plain d := fun d hd =>
      hplain d (hsplit ▸ List.mem_append_left _ hd)
    rw [hsplit]
    exact step_sound hs hs' (ih hplain') hplain' hstep

/-- As many calls as datagrams wait empty the queue. -/
theorem run_drains (hs : 0 < snapLength) (hs' : snapLength < 65536) {calls : List Event}
    (hcalls : arrivals calls = []) {s t : Input} {out : List Handed}
    (hreg : s.registered = true) (hplain : ∀ d ∈ s.queue, Plain d)
    (hlen : s.queue.length ≤ calls.length)
    (h : run (step snapLength) s calls = some (t, out)) : t.queue = [] := by
  induction calls generalizing s out with
  | nil =>
      obtain ⟨rfl, -⟩ := Prod.mk.inj (Option.some.inj h)
      exact List.length_eq_zero_iff.mp (Nat.le_zero.mp hlen)
  | cons e calls ih =>
      obtain ⟨s₁, out₁, out₂, hstep, hrun, -⟩ := run_cons_eq_some.mp h
      cases e with
      | arrive d => exact absurd hcalls (List.cons_ne_nil d (arrivals calls))
      | packetWatcherCb wouldBlock =>
          obtain ⟨taken, rest, hsplit, hcb, hsome⟩ :=
            packetWatcherCb_takes hs hs' wouldBlock hplain
          rw [step, if_pos hreg, hcb] at hstep
          obtain ⟨rfl, -⟩ := Prod.mk.inj (Option.some.inj hstep)
          have hrest : ∀ d ∈ rest, Plain d := fun d hd =>
            hplain d (hsplit ▸ List.mem_append_right taken hd)
          refine ih hcalls (s := ⟨rest, s.registered⟩) hreg hrest ?_ hrun
          -- the call took one datagram, or the queue was empty before it
          have hcount : s.queue.length = taken.length + rest.length := by
            rw [hsplit, List.length_append]
          rw [List.length_cons] at hlen
          by_cases hempty : s.queue = []
          · rw [hempty, List.length_nil] at hcount
            show rest.length ≤ calls.length
            omega
          · have := List.length_pos_of_ne_nil (hsome hempty)
            show rest.length ≤ calls.length
            omega

/-- As many calls as datagrams came hand over all of them. -/
theorem run_completes (hs : 0 < snapLength) (hs' : snapLength < 65536)
    {es calls : List Event} (hplain : ∀ d ∈ arrivals es, Plain d)
    (hcalls : arrivals calls = []) (hlen : (arrivals es).length ≤ calls.length)
    {t : Input} {out : List Handed}
    (h : run (step snapLength) openSocketInet (es ++ calls) = some (t, out)) :
    t = ⟨[], true⟩ ∧ out = handOvers snapLength (arrivals es) := by
  have hall : arrivals (es ++ calls) = arrivals es := by
    rw [arrivals_append, hcalls, List.append_nil]
  obtain ⟨s, out₁, out₂, h₁, h₂, -⟩ := run_append_eq_some.mp h
  obtain ⟨hreg, before, hes, -⟩ := run_sound hs hs' hplain h₁
  -- no more can wait before the calls than came
  have hwait : s.queue.length ≤ calls.length := by
    rw [hes, List.length_append] at hlen
    omega
  have hempty : t.queue = [] := run_drains hs hs' hcalls hreg
    (fun d hd => hplain d (hes ▸ List.mem_append_right before hd)) hwait h₂
  obtain ⟨hreg', taken, htaken, hout⟩ := run_sound hs hs' (hall.symm ▸ hplain) h
  rw [hall, hempty, List.append_nil] at htaken
  obtain ⟨queue, registered⟩ := t
  exact ⟨congrArg₂ Input.mk hempty hreg', by rw [hout, ← htaken]⟩

/-- On plain datagrams the input survives. -/
theorem plain_survives (hs : 0 < snapLength) (hs' : snapLength < 65536)
    {ds : List Datagram} (hplain : ∀ d ∈ ds, Plain d) : Survives snapLength ds := by
  have sound : ∀ es s out, arrivals es <+: ds →
      run (step snapLength) openSocketInet es = some (s, out) →
        Sound snapLength (arrivals es) s out := by
    intro es s out hpre h
    exact run_sound hs hs' (fun d hd => hplain d (hpre.subset hd)) h
  refine ⟨fun es s out hpre h => (sound es s out hpre h).registered, ?_, ?_⟩
  · intro es s out hpre h
    obtain ⟨taken, hes, hout⟩ := (sound es s out hpre h).taken
    rw [hout, ← handOvers_append, ← hes]
  · intro es calls t out hes hcalls hlen h
    have := run_completes hs hs' (hes.symm ▸ hplain) hcalls (hes.symm ▸ hlen) h
    rw [this.2, hes]

/-! ## Datagrams that are not -/

/-- Called on a single datagram that is not plain, the watcher deregisters
    itself, or hands over another length. -/
theorem packetWatcherCb_special (hs : 0 < snapLength) (hs' : snapLength < 65536)
    {d : Datagram} (hd : ¬ Plain d) :
    (packetWatcherCb snapLength (fun _ => false) ⟨[d], true⟩).1.registered = false ∨
      ∃ handed, packetWatcherCb snapLength (fun _ => false) ⟨[d], true⟩ =
        (⟨[], true⟩, [handed]) ∧ handed.hdr.len ≠ d.length ∧ d ≠ [] := by
  rw [packetWatcherCb, socketDispatchInet, dispatchLoop, if_pos (Or.inl (by decide))]
  dsimp only
  by_cases hzero : u32 d.length = 0
  · rw [if_pos hzero]
    exact Or.inl rfl
  · rw [if_neg hzero]
    by_cases hminus : u32 d.length = 4294967295
    · rw [if_pos hminus]
      exact Or.inl rfl
    · -- neither special value: the length does not fit into `hdr.len`
      have hlong : 4294967296 ≤ d.length := by
        by_contra hshort
        have hmod : u32 d.length = d.length := Nat.mod_eq_of_lt (by omega)
        rw [hmod] at hzero hminus
        exact hd ⟨by omega, by omega⟩
      have hcap : u32 (d.take snapLength).length = snapLength := by
        rw [List.length_take, Nat.min_eq_left (by omega)]
        exact Nat.mod_eq_of_lt (by omega)
      have hpos : ¬ snapLength = 0 := by omega
      have hlow : ¬ snapLength = 4294967295 := by omega
      rw [if_neg hminus, hcap, if_neg hpos, if_neg hlow]
      refine Or.inr ⟨_, rfl, ?_, List.ne_nil_of_length_pos (by omega)⟩
      have : u32 d.length < 4294967296 := Nat.mod_lt _ (by decide)
      show u32 d.length ≠ d.length
      omega

/-- Every run is defined. -/
theorem run_defined (s : Input) (es : List Event) :
    ∃ t out, run (step snapLength) s es = some (t, out) := by
  induction es generalizing s with
  | nil => exact ⟨s, [], rfl⟩
  | cons e es ih =>
      obtain ⟨s₁, out₁, h₁⟩ : ∃ s₁ out₁, step snapLength s e = some (s₁, out₁) := by
        cases e <;> exact ⟨_, _, rfl⟩
      obtain ⟨t, out₂, h₂⟩ := ih s₁
      exact ⟨t, out₁ ++ out₂, run_cons_eq_some.mpr ⟨s₁, out₁, out₂, h₁, h₂, rfl⟩⟩

/-- Plain datagrams can come and be drained, and leave the input as it was. -/
theorem run_plain (hs : 0 < snapLength) (hs' : snapLength < 65536) {pre : List Datagram}
    (hpre : ∀ b ∈ pre, Plain b) :
    ∃ es, arrivals es = pre ∧
      run (step snapLength) openSocketInet es = some (⟨[], true⟩, handOvers snapLength pre) := by
  -- the datagrams, then a call for each
  let es := pre.map Event.arrive
  let calls := List.replicate pre.length (Event.packetWatcherCb fun _ => false)
  have hes : arrivals es = pre := by
    show (pre.map Event.arrive).filterMap Event.arrival = pre
    rw [List.filterMap_map]
    exact List.filterMap_some
  have hcalls : arrivals calls = [] :=
    List.filterMap_eq_nil_iff.mpr fun e he => by rw [List.eq_of_mem_replicate he]; rfl
  obtain ⟨s, out, hrun⟩ : ∃ s out,
      run (step snapLength) openSocketInet (es ++ calls) = some (s, out) :=
    run_defined openSocketInet (es ++ calls)
  obtain ⟨rfl, rfl⟩ := run_completes hs hs' (hes.symm ▸ hpre) hcalls
    (Nat.le_of_eq (by rw [hes, List.length_replicate])) hrun
  refine ⟨es ++ calls, ?_, ?_⟩
  · rw [arrivals_append, hes, hcalls, List.append_nil]
  · rw [hrun, hes]

/-- Where a datagram is not plain, some run stops the watcher or hands over a
    wrong length. -/
theorem special_not_survives (hs : 0 < snapLength) (hs' : snapLength < 65536)
    {pre post : List Datagram} {d : Datagram} (hpre : ∀ b ∈ pre, Plain b)
    (hd : ¬ Plain d) : ¬ Survives snapLength (pre ++ d :: post) := by
  intro h
  let call : Event := .packetWatcherCb (fun _ => false)
  obtain ⟨es, hes, hrun⟩ := run_plain hs hs' hpre
  have hall : arrivals (es ++ [.arrive d, call]) = pre ++ [d] := by
    rw [arrivals_append, hes]
    rfl
  have hprefix : arrivals (es ++ [.arrive d, call]) <+: pre ++ d :: post :=
    hall ▸ ⟨post, by rw [List.append_assoc, List.singleton_append]⟩
  have harrive : step snapLength ⟨[], true⟩ (.arrive d) = some (⟨[d], true⟩, []) := rfl
  obtain ⟨t, out', hcall⟩ : ∃ t out', step snapLength ⟨[d], true⟩ call = some (t, out') :=
    ⟨_, _, rfl⟩
  have hlast : run (step snapLength) openSocketInet (es ++ [.arrive d, call]) =
      some (t, handOvers snapLength pre ++ out') := by
    refine run_append_eq_some.mpr ⟨_, _, out', hrun, ?_, rfl⟩
    refine run_cons_eq_some.mpr ⟨_, [], out', harrive, ?_, rfl⟩
    exact run_cons_eq_some.mpr ⟨t, out', [], hcall, rfl, (List.append_nil out').symm⟩
  have heq : packetWatcherCb snapLength (fun _ => false) ⟨[d], true⟩ = (t, out') :=
    Option.some.inj hcall
  rcases packetWatcherCb_special hs hs' hd with hstop | ⟨handed, hcb, hlen, hne⟩
  · -- the watcher is gone
    rw [heq] at hstop
    have := h.registered _ _ _ hprefix hlast
    rw [this] at hstop
    cases hstop
  · -- the header tells another length
    rw [heq] at hcb
    obtain ⟨rfl, rfl⟩ := Prod.mk.inj hcb
    have horder := h.inOrder _ _ _ hprefix hlast
    rw [hall, handOvers_append, List.append_assoc] at horder
    have hsame : [handed] ++ handOvers snapLength [] = handOvers snapLength [d] :=
      List.append_cancel_left horder
    have hone : handOvers snapLength [d] = [handOver snapLength d] := by
      rw [handOvers, List.filter_cons_of_pos (by simpa using hne), List.filter_nil,
        List.map_singleton]
    rw [hone] at hsame
    obtain rfl : handed = handOver snapLength d := List.head_eq_of_cons_eq hsame
    exact hlen rfl

/-- **A UDP INPUT SURVIVES EXACTLY THE PLAIN DATAGRAMS**: those that have bytes,
    and fewer than `(uint32_t) -1`. -/
theorem survives_iff (snapLength : Nat) (hs : 0 < snapLength) (hs' : snapLength < 65536)
    (ds : List Datagram) :
    Survives snapLength ds ↔ ∀ d ∈ ds, 0 < d.length ∧ d.length < 4294967295 := by
  constructor
  · intro h
    rcases Cut.forall_or_first Plain ds with hplain | ⟨pre, d, post, rfl, hpre, hd⟩
    · exact hplain
    · exact absurd h (special_not_survives hs hs' hpre hd)
  · exact plain_survives hs hs'

/-- The default snap length and two datagrams with bytes. -/
theorem survives_two : Survives 80 [[1, 2, 3], [4]] ↔
    ∀ d ∈ ([[1, 2, 3], [4]] : List Datagram), 0 < d.length ∧ d.length < 4294967295 :=
  survives_iff 80 (by decide) (by decide) _

/-- **A DATAGRAM WITHOUT BYTES SWITCHES THE INPUT OFF**: the peek's 0 is taken
    for the end of a connection. -/
theorem empty_datagram_switches_off : ¬ Survives 80 [[]] := by
  intro h
  have := h.registered [.arrive [], .packetWatcherCb (fun _ => false)] ⟨[[]], false⟩ []
    (List.prefix_refl _) rfl
  cases this

end Impd4e.SocketHandler
