import Impd4e.CString
import Impd4e.Lib.Machine

/-! # The network console

    The registry of command callbacks and the list of connections of netcon.c:
    `netcon_register` appends a callback, `netcon_resync` brings the connection
    list in line with the collector's descriptor, `read_cb` takes what a
    connection received and gives it, trimmed, to the callbacks. -/

namespace Impd4e.Console

open Machine Impd4e.CString

variable {Cmd : Type}

abbrev netconCmdMatched : Int := 1
abbrev netconCmdUnknown : Int := 0
abbrev bufferSize : Nat := 1024

/-! ## State -/

/-- `struct connection`: its descriptor, the descriptor its read watcher runs
    on (if it runs), and the bytes of `in_buf` between `in_pos.rd` and
    `in_pos.wr`.  Connections of the list are made by `netcon_resync` only, so
    `sync` is always set; nothing installs `accept_cb`. -/
structure Connection where
  fd : Int
  evRead : Option Int
  inBuf : List UInt8
  deriving DecidableEq, Repr

/-- `struct netcon`: the two linked lists. -/
structure Netcon (Cmd : Type) where
  reg : List Cmd
  conn : List Connection
  deriving DecidableEq, Repr

/-- `netcon` as the program starts with it. -/
def zeroNetcon : Netcon Cmd := ⟨[], []⟩

/-- `netcon_register`; `calloc` tells whether the allocation succeeds. -/
def netconRegister (s : Netcon Cmd) (cmd : Option Cmd) (calloc : Bool) : Netcon Cmd :=
  match cmd with
  | none => s
  | some cmd => if calloc then { s with reg := s.reg ++ [cmd] } else s

/-- `netcon_init`, up to its first `return`; what follows there is never run. -/
def netconInit (s : Netcon Cmd) : Netcon Cmd :=
  { s with reg := [], conn := [] }

/-- `config_handler_init`, as far as it touches the console. -/
def configHandlerInit (runtimeConfigurationCb : Cmd) (calloc : Bool) (s : Netcon Cmd) :
    Netcon Cmd :=
  netconRegister s (some runtimeConfigurationCb) calloc

/-- The initialisation in `main`.  `event_loop_init` before it and
    `export_handler_init` behind it do not touch `netcon`. -/
def mainInit (runtimeConfigurationCb : Cmd) (calloc : Bool) : Netcon Cmd :=
  netconInit (configHandlerInit runtimeConfigurationCb calloc zeroNetcon)

/-! ## Connections -/

/-- The second walk of `netcon_resync`: take the first slot without descriptor,
    or append a new connection. -/
def setupConnection (fd : Int) (calloc : Bool) : List Connection → List Connection
  | [] => if calloc then [⟨fd, some fd, []⟩] else []
  | conn :: rest =>
      if conn.fd = -1 then { conn with fd := fd, evRead := some fd } :: rest
      else conn :: setupConnection fd calloc rest

/-- `netcon_resync`.  A negative descriptor closes all connections, but stops
    no watcher. -/
def netconResync (s : Netcon Cmd) (fd : Int) (calloc : Bool) : Netcon Cmd :=
  if fd < 0 then
    { s with conn := s.conn.map fun conn =>
        if 0 < conn.fd then { conn with fd := -1 } else conn }
  else if s.conn.any (fun conn => conn.fd == fd) then s
  else { s with conn := setupConnection fd calloc s.conn }

/-- `connection_close` of a sync connection. -/
def connectionClose (conn : Connection) : Connection :=
  { conn with fd := -1, evRead := none }

/-! ## Messages -/

/-- The `do … while` of `connection_read`: cut `msg` at `len`, look at the byte
    before it.  `none` is the look at `msg[-1]`. -/
def trimLoop (msg : List UInt8) : Nat → Option (List UInt8)
  | 0 => none
  | len + 1 =>
      match msg[len]? with
      | none => none
      | some c => if iscntrl c then trimLoop msg len else some (msg.take (len + 1))

/-- The loop over the registry: every callback called, in order, and the last
    result.  `answer k` is what the `k`-th callback called returns. -/
def executeLoop (answer : Nat → Int) : Nat → Int → List Cmd → List Cmd × Int
  | _, res, [] => ([], res)
  | k, res, cmd :: next =>
      if res ≠ netconCmdMatched then
        let rest := executeLoop answer (k + 1) (answer k) next
        (cmd :: rest.1, rest.2)
      else ([], res)

/-- A message given to the callbacks: its text, the callbacks it was offered to
    and the last result. -/
structure Dispatch (Cmd : Type) where
  msg : List UInt8
  offered : List Cmd
  res : Int
  deriving DecidableEq, Repr

/-- `connection_read` -/
def connectionRead (reg : List Cmd) (answer : Nat → Int) (conn : Connection) :
    Option (Connection × Dispatch Cmd) :=
  match trimLoop (strncpy conn.inBuf conn.inBuf.length) conn.inBuf.length with
  | none => none
  | some msg =>
      let executed := executeLoop answer 0 netconCmdUnknown reg
      some ({ conn with inBuf := [] }, ⟨msg, executed.1, executed.2⟩)

/-- The bits of `revents` that `read_cb` looks at. -/
structure Revents where
  error : Bool
  read : Bool
  deriving DecidableEq, Repr

/-- `read_cb`; `received` is what `read` finds, nothing for an end of file or an
    error. -/
def readCb (reg : List Cmd) (answer : Nat → Int) (revents : Revents)
    (received : List UInt8) (conn : Connection) :
    Option (Connection × List (Dispatch Cmd)) :=
  let maxlen := bufferSize - conn.inBuf.length
  if revents.error then some (conn, [])
  else if maxlen = 0 then
    (connectionRead reg answer conn).map fun r => (r.1, [r.2])
  else if revents.read then
    let bytes := received.take maxlen
    if bytes.length = 0 then some (connectionClose conn, [])
    else
      (connectionRead reg answer { conn with inBuf := conn.inBuf ++ bytes }).map fun r =>
        (r.1, [r.2])
  else some (conn, [])

/-! ## Steps -/

/-- What the console reacts to. -/
inductive Event (Cmd : Type) where
  | netconRegister (cmd : Option Cmd) (calloc : Bool)
  | netconResync (fd : Int) (calloc : Bool)
  | readCb (i : Nat) (answer : Nat → Int) (revents : Revents) (received : List UInt8)

/-- One event; the outputs are the messages given to the callbacks. -/
def step (s : Netcon Cmd) : Event Cmd → Option (Netcon Cmd × List (Dispatch Cmd))
  | .netconRegister cmd calloc => some (netconRegister s cmd calloc, [])
  | .netconResync fd calloc => some (netconResync s fd calloc, [])
  | .readCb i answer revents received =>
      match s.conn[i]? with
      | none => none
      | some conn =>
          match readCb s.reg answer revents received conn with
          | none => none
          | some (conn', dispatched) =>
              some ({ s with conn := s.conn.set i conn' }, dispatched)

/-! ## What one step does to the registry -/

/-- The callback an event passes to `netcon_register`, unless it is NULL. -/
def Event.passed : Event Cmd → Option Cmd
  | .netconRegister cmd _ => cmd
  | .netconResync _ _ => none
  | .readCb _ _ _ _ => none

/-- The callback an event really appends. -/
def Event.installed : Event Cmd → Option Cmd
  | .netconRegister cmd calloc => if calloc then cmd else none
  | .netconResync _ _ => none
  | .readCb _ _ _ _ => none

/-- Every allocation of the registry succeeds. -/
def Event.Allocates : Event Cmd → Prop
  | .netconRegister _ calloc => calloc = true
  | .netconResync _ _ => True
  | .readCb _ _ _ _ => True

/-- What offering a message in registration order means: the callbacks asked
    are the first ones, none but the last of them matches, and the walk ends
    early only behind a match. -/
structure OfferedUntilMatched (answer : Nat → Int) (registered offered : List Cmd) :
    Prop where
  isPrefix : offered <+: registered
  unmatched : ∀ k, k + 1 < offered.length → answer k ≠ netconCmdMatched
  stopped : offered.length < registered.length →
    ∃ k, offered.length = k + 1 ∧ answer k = netconCmdMatched

/-- The loop behind the callback number `k`: like `OfferedUntilMatched`, with
    the result so far. -/
theorem executeLoop_offers (answer : Nat → Int) (reg : List Cmd) :
    ∀ (k : Nat) (res : Int),
      (executeLoop answer k res reg).1 <+: reg ∧
      (0 < (executeLoop answer k res reg).1.length → res ≠ netconCmdMatched) ∧
      (∀ j, j + 1 < (executeLoop answer k res reg).1.length →
        answer (k + j) ≠ netconCmdMatched) ∧
      ((executeLoop answer k res reg).1.length < reg.length →
        ((executeLoop answer k res reg).1.length = 0 ∧ res = netconCmdMatched) ∨
        ∃ j, (executeLoop answer k res reg).1.length = j + 1 ∧
          answer (k + j) = netconCmdMatched) := by
  induction reg with
  | nil =>
      intro k res
      exact ⟨List.prefix_refl _, fun h => absurd h (Nat.lt_irrefl 0),
        fun j h => absurd h (Nat.not_lt_zero _), fun h => absurd h (Nat.lt_irrefl 0)⟩
  | cons cmd next ih =>
      intro k res
      -- the loop asks `cmd` only if the callback before it did not match
      by_cases hres : res ≠ netconCmdMatched
      · obtain ⟨hpre, hfirst, hmid, hend⟩ := ih (k + 1) (answer k)
        rw [executeLoop, if_pos hres]
        refine ⟨(List.prefix_cons_inj cmd).mpr hpre, fun _ => hres, ?_, ?_⟩
        · intro j hj
          cases j with
          | zero => exact hfirst (Nat.lt_of_succ_lt_succ hj)
          | succ j =>
              have := hmid j (Nat.lt_of_succ_lt_succ hj)
              rwa [show k + 1 + j = k + (j + 1) by omega] at this
        · intro hlt
          refine Or.inr ?_
          rcases hend (Nat.lt_of_succ_lt_succ hlt) with ⟨hzero, hmatch⟩ | ⟨j, hlen, hmatch⟩
          · exact ⟨0, congrArg (· + 1) hzero, hmatch⟩
          · refine ⟨j + 1, congrArg (· + 1) hlen, ?_⟩
            rwa [show k + (j + 1) = k + 1 + j by omega]
      · rw [executeLoop, if_neg hres]
        exact ⟨List.nil_prefix, fun h => absurd h (Nat.lt_irrefl 0),
          fun j h => absurd h (Nat.not_lt_zero _),
          fun _ => Or.inl ⟨rfl, not_not.mp hres⟩⟩

/-- **DISPATCH** — `connection_read` offers its message to the registry in
    order, until a callback matches. -/
theorem connectionRead_offers {reg : List Cmd} {answer : Nat → Int}
    {conn conn' : Connection} {d : Dispatch Cmd}
    (h : connectionRead reg answer conn = some (conn', d)) :
    OfferedUntilMatched answer reg d.offered := by
  unfold connectionRead at h
  cases ht : trimLoop (strncpy conn.inBuf conn.inBuf.length) conn.inBuf.length with
  | none => rw [ht] at h; exact nomatch h
  | some msg =>
      rw [ht] at h
      obtain ⟨-, rfl⟩ := Prod.mk.inj (Option.some.inj h)
      obtain ⟨hpre, -, hmid, hend⟩ := executeLoop_offers answer reg 0 netconCmdUnknown
      refine ⟨hpre, fun k hk => ?_, fun hlt => ?_⟩
      · have := hmid k hk
        rwa [Nat.zero_add] at this
      · -- the loop starts unmatched, so it asks at least one callback
        rcases hend hlt with ⟨-, hmatch⟩ | ⟨j, hlen, hmatch⟩
        · exact absurd hmatch (by decide)
        · rw [Nat.zero_add] at hmatch
          exact ⟨j, hlen, hmatch⟩

/-- A read event leaves the connection, closes it, or makes one message of what
    the buffer holds then. -/
theorem readCb_cases {reg : List Cmd} {answer : Nat → Int} {revents : Revents}
    {received : List UInt8} {conn conn' : Connection} {out : List (Dispatch Cmd)}
    (h : readCb reg answer revents received conn = some (conn', out)) :
    (conn' = conn ∧ out = []) ∨ (conn' = connectionClose conn ∧ out = []) ∨
      ∃ inBuf d, connectionRead reg answer { conn with inBuf := inBuf } = some (conn', d) ∧
        conn' = { conn with inBuf := [] } ∧ out = [d] := by
  have read : ∀ inBuf : List UInt8,
      (connectionRead reg answer { conn with inBuf := inBuf }).map (fun r => (r.1, [r.2])) =
          some (conn', out) →
        ∃ inBuf d, connectionRead reg answer { conn with inBuf := inBuf } = some (conn', d) ∧
          conn' = { conn with inBuf := [] } ∧ out = [d] := by
    intro inBuf hc
    obtain ⟨⟨c, d⟩, hr, heq⟩ := Option.map_eq_some_iff.mp hc
    obtain ⟨rfl, rfl⟩ := Prod.mk.inj heq
    refine ⟨inBuf, d, hr, ?_, rfl⟩
    rw [connectionRead] at hr
    cases ht : trimLoop (strncpy inBuf inBuf.length) inBuf.length with
    | none => rw [ht] at hr; cases hr
    | some msg =>
        rw [ht] at hr
        obtain ⟨rfl, -⟩ := Prod.mk.inj (Option.some.inj hr)
        rfl
  have silent : ∀ c : Connection, some (c, ([] : List (Dispatch Cmd))) = some (conn', out) →
      conn' = c ∧ out = [] := by
    intro c hc
    obtain ⟨rfl, rfl⟩ := Prod.mk.inj (Option.some.inj hc)
    exact ⟨rfl, rfl⟩
  unfold readCb at h
  by_cases herr : revents.error = true
  · exact Or.inl (silent conn ((if_pos herr).symm.trans h))
  · rw [if_neg herr] at h
    by_cases hfull : bufferSize - conn.inBuf.length = 0
    · exact Or.inr (Or.inr (read conn.inBuf ((if_pos hfull).symm.trans h)))
    · rw [if_neg hfull] at h
      by_cases hread : revents.read = true
      · rw [if_pos hread] at h
        by_cases hempty : (received.take (bufferSize - conn.inBuf.length)).length = 0
        · exact Or.inr (Or.inl
            (silent (connectionClose conn) ((if_pos hempty).symm.trans h)))
        · exact Or.inr (Or.inr (read _ ((if_neg hempty).symm.trans h)))
      · exact Or.inl (silent conn ((if_neg hread).symm.trans h))

theorem readCb_offers {reg : List Cmd} {answer : Nat → Int} {revents : Revents}
    {received : List UInt8} {conn conn' : Connection} {out : List (Dispatch Cmd)}
    (h : readCb reg answer revents received conn = some (conn', out)) {d : Dispatch Cmd}
    (hd : d ∈ out) : OfferedUntilMatched answer reg d.offered := by
  rcases readCb_cases h with ⟨-, rfl⟩ | ⟨-, rfl⟩ | ⟨inBuf, d', hread, -, rfl⟩
  · exact absurd hd List.not_mem_nil
  · exact absurd hd List.not_mem_nil
  · obtain rfl := List.mem_singleton.mp hd
    exact connectionRead_offers hread

/-- A read event changes its own connection only. -/
theorem step_readCb_eq_some {s s' : Netcon Cmd} {i : Nat} {answer : Nat → Int}
    {revents : Revents} {received : List UInt8} {out : List (Dispatch Cmd)} :
    step s (.readCb i answer revents received) = some (s', out) ↔
      ∃ conn conn', s.conn[i]? = some conn ∧
        readCb s.reg answer revents received conn = some (conn', out) ∧
        s' = { s with conn := s.conn.set i conn' } := by
  constructor
  · intro h
    rw [step] at h
    cases hconn : s.conn[i]? with
    | none => rw [hconn] at h; cases h
    | some conn =>
        simp only [hconn] at h
        cases hread : readCb s.reg answer revents received conn with
        | none => rw [hread] at h; cases h
        | some r =>
            simp only [hread] at h
            obtain ⟨rfl, rfl⟩ := Prod.mk.inj (Option.some.inj h)
            exact ⟨conn, r.1, rfl, hread, rfl⟩
  · rintro ⟨conn, conn', hconn, hread, rfl⟩
    rw [step, hconn]
    dsimp only
    rw [hread]

/-- Registration appends, and nothing else touches the registry. -/
theorem step_reg {s s' : Netcon Cmd} {e : Event Cmd} {out : List (Dispatch Cmd)}
    (h : step s e = some (s', out)) : s'.reg = s.reg ++ e.installed.toList := by
  cases e with
  | netconRegister cmd calloc =>
      obtain ⟨rfl, -⟩ := Prod.mk.inj (Option.some.inj h)
      cases cmd with
      | none =>
          show s.reg = s.reg ++ (if calloc = true then none else none).toList
          rw [ite_self]
          exact (List.append_nil _).symm
      | some cmd =>
          cases calloc with
          | true => rfl
          | false => exact (List.append_nil _).symm
  | netconResync fd calloc =>
      obtain ⟨rfl, -⟩ := Prod.mk.inj (Option.some.inj h)
      -- closing, finding and setting up a connection leave `reg` alone
      refine Eq.trans ?_ (List.append_nil _).symm
      rw [netconResync]
      split
      · rfl
      · split <;> rfl
  | readCb i answer revents received =>
      refine Eq.trans ?_ (List.append_nil _).symm
      obtain ⟨conn, conn', -, -, rfl⟩ := step_readCb_eq_some.mp h
      rfl

/-- Every message is offered to the registry in order. -/
theorem step_offers {s s' : Netcon Cmd} {i : Nat} {answer : Nat → Int} {revents : Revents}
    {received : List UInt8} {out : List (Dispatch Cmd)}
    (h : step s (.readCb i answer revents received) = some (s', out)) {d : Dispatch Cmd}
    (hd : d ∈ out) : OfferedUntilMatched answer s.reg d.offered := by
  obtain ⟨conn, conn', -, hread, -⟩ := step_readCb_eq_some.mp h
  exact readCb_offers hread hd

end Impd4e.Console
