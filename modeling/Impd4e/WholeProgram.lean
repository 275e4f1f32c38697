import Impd4e.CommandEntrances
import Impd4e.ConsoleCommands
import Impd4e.EventLoop
import Impd4e.Lib.Simulation

/-! # The whole program

    The event loop with both of its command entrances: bytes arrive on the
    collector's connections and on standard input, and the callbacks make
    commands of them.  `EventLoop` starts from the commands; every run of the
    program is a run of the event loop on the commands in its bytes.

    As `main` starts the program no byte of a collector is a command:
    `netcon_init` has emptied the registry, and it stays empty. -/

namespace Impd4e.WholeProgram

open Machine Impd4e.CString Impd4e.PacketHandler Impd4e.ExportHandler Impd4e.ConfigHandler
  Impd4e.EventLoop Impd4e.RuntimeMessages Impd4e.CommandEntrances
open Impd4e.Console (Netcon Connection Revents Dispatch readCb_cases step_readCb_eq_some
  netconCmdMatched netconCmdUnknown)

/-! ## State and events -/

/-- The callbacks anything in the program registers. -/
inductive Callback where
  | runtimeConfigurationCb
  deriving DecidableEq, Repr

structure Program where
  probe : Probe
  netcon : Netcon Callback

/-- The program as `main` enters the event loop. -/
def start (p : Probe) (calloc : Bool) : Program :=
  ⟨p, Console.mainInit .runtimeConfigurationCb calloc⟩

/-- What the event loop calls, with what is found on the descriptors. -/
inductive Event where
  | packet (i : Fin maxInterfaces) (ts : Timeval) (caplen : Nat) (frame : Nat → Option UInt8)
  | timer (timer : Timer) (t : Tick)
  /-- `user_input_cb` -/
  | userInput (libpcap : FilterOracle) (stdin : List UInt8)
  /-- `resync_timer_cb`, with the collector's descriptor -/
  | netconResync (fd : Int) (calloc : Bool)
  /-- `read_cb` on a connection -/
  | readCb (libpcap : FilterOracle) (accepted : Nat → Bool) (i : Nat) (revents : Revents)
      (received : List UInt8)

/-- What the program puts out: what the event loop does, and the answer to a
    command that changes nothing. -/
inductive Output where
  | probe (output : EventLoop.Output)
  | answered (outputs : List EventLoop.Output)

/-! ## Commands -/

/-- The answer to a call of a configuration function. -/
def answer (fct : SetCfgFct) (outputs : List EventLoop.Output) : List Output :=
  match fct with
  | .configuration _ => outputs.map Output.probe
  | .help => [.answered outputs]
  | .unknownCmdFct => [.answered outputs]

/-- The calls of a message, each answered with `export_data_sync`. -/
def carryOut [Libev] (libpcap : FilterOracle) (accepted : Nat → Bool) :
    List ConfigCall → Probe → Except Undefined (Probe × List Output)
  | [], p => .ok (p, [])
  | call :: calls, p =>
      match call.fct.call libpcap call.msg p with
      | .error u => .error u
      | .ok (p', reply) =>
          match carryOut libpcap accepted calls p' with
          | .error u => .error u
          | .ok (p'', out) => .ok (p'', answer call.fct (exportDataSync p' accepted reply) ++ out)

/-- A callback on a message: its result, and what it does to the probe. -/
def invoke [Libev] (libpcap : FilterOracle) (accepted : Nat → Bool) (msg : CStr) (p : Probe) :
    Callback → Except Undefined (Int × Probe × List Output)
  | .runtimeConfigurationCb =>
      match runtimeConfigurationCb msg with
      | .error u => .error u
      | .ok (res, calls) =>
          match carryOut libpcap accepted calls p with
          | .error u => .error u
          | .ok (p', out) => .ok (res, p', out)

/-- The loop of `connection_read` over the registry. -/
def execute [Libev] (libpcap : FilterOracle) (accepted : Nat → Bool) (msg : CStr) :
    Int → List Callback → Probe → Except Undefined (Probe × List Output)
  | _, [], p => .ok (p, [])
  | res, cb :: next, p =>
      if res ≠ netconCmdMatched then
        match invoke libpcap accepted msg p cb with
        | .error u => .error u
        | .ok (res', p', out) =>
            match execute libpcap accepted msg res' next p' with
            | .error u => .error u
            | .ok (p'', out') => .ok (p'', out ++ out')
      else .ok (p, [])

/-- One message after the other. -/
def executeAll [Libev] (libpcap : FilterOracle) (accepted : Nat → Bool) (reg : List Callback) :
    List CStr → Probe → Except Undefined (Probe × List Output)
  | [], p => .ok (p, [])
  | msg :: msgs, p =>
      match execute libpcap accepted msg netconCmdUnknown reg p with
      | .error u => .error u
      | .ok (p', out) =>
          match executeAll libpcap accepted reg msgs p' with
          | .error u => .error u
          | .ok (p'', out') => .ok (p'', out ++ out')

/-- What a read event makes of the connections, and the messages it finds.  The
    results of the callbacks have no part in that. -/
def messages (netcon : Netcon Callback) (i : Nat) (revents : Revents) (received : List UInt8) :
    Option (Netcon Callback × List CStr) :=
  (Console.step netcon (.readCb i (fun _ => netconCmdUnknown) revents received)).map fun r =>
    (r.1, r.2.map Dispatch.msg)

/-! ## One event -/

def liftStep [Libev] (s : Program) (event : EventLoop.Event) : Option (Program × List Output) :=
  match EventLoop.step s.probe event with
  | .error _ => none
  | .ok (p, out) => some ({ s with probe := p }, out.map Output.probe)

/-- `user_input_cb`; the program ends with `exit` or `quit`. -/
def userInput [Libev] (libpcap : FilterOracle) (stdin : List UInt8) (s : Program) :
    Option (Program × List Output) :=
  match userInputCb stdin with
  | .nothing => some (s, [])
  | .ignored => some (s, [])
  | .exit => none
  | .call call =>
      match call.fct.call libpcap call.msg s.probe with
      | .error _ => none
      | .ok (p, reply) => some ({ s with probe := p }, answer call.fct [.reply reply])

def step [Libev] (s : Program) : Event → Option (Program × List Output)
  | .packet i ts caplen frame => liftStep s (.packet i ts caplen frame)
  | .timer timer t => liftStep s (.timer timer t)
  | .userInput libpcap stdin => userInput libpcap stdin s
  | .netconResync fd calloc =>
      some ({ s with netcon := Console.netconResync s.netcon fd calloc }, [])
  | .readCb libpcap accepted i revents received =>
      match messages s.netcon i revents received with
      | none => none
      | some (netcon, msgs) =>
          match executeAll libpcap accepted netcon.reg msgs s.probe with
          | .error _ => none
          | .ok (p, out) => some (⟨p, netcon⟩, out)

/-! ## The commands in the bytes -/

/-- The event a call is for the event loop; help and unknown commands are none. -/
def ConfigCall.event (libpcap : FilterOracle) (accepted : Nat → Bool) (call : ConfigCall) :
    Option EventLoop.Event :=
  match call.fct with
  | .configuration cmd => some (.message libpcap cmd call.msg accepted)
  | .help => none
  | .unknownCmdFct => none

/-- The commands a message carries to a registry. -/
def commands (libpcap : FilterOracle) (accepted : Nat → Bool) (msg : CStr) :
    Int → List Callback → List EventLoop.Event
  | _, [] => []
  | res, .runtimeConfigurationCb :: next =>
      if res ≠ netconCmdMatched then
        match runtimeConfigurationCb msg with
        | .error _ => []
        | .ok (res', calls) =>
            calls.filterMap (ConfigCall.event libpcap accepted) ++
              commands libpcap accepted msg res' next
      else []

/-- The events of the event loop behind one event of the program. -/
def translate (s : Program) : Event → List EventLoop.Event
  | .packet i ts caplen frame => [.packet i ts caplen frame]
  | .timer timer t => [.timer timer t]
  | .userInput libpcap stdin =>
      match userInputCb stdin with
      | .call ⟨_, .configuration cmd, msg⟩ => [.userInput libpcap cmd msg]
      | _ => []
  | .netconResync _ _ => []
  | .readCb libpcap accepted i revents received =>
      match messages s.netcon i revents received with
      | none => []
      | some (netcon, msgs) =>
          msgs.flatMap fun msg => commands libpcap accepted msg netconCmdUnknown netcon.reg

/-- What of an output the event loop knows. -/
def Output.shown : Output → List EventLoop.Output
  | .probe output => [output]
  | .answered _ => []

theorem shown_probe (outputs : List EventLoop.Output) :
    (outputs.map Output.probe).flatMap Output.shown = outputs := by
  rw [List.flatMap_map]
  exact List.flatMap_singleton' outputs

/-! ## One step of the program, some of the event loop -/

section Refinement

variable {libpcap : FilterOracle} {accepted : Nat → Bool} {msg : CStr} {p p' : Probe}
  {out : List Output}

theorem probe_message [Libev] {cmd : Command} {reply : CStr}
    (h : cmd.call libpcap msg p = .ok (p', reply)) :
    EventLoop.probe p (.message libpcap cmd msg accepted)
      = some (p', exportDataSync p' accepted reply) := by
  refine probe_eq_some.mpr ?_
  rw [EventLoop.step, h]

/-- The calls of a message are runs of the event loop. -/
theorem carryOut_refines [Libev] {calls : List ConfigCall}
    (h : carryOut libpcap accepted calls p = .ok (p', out)) :
    run EventLoop.probe p (calls.filterMap (ConfigCall.event libpcap accepted))
      = some (p', out.flatMap Output.shown) := by
  induction calls generalizing p out with
  | nil =>
      obtain ⟨rfl, rfl⟩ := Prod.mk.inj (Except.ok.inj h)
      rfl
  | cons call calls ih =>
      rw [carryOut] at h
      split at h
      · cases h
      · rename_i p₁ reply hcall
        split at h
        · cases h
        · rename_i p₂ out₂ hrest
          obtain ⟨rfl, rfl⟩ := Prod.mk.inj (Except.ok.inj h)
          have hrun := ih hrest
          obtain ⟨mid, fct, arg⟩ := call
          rw [List.flatMap_append]
          -- only a command that changes something is an event
          cases fct with
          | help =>
              obtain ⟨rfl, -⟩ := Prod.mk.inj (Except.ok.inj hcall)
              exact hrun
          | unknownCmdFct =>
              obtain ⟨rfl, -⟩ := Prod.mk.inj (Except.ok.inj hcall)
              exact hrun
          | configuration cmd =>
              show run EventLoop.probe p (EventLoop.Event.message libpcap cmd arg accepted :: _) = _
              refine run_cons_eq_some.mpr ⟨p₁, _, _, probe_message hcall, hrun, ?_⟩
              rw [answer, shown_probe]

/-- So is the walk over the registry. -/
theorem execute_refines [Libev] {reg : List Callback} {res : Int}
    (h : execute libpcap accepted msg res reg p = .ok (p', out)) :
    run EventLoop.probe p (commands libpcap accepted msg res reg)
      = some (p', out.flatMap Output.shown) := by
  induction reg generalizing res p out with
  | nil =>
      obtain ⟨rfl, rfl⟩ := Prod.mk.inj (Except.ok.inj h)
      rfl
  | cons cb reg ih =>
      cases cb
      rw [execute] at h
      rw [commands]
      by_cases hres : res ≠ netconCmdMatched
      · rw [if_pos hres] at h ⊢
        rw [invoke] at h
        cases hparse : runtimeConfigurationCb msg with
        | error u => rw [hparse] at h; cases h
        | ok r =>
            obtain ⟨res', calls⟩ := r
            rw [hparse] at h
            dsimp only at h ⊢
            cases hcarry : carryOut libpcap accepted calls p with
            | error u => rw [hcarry] at h; cases h
            | ok q =>
                obtain ⟨p₁, out₁⟩ := q
                rw [hcarry] at h
                dsimp only at h
                split at h
                · cases h
                · rename_i p₂ out₂ hrest
                  obtain ⟨rfl, rfl⟩ := Prod.mk.inj (Except.ok.inj h)
                  refine run_append_eq_some.mpr
                    ⟨p₁, _, _, carryOut_refines hcarry, ih hrest, ?_⟩
                  rw [List.flatMap_append]
      · rw [if_neg hres] at h ⊢
        obtain ⟨rfl, rfl⟩ := Prod.mk.inj (Except.ok.inj h)
        rfl

theorem executeAll_refines [Libev] {reg : List Callback} {msgs : List CStr}
    (h : executeAll libpcap accepted reg msgs p = .ok (p', out)) :
    run EventLoop.probe p
        (msgs.flatMap fun msg => commands libpcap accepted msg netconCmdUnknown reg)
      = some (p', out.flatMap Output.shown) := by
  induction msgs generalizing p out with
  | nil =>
      obtain ⟨rfl, rfl⟩ := Prod.mk.inj (Except.ok.inj h)
      rfl
  | cons msg msgs ih =>
      rw [executeAll] at h
      split at h
      · cases h
      · rename_i p₁ out₁ hfirst
        split at h
        · cases h
        · rename_i p₂ out₂ hrest
          obtain ⟨rfl, rfl⟩ := Prod.mk.inj (Except.ok.inj h)
          rw [List.flatMap_cons]
          refine run_append_eq_some.mpr ⟨p₁, _, _, execute_refines hfirst, ih hrest, ?_⟩
          rw [List.flatMap_append]

theorem liftStep_refines [Libev] {s s' : Program} {event : EventLoop.Event}
    (h : liftStep s event = some (s', out)) :
    run EventLoop.probe s.probe [event] = some (s'.probe, out.flatMap Output.shown) := by
  rw [liftStep] at h
  split at h
  · cases h
  · rename_i p out' hstep
    obtain ⟨rfl, rfl⟩ := Prod.mk.inj (Option.some.inj h)
    rw [shown_probe]
    exact run_cons_eq_some.mpr
      ⟨p, out', [], probe_eq_some.mpr hstep, rfl, (List.append_nil out').symm⟩

theorem userInput_refines [Libev] {s s' : Program} {stdin : List UInt8}
    (h : userInput libpcap stdin s = some (s', out)) :
    run EventLoop.probe s.probe (translate s (.userInput libpcap stdin))
      = some (s'.probe, out.flatMap Output.shown) := by
  rw [userInput] at h
  rw [translate]
  cases hinput : userInputCb stdin with
  | nothing =>
      rw [hinput] at h
      obtain ⟨rfl, rfl⟩ := Prod.mk.inj (Option.some.inj h)
      rfl
  | ignored =>
      rw [hinput] at h
      obtain ⟨rfl, rfl⟩ := Prod.mk.inj (Option.some.inj h)
      rfl
  | exit => rw [hinput] at h; cases h
  | call call =>
      obtain ⟨mid, fct, arg⟩ := call
      rw [hinput] at h
      dsimp only at h
      split at h
      · cases h
      · rename_i p reply hcall
        obtain ⟨rfl, rfl⟩ := Prod.mk.inj (Option.some.inj h)
        cases fct with
        | help =>
            obtain ⟨rfl, -⟩ := Prod.mk.inj (Except.ok.inj hcall)
            rfl
        | unknownCmdFct =>
            obtain ⟨rfl, -⟩ := Prod.mk.inj (Except.ok.inj hcall)
            rfl
        | configuration cmd =>
            have hcall' : cmd.call libpcap arg s.probe = .ok (p, reply) := hcall
            have hstep : EventLoop.probe s.probe (.userInput libpcap cmd arg)
                = some (p, [.reply reply]) := by
              refine probe_eq_some.mpr ?_
              rw [EventLoop.step, hcall']
            exact run_cons_eq_some.mpr ⟨p, _, [], hstep, rfl, rfl⟩

theorem step_refines [Libev] {s s' : Program} {e : Event} (h : step s e = some (s', out)) :
    run EventLoop.probe s.probe (translate s e) = some (s'.probe, out.flatMap Output.shown) := by
  cases e with
  | packet i ts caplen frame => exact liftStep_refines h
  | timer timer t => exact liftStep_refines h
  | userInput libpcap stdin => exact userInput_refines h
  | netconResync fd calloc =>
      obtain ⟨rfl, rfl⟩ := Prod.mk.inj (Option.some.inj h)
      rfl
  | readCb libpcap accepted i revents received =>
      rw [step] at h
      rw [translate]
      split at h
      · cases h
      · split at h
        · cases h
        · rename_i p out' hall
          obtain ⟨rfl, rfl⟩ := Prod.mk.inj (Option.some.inj h)
          exact executeAll_refines hall

/-- **THE PROGRAM REFINES THE EVENT LOOP** — every run of the program is, for the
    probe, the run of the event loop on the packets, the ticks and the commands
    its bytes carry: it ends in the same probe and puts out the same. -/
theorem program_refines [Libev] {s s' : Program} {es : List Event}
    (h : run step s es = some (s', out)) :
    run EventLoop.probe s.probe (trace step translate s es)
      = some (s'.probe, out.flatMap Output.shown) := by
  have answers : ∀ s e t out (p : Probe), s.probe = p → step s e = some (t, out) →
      ∃ p' out', run EventLoop.probe p (translate s e) = some (p', out') ∧ t.probe = p' ∧
        out'.flatMap (fun output => [output]) = out.flatMap Output.shown := by
    rintro s e t out p rfl hstep
    exact ⟨t.probe, _, step_refines hstep, rfl, List.flatMap_singleton' _⟩
  obtain ⟨p', out', hrun, rfl, hview⟩ := run_simulates answers rfl h
  rw [List.flatMap_singleton'] at hview
  rw [← hview]
  exact hrun

end Refinement

section Repeating

open scoped Libev.Repeating

/-- A probe without devices, and a console with its callback. -/
def listening : Program :=
  ⟨startUp (fun _ => ⟨.raw, ⟨0, 0, 0, 0⟩, none, 3⟩) 0 (CmdLine.defaults fun _ => 0),
    Console.configHandlerInit .runtimeConfigurationCb true (Console.netconInit Console.zeroNetcon)⟩

/-- A collector connects and sets the lower end of the selection range. -/
def setMinimum : List Event :=
  [.netconResync 7 true,
    .readCb ⟨fun _ _ => true, fun _ _ => true⟩ (fun _ => true) 0 ⟨false, true⟩
      (str "mid: 1 -m 5\n")]

/-- It is one command for the event loop, and the range begins at 5. -/
theorem program_refines_minimum : ∃ s' out,
    run step listening setMinimum = some (s', out) ∧
      run EventLoop.probe listening.probe
          [.message ⟨fun _ _ => true, fun _ _ => true⟩ .m (str "5") (fun _ => true)]
        = some (s'.probe, out.flatMap Output.shown) ∧
      s'.probe.options.selRangeMin = 5 := by
  obtain ⟨s', out, hrun, hmin⟩ : ∃ s' out, run step listening setMinimum = some (s', out) ∧
      s'.probe.options.selRangeMin = 5 := ⟨_, _, rfl, rfl⟩
  exact ⟨s', out, hrun, program_refines hrun, hmin⟩

end Repeating

/-! ## The program as it is started -/

/-- Not an event of the console. -/
def isLocal : Event → Bool
  | .netconResync _ _ => false
  | .readCb _ _ _ _ _ => false
  | _ => true

section Deaf

variable {s t : Program} {e : Event} {out : List Output}

/-- No callback is asked where none is registered. -/
theorem executeAll_nil [Libev] (libpcap : FilterOracle) (accepted : Nat → Bool) (msgs : List CStr)
    (p : Probe) : executeAll libpcap accepted [] msgs p = .ok (p, []) := by
  induction msgs with
  | nil => rfl
  | cons msg msgs ih =>
      rw [executeAll, execute]
      dsimp only
      rw [ih]
      rfl

/-- Reading leaves the registry. -/
theorem messages_reg {netcon netcon' : Netcon Callback} {i : Nat} {revents : Revents}
    {received : List UInt8} {msgs : List CStr}
    (h : messages netcon i revents received = some (netcon', msgs)) :
    netcon'.reg = netcon.reg := by
  obtain ⟨⟨netcon'', dispatched⟩, hstep, heq⟩ := Option.map_eq_some_iff.mp h
  obtain ⟨rfl, rfl⟩ := Prod.mk.inj heq
  obtain ⟨conn, conn', -, -, rfl⟩ := step_readCb_eq_some.mp hstep
  rfl

/-- A console event leaves the probe and shows nothing. -/
theorem console_unseen [Libev] (he : isLocal e = false) (hreg : s.netcon.reg = [])
    (h : step s e = some (t, out)) :
    t.probe = s.probe ∧ t.netcon.reg = [] ∧ out = [] := by
  cases e with
  | packet i ts caplen frame => cases he
  | timer timer t => cases he
  | userInput libpcap stdin => cases he
  | netconResync fd calloc =>
      obtain ⟨rfl, rfl⟩ := Prod.mk.inj (Option.some.inj h)
      refine ⟨rfl, ?_, rfl⟩
      show (Console.netconResync s.netcon fd calloc).reg = []
      rw [Console.netconResync]
      split
      · exact hreg
      · split
        · exact hreg
        · exact hreg
  | readCb libpcap accepted i revents received =>
      rw [step] at h
      split at h
      · cases h
      · rename_i netcon msgs hmessages
        have hreg' : netcon.reg = [] := (messages_reg hmessages).trans hreg
        rw [hreg', executeAll_nil] at h
        obtain ⟨rfl, rfl⟩ := Prod.mk.inj (Option.some.inj h)
        exact ⟨rfl, hreg', rfl⟩

theorem liftStep_local [Libev] {event : EventLoop.Event} (h : liftStep s event = some (t, out)) :
    t.netcon = s.netcon ∧
      ∀ netcon, liftStep ⟨s.probe, netcon⟩ event = some (⟨t.probe, netcon⟩, out) := by
  rw [liftStep] at h
  split at h
  · cases h
  · rename_i p out' hstep
    obtain ⟨rfl, rfl⟩ := Prod.mk.inj (Option.some.inj h)
    refine ⟨rfl, fun netcon => ?_⟩
    rw [liftStep, hstep]

/-- Any other event knows nothing of the console. -/
theorem step_local [Libev] (he : isLocal e = true) (h : step s e = some (t, out)) :
    t.netcon = s.netcon ∧ ∀ netcon, step ⟨s.probe, netcon⟩ e = some (⟨t.probe, netcon⟩, out) := by
  cases e with
  | netconResync fd calloc => cases he
  | readCb libpcap accepted i revents received => cases he
  | packet i ts caplen frame => exact liftStep_local h
  | timer timer t => exact liftStep_local h
  | userInput libpcap stdin =>
      rw [step, userInput] at h
      cases hinput : userInputCb stdin with
      | exit => rw [hinput] at h; cases h
      | nothing =>
          rw [hinput] at h
          obtain ⟨rfl, rfl⟩ := Prod.mk.inj (Option.some.inj h)
          refine ⟨rfl, fun netcon => ?_⟩
          rw [step, userInput, hinput]
      | ignored =>
          rw [hinput] at h
          obtain ⟨rfl, rfl⟩ := Prod.mk.inj (Option.some.inj h)
          refine ⟨rfl, fun netcon => ?_⟩
          rw [step, userInput, hinput]
      | call call =>
          rw [hinput] at h
          dsimp only at h
          split at h
          · cases h
          · rename_i p reply hcall
            obtain ⟨rfl, rfl⟩ := Prod.mk.inj (Option.some.inj h)
            refine ⟨rfl, fun netcon => ?_⟩
            rw [step, userInput, hinput]
            dsimp only
            rw [hcall]

/-- **THE COLLECTORS ARE NOT HEARD** — as `main` starts the program, whatever
    comes over the console, in whatever pieces, may be struck from a run: the probe
    is left as it was, and every output comes out as it did. -/
theorem collectors_not_heard [Libev] {p : Probe} {calloc : Bool} {es : List Event}
    (h : run step (start p calloc) es = some (t, out)) :
    run step (start p calloc) (es.filter isLocal)
      = some (start t.probe calloc, out) := by
  have unseen : ∀ (s : Program) e t out u, isLocal e = false →
      (s.netcon.reg = [] ∧ u = start s.probe calloc) → step s e = some (t, out) →
      (t.netcon.reg = [] ∧ u = start t.probe calloc) ∧ out.filter (fun _ => true) = [] := by
    rintro s e t out u he ⟨hreg, rfl⟩ hstep
    obtain ⟨hprobe, hreg', rfl⟩ := console_unseen he hreg hstep
    exact ⟨⟨hreg', by rw [hprobe]⟩, rfl⟩
  have follows : ∀ (s : Program) e t out u, isLocal e = true →
      (s.netcon.reg = [] ∧ u = start s.probe calloc) → step s e = some (t, out) →
      ∃ u' out', step u e = some (u', out') ∧ (t.netcon.reg = [] ∧ u' = start t.probe calloc) ∧
        out'.filter (fun _ => true) = out.filter (fun _ => true) := by
    rintro s e t out u he ⟨hreg, rfl⟩ hstep
    obtain ⟨hnetcon, hall⟩ := step_local he hstep
    exact ⟨_, out, hall _, ⟨hnetcon ▸ hreg, rfl⟩, rfl⟩
  obtain ⟨u', out', hrun, ⟨-, rfl⟩, hview⟩ := run_purge unseen follows ⟨rfl, rfl⟩ h
  rw [List.filter_true, List.filter_true] at hview
  rw [← hview]
  exact hrun

open scoped Libev.Repeating in
/-- The same bytes, and nothing comes of them. -/
theorem collectors_not_heard_minimum : ∃ t out,
    run step (start listening.probe true) setMinimum = some (t, out) ∧
      run step (start listening.probe true) [] = some (start t.probe true, out) := by
  obtain ⟨t, out, hrun⟩ : ∃ t out, run step (start listening.probe true) setMinimum
      = some (t, out) := ⟨_, _, rfl⟩
  exact ⟨t, out, hrun, collectors_not_heard hrun⟩

end Deaf

end Impd4e.WholeProgram
