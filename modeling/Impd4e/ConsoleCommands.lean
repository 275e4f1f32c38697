import Impd4e.Netcon

/-! # Registered commands and the order of initialisation

    A callback passed to `netcon_register` ought to stay in the registry and to
    be asked about every message.  The registry only ever grows, but
    `netcon_init` empties it, and `main` calls it behind `config_handler_init`:
    the one callback of the probe is gone before the event loop starts. -/

namespace Impd4e.ConsoleCommands

open Machine Impd4e.Console

variable {Cmd : Type}

/-- The callbacks a run passes to `netcon_register`, NULL ignored. -/
def passed (es : List (Event Cmd)) : List Cmd := es.filterMap Event.passed

/-- Those among them for which `calloc` finds room. -/
def installed (es : List (Event Cmd)) : List Cmd := es.filterMap Event.installed

/-- No command is lost in a run from `s₀`, when `earlier` was registered before:
    in every state of the run the registry holds all callbacks passed so far, in
    order, and every message is offered to these in order. -/
structure NoCommandLost (s₀ : Netcon Cmd) (earlier : List Cmd) (events : List (Event Cmd)) :
    Prop where
  kept : ∀ es s out, es <+: events → run step s₀ es = some (s, out) →
    (earlier ++ passed es).Sublist s.reg
  offered : ∀ es s out i answer revents received s' out',
    es ++ [.readCb i answer revents received] <+: events → run step s₀ es = some (s, out) →
    step s (.readCb i answer revents received) = some (s', out') →
    ∀ d ∈ out', OfferedUntilMatched answer (earlier ++ passed es) d.offered

/-! ## The registry over whole runs -/

/-- **THE REGISTRY** — behind every run it is what it was, and then the
    callbacks installed since, in order. -/
theorem run_reg {s₀ s : Netcon Cmd} {es : List (Event Cmd)} {out : List (Dispatch Cmd)}
    (h : run step s₀ es = some (s, out)) : s.reg = s₀.reg ++ installed es := by
  refine run_rule (P := fun es s _ => s.reg = s₀.reg ++ installed es) ?_ ?_ h
  · exact (List.append_nil _).symm
  · intro es s out e s' out' ih hs
    rw [step_reg hs, ih, List.append_assoc]
    refine congrArg (s₀.reg ++ ·) ?_
    rw [installed, installed, List.filterMap_append]
    refine congrArg (es.filterMap Event.installed ++ ·) ?_
    cases he : e.installed with
    | none => rw [List.filterMap_cons_none he]; rfl
    | some cmd => rw [List.filterMap_cons_some he]; rfl

theorem installed_sublist (es : List (Event Cmd)) : (installed es).Sublist (passed es) := by
  induction es with
  | nil => exact List.Sublist.refl _
  | cons e es ih =>
      cases e with
      | netconRegister cmd calloc =>
          cases cmd with
          | none => cases calloc <;> exact ih
          | some cmd =>
              cases calloc with
              | true => exact ih.cons_cons cmd
              | false => exact ih.cons cmd
      | netconResync fd calloc => exact ih
      | readCb i answer revents received => exact ih

theorem installed_eq {es : List (Event Cmd)} (h : ∀ e ∈ es, e.Allocates) :
    installed es = passed es := by
  refine List.filterMap_congr ?_
  intro e he
  cases e with
  | netconRegister cmd calloc =>
      obtain rfl : calloc = true := h _ he
      rfl
  | netconResync fd calloc => rfl
  | readCb i answer revents received => rfl

/-- With `netcon_init` before the first registration no command is lost. -/
theorem noCommandLost_of_reg {s₀ : Netcon Cmd} {events : List (Event Cmd)}
    (h : ∀ e ∈ events, e.Allocates) : NoCommandLost s₀ s₀.reg events := by
  have hreg : ∀ es s out, es <+: events → run step s₀ es = some (s, out) →
      s.reg = s₀.reg ++ passed es := by
    intro es s out hpre hrun
    rw [run_reg hrun, installed_eq fun e he => h e (hpre.subset he)]
  constructor
  · intro es s out hpre hrun
    rw [hreg es s out hpre hrun]
  · intro es s out i answer revents received s' out' hpre hrun hstep d hd
    rw [← hreg es s out ((List.prefix_append _ _).trans hpre) hrun]
    exact step_offers hstep hd

/-- `netcon_init`, then `config_handler_init`: the order that keeps commands. -/
theorem noCommandLost_swapped (cb : Cmd) {events : List (Event Cmd)}
    (h : ∀ e ∈ events, e.Allocates) :
    NoCommandLost (configHandlerInit cb true (netconInit zeroNetcon)) [cb] events :=
  noCommandLost_of_reg h

/-- Where no command is lost, the first one registered is asked about every
    message. -/
theorem NoCommandLost.asked {s₀ : Netcon Cmd} {cb : Cmd} {events : List (Event Cmd)}
    (h : NoCommandLost s₀ [cb] events) {es : List (Event Cmd)} {s s' : Netcon Cmd}
    {out out' : List (Dispatch Cmd)} {i : Nat} {answer : Nat → Int} {revents : Revents}
    {received : List UInt8} (hpre : es ++ [.readCb i answer revents received] <+: events)
    (hrun : run step s₀ es = some (s, out))
    (hstep : step s (.readCb i answer revents received) = some (s', out')) :
    ∀ d ∈ out', cb ∈ d.offered := by
  intro d hd
  obtain ⟨hfront, -, hstopped⟩ :=
    h.offered es s out i answer revents received s' out' hpre hrun hstep d hd
  cases hoff : d.offered with
  | nil =>
      -- an empty walk would have stopped before the first callback
      rw [hoff] at hstopped
      obtain ⟨k, hk, -⟩ := hstopped (Nat.succ_pos _)
      exact absurd hk (Nat.succ_ne_zero k).symm
  | cons cmd rest =>
      rw [hoff] at hfront
      obtain ⟨rfl, -⟩ := List.cons_prefix_cons.mp hfront
      exact List.mem_cons_self ..

/-! ## The order `main` uses -/

/-- Behind `main`'s initialisation the registry holds the later callbacks only. -/
theorem mainInit_reg {cb : Cmd} {calloc : Bool} {es : List (Event Cmd)} {s : Netcon Cmd}
    {out : List (Dispatch Cmd)} (h : run step (mainInit cb calloc) es = some (s, out)) :
    s.reg = installed es :=
  run_reg h

/-- **COMMANDS ARE LOST** — in no run behind `main`'s initialisation the
    callbacks are kept.  In every state one of them is missing, and messages are
    offered to those installed since, so to `runtime_configuration_cb` never
    unless it is registered again. -/
theorem commands_lost (cb : Cmd) (calloc : Bool) (events : List (Event Cmd)) :
    ¬ NoCommandLost (mainInit cb calloc) [cb] events ∧
    ∀ s out, run step (mainInit cb calloc) events = some (s, out) →
      ¬ ([cb] ++ passed events).Sublist s.reg ∧
      ∀ i answer revents received s' out',
        step s (.readCb i answer revents received) = some (s', out') →
        ∀ d ∈ out', OfferedUntilMatched answer (installed events) d.offered ∧
          (cb ∈ d.offered → cb ∈ passed events) := by
  have missing : ∀ es s out, run step (mainInit cb calloc) es = some (s, out) →
      ¬ ([cb] ++ passed es).Sublist s.reg := by
    intro es s out hrun hsub
    rw [mainInit_reg hrun] at hsub
    -- one callback more than the registry has room for
    have hle : (passed es).length + 1 ≤ (installed es).length := hsub.length_le
    have hge : (installed es).length ≤ (passed es).length := (installed_sublist es).length_le
    omega
  constructor
  · intro h
    exact missing [] _ _ rfl (h.kept [] _ _ List.nil_prefix rfl)
  · intro s out hrun
    refine ⟨missing events s out hrun, ?_⟩
    intro i answer revents received s' out' hstep d hd
    have hoff : OfferedUntilMatched answer (installed events) d.offered := by
      rw [← mainInit_reg hrun]
      exact step_offers hstep hd
    refine ⟨hoff, fun hcb => ?_⟩
    exact (installed_sublist events).subset (hoff.isPrefix.subset hcb)

/-- The line `mid: 1 -r 5`. -/
def ratioLine : List UInt8 := [109, 105, 100, 58, 32, 49, 32, 45, 114, 32, 53, 10]

/-- A collector connects, and its ratio command is offered to nobody. -/
theorem commands_lost_connected :
    ∃ s out s' out',
      run step (mainInit () true) [.netconResync 5 true] = some (s, out) ∧
      step s (.readCb 0 (fun _ => netconCmdMatched) ⟨false, true⟩ ratioLine)
        = some (s', out') ∧
      out' ≠ [] ∧ ∀ d ∈ out', () ∉ d.offered := by
  refine ⟨⟨[], [⟨5, some 5, []⟩]⟩, [], ⟨[], [⟨5, some 5, []⟩]⟩,
    [⟨ratioLine.dropLast, [], netconCmdUnknown⟩], rfl, rfl, List.cons_ne_nil _ _, ?_⟩
  intro d hd hcb
  obtain ⟨-, asked⟩ := (commands_lost () true [.netconResync 5 true]).2 _ _ rfl
  have offered := asked 0 (fun _ => netconCmdMatched) ⟨false, true⟩ ratioLine
    ⟨[], [⟨5, some 5, []⟩]⟩ _ rfl d hd
  exact List.not_mem_nil (offered.2 hcb)

/-- The same run, seen as one that loses a command. -/
theorem commands_lost_ratio :
    ¬ NoCommandLost (mainInit () true) [()]
      [.netconResync 5 true,
        .readCb 0 (fun _ => netconCmdMatched) ⟨false, true⟩ ratioLine] := by
  intro h
  have asked := h.offered [.netconResync 5 true] ⟨[], [⟨5, some 5, []⟩]⟩ [] 0 _ _ _
    ⟨[], [⟨5, some 5, []⟩]⟩ [⟨ratioLine.dropLast, [], netconCmdUnknown⟩]
    (List.prefix_refl _) rfl rfl _ (List.mem_singleton.mpr rfl)
  obtain ⟨k, hk, -⟩ := asked.stopped (Nat.succ_pos 0)
  exact absurd hk (Nat.succ_ne_zero k).symm

end Impd4e.ConsoleCommands
