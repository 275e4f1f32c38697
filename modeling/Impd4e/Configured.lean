import Impd4e.ConfigWords
import Impd4e.ExportBacklog
import Impd4e.OptionSwap
import Impd4e.SelectionRange

/-! # Whatever is configured

    What every option function keeps holds behind every command line, through all
    files that -c reads, whatever they hold: `configured_rule`.  The probe is started
    from there, so what the event loop asks of its options holds in every run of every
    program there can be: `configured_run`. -/

namespace Impd4e.Configured

open Machine Impd4e.CString Impd4e.CmdLine Impd4e.CommandLine Impd4e.ConfigFile
  Impd4e.ConfigWords Impd4e.ConfigHandler Impd4e.ExportHandler Impd4e.EventLoop
  Impd4e.HashFunctions Impd4e.OptionFunctions Impd4e.PacketHandler Impd4e.SelectionRange
  Impd4e.TemplateAgreement Impd4e.ExportBacklog

/-! ## Kept by the functions, kept by files and words -/

section Files

variable {σ : Type} {P : σ → Prop} {left : List Nat → CStr → CStr} {fct : ConfigFile.OptFct σ}
  {fopen : CStr → Option (List UInt8)}

theorem callOptFunction_keeps {readC : CStr → σ → Except Stop σ} {key value : CStr} {s s' : σ}
    (hfct : ∀ letter value s s', P s → fct letter value s = some s' → P s')
    (hread : ∀ value s s', P s → readC value s = .ok s' → P s') (hs : P s)
    (h : callOptFunction fct readC key value s = .ok s') : P s' := by
  rw [callOptFunction] at h
  cases hkey : findOptFunctionKey key with
  | none =>
      rw [hkey] at h
      exact Except.ok.inj h ▸ hs
  | some letter =>
      rw [hkey] at h
      by_cases hc : letter = ch 'c'
      · simp only [if_pos hc] at h
        exact hread value s s' hs h
      · simp only [if_neg hc] at h
        cases hcall : fct letter value s with
        | none => rw [hcall] at h; cases h
        | some s₁ =>
            rw [hcall] at h
            obtain rfl := Except.ok.inj h
            exact hfct letter value s _ hs hcall

/-- The loop over the lines. -/
theorem readLoop_keeps {readC : List Nat → CStr → σ → Except Stop σ} {place : List Nat}
    (hfct : ∀ letter value s s', P s → fct letter value s = some s' → P s')
    (hread : ∀ place value s s', P s → readC place value s = .ok s' → P s')
    (lines : List CStr) : ∀ (k : Nat) (old : CStr) (s s' : σ), P s →
      readLoop left fct readC place k old lines s = .ok s' → P s' := by
  induction lines with
  | nil =>
      intro k old s s' hs h
      exact Except.ok.inj h ▸ hs
  | cons line lines ih =>
      intro k old s s' hs h
      rw [readLoop] at h
      split at h
      · split at h
        · split at h
          · cases h
          · exact ih _ _ s s' hs h
        · dsimp only at h
          split at h
          · cases h
          · cases hcall : callOptFunction fct (readC (k :: place))
                (qualified (left (k :: place) old)
                  (splitKeyValue (rTrim (removeComment line))).1)
                (splitKeyValue (rTrim (removeComment line))).2 s with
            | error stop => rw [hcall] at h; cases h
            | ok s₁ =>
                rw [hcall] at h
                exact ih _ _ s₁ s'
                  (callOptFunction_keeps hfct (hread (k :: place)) hs hcall) h
      · exact ih _ _ s s' hs h

/-- Files that include each other. -/
theorem readOptionsFile_keeps
    (hfct : ∀ letter value s s', P s → fct letter value s = some s' → P s') (depth : Nat) :
    ∀ (place : List Nat) (file : List UInt8) (s s' : σ), P s →
      readOptionsFile left fct fopen depth place file s = .ok s' → P s' := by
  induction depth with
  | zero =>
      intro place file s s' _ h
      cases h
  | succ depth ih =>
      intro place file s s' hs h
      refine readLoop_keeps hfct ?_ (loopLines file) 0 [] s s' hs h
      intro place value s s' hs h
      rw [ConfigFile.optC] at h
      cases hopen : fopen value with
      | none => rw [hopen] at h; cases h
      | some file =>
          rw [hopen] at h
          exact ih place file s s' hs h

end Files

theorem callOptFunctions_keeps {σ : Type} {P : σ → Prop} {fct : OptFunctions σ}
    (hfct : ∀ c optarg s s', P s → fct c optarg s = some s' → P s') (found : List Found) :
    ∀ s s' : σ, P s → callOptFunctions fct found s = some s' → P s' := by
  induction found with
  | nil => exact fun s s' hs h => Option.some.inj h ▸ hs
  | cons f found ih =>
      intro s s' hs h
      rw [callOptFunctions] at h
      cases hc : findOptFunctionChar f.c with
      | none => rw [hc] at h; cases h
      | some c =>
          rw [hc] at h
          dsimp only at h
          cases hcall : fct c f.optarg s with
          | none => rw [hcall] at h; cases h
          | some s₁ =>
              rw [hcall] at h
              exact ih s₁ s' (hfct c f.optarg s s₁ hs hcall) h

variable {host : Host} {left : List Nat → CStr → CStr} {fopen : CStr → Option (List UInt8)}
  {depth : Nat}

/-- **THE RULE OF CONFIGURATION** — what every option function but `opt_c` keeps, every
    command line keeps, with all files it reads. -/
theorem configured_rule {P : GOptions → Prop}
    (hcall : ∀ (fct : OptionFunctions.OptFct) optarg s s', fct ≠ .opt_c → P s →
      fct.call host (fun _ _ => none) optarg s = some s' → P s')
    {words : List CStr} {s s' : GOptions} (hs : P s)
    (h : CommandLine.parseCmdlineV2 (programFct host left fopen depth) words s = some s') :
    P s' := by
  have hletter : ∀ c, c ≠ ch 'c' → ∀ optarg s s', P s →
      optFunctions host (fun _ _ => none) c optarg s = some s' → P s' := by
    intro c hc optarg s s' hs h
    rw [optFunctions] at h
    cases hfct : optFct c with
    | none => rw [hfct] at h; cases h
    | some fct =>
        rw [hfct] at h
        have hne : fct ≠ .opt_c := by
          rintro rfl
          exact hc (optFct_c hfct)
        exact hcall fct optarg s s' hne hs h
  have hfile : ∀ letter value s s', P s → fileFct host letter value s = some s' → P s' := by
    intro letter value s s' hs h
    by_cases hc : letter = ch 'c'
    · -- a file does not call it so
      have hnone : fileFct host (ch 'c') value s = none := by
        have hfct : optFct (ch 'c') = some .opt_c := by decide +kernel
        rw [fileFct, optFunctions, hfct]
        rfl
      rw [hc, hnone] at h
      cases h
    · exact hletter letter hc (some value) s s' hs h
  refine callOptFunctions_keeps ?_ (getopt none words) s s' hs h
  intro c optarg s s' hs h
  by_cases hc : c = ch 'c'
  · have hfct : optFct (ch 'c') = some .opt_c := by decide +kernel
    rw [hc, programFct, optFunctions, hfct] at h
    obtain ⟨arg, -, hread⟩ := Option.bind_eq_some_iff.mp h
    rw [ConfigWords.optC, ConfigFile.optC] at hread
    cases hopen : fopen arg with
    | none => rw [hopen] at hread; cases hread
    | some file =>
        rw [hopen] at hread
        dsimp only at hread
        cases hend : readOptionsFile left (fileFct host) fopen depth [] file s with
        | error stop => rw [hend] at hread; cases hread
        | ok s₁ =>
            rw [hend] at hread
            obtain rfl := Option.some.inj hread
            exact readOptionsFile_keeps hfile depth [] file s _ hs hend
  · rw [programFct, optFunctions_readC hc _ fun _ _ => none] at h
    exact hletter c hc optarg s s' hs h

/-! ## What the event loop needs of its options -/

/-- What holds of a part whatever is configured: the templates are known and no
    device has counted a record yet; the selection range is in order; the packet id
    has a function where it is not the hash; the flush count is a `uint32_t`. -/
def PartOk : (p : Part) → p.Value → Prop
  | .interfaces, v => TemplatesKnown (withSlots blank v).options v.devices ∧
      ∀ i : Fin maxInterfaces, i.val < v.numberInterfaces → (v.devices i).exportPacketCount = 0
  | .range, v => v.1 ≤ v.2
  | .pktid, v => v.2 = false → v.1.isSome = true
  | .flushCount, v => v < 4294967296
  | _, _ => True

/-- **WHATEVER IS CONFIGURED** — every part is as it has to be. -/
def Ok (s : GOptions) : Prop := ∀ p, PartOk p (s.view p)

/-- A function on one part keeps the others as they are. -/
theorem ok_of_on {p : Part} {f : GOptions → Option GOptions} (hon : parts.On p f)
    {s s' : GOptions} (hown : PartOk p (s'.view p)) (hs : Ok s) (h : f s = some s') : Ok s' := by
  intro q
  by_cases hqp : q = p
  · subst hqp
    exact hown
  · obtain ⟨act, hact⟩ := hon
    rw [hact s] at h
    obtain ⟨v, -, rfl⟩ := Option.map_eq_some_iff.mp h
    have hview : GOptions.view (GOptions.put p v s) q = s.view q := parts.view_put_ne v s hqp
    show PartOk q (GOptions.view (GOptions.put p v s) q)
    rw [hview]
    exact hs q

theorem Ok.known {s : GOptions} (hs : Ok s) : TemplatesKnown s.config.options s.config.devices :=
  (hs .interfaces).1.of_options rfl rfl

theorem Ok.unused {s : GOptions} (hs : Ok s) : Unused s.config :=
  ⟨hs .flushCount, (hs .interfaces).2⟩

theorem setDefaultsOptions_ok : Ok OptionFunctions.setDefaultsOptions := by
  intro p
  cases p with
  | interfaces =>
      exact ⟨⟨Or.inl rfl, fun _ hi => absurd hi (Nat.not_lt_zero _)⟩,
        fun _ hi => absurd hi (Nat.not_lt_zero _)⟩
  | range => exact defaults_wellFormed fun _ => 0
  | pktid => exact fun h => absurd h (by decide)
  | flushCount =>
      show 1000 < 4294967296
      decide
  | _ => trivial

/-! ### Each function -/

variable {s s' : GOptions}

/-- An option of the interfaces. -/
theorem onConfig_interfaces {o : Opt} (hs : Ok s) (h : onConfig s (fun c => o.apply c) = some s') :
    PartOk .interfaces (s'.view .interfaces) := by
  obtain ⟨c, happly, rfl⟩ := Option.map_eq_some_iff.mp h
  exact ⟨(apply_known hs.known happly).of_options rfl rfl, (apply_unused hs.unused happly).zero⟩

theorem range_withOptions {o : Options} (h : WellFormed o) :
    PartOk .range ((s.withOptions o).view .range) := h

/-- A function of an argument: the argument is there. -/
theorem bind_part {p : Part} {f : CStr → GOptions → Option GOptions} {optarg : Option CStr}
    (hf : ∀ arg, f arg s = some s' → PartOk p (s'.view p))
    (h : optarg.bind (fun arg => f arg s) = some s') : PartOk p (s'.view p) := by
  obtain ⟨arg, -, hcall⟩ := Option.bind_eq_some_iff.mp h
  exact hf arg hcall

/-- What a function writes is as it has to be. -/
theorem call_part {fct : OptionFunctions.OptFct} {p : Part} {optarg : Option CStr}
    (hpart : fct.part = some p) (hs : Ok s)
    (h : fct.call host (fun _ _ => none) optarg s = some s') : PartOk p (s'.view p) := by
  cases fct with
  | opt_i =>
      cases hpart
      exact bind_part (f := opt_i) (fun arg hcall => @onConfig_interfaces _ _ (.i arg) hs hcall) h
  | opt_N =>
      cases hpart
      exact bind_part (f := opt_N) (fun arg hcall => @onConfig_interfaces _ _ (.N arg) hs hcall) h
  | opt_t =>
      cases hpart
      exact bind_part (f := opt_t) (fun arg hcall => @onConfig_interfaces _ _ (.t arg) hs hcall) h
  | opt_m =>
      cases hpart
      refine bind_part (f := opt_m) (fun arg hcall => ?_) h
      obtain rfl := Option.some.inj hcall
      exact range_withOptions (lowerTo_wellFormed (strtol0 arg) s.config.options)
  | opt_M =>
      cases hpart
      refine bind_part (f := opt_M) (fun arg hcall => ?_) h
      obtain rfl := Option.some.inj hcall
      exact range_withOptions (upperTo_wellFormed (strtol0 arg) s.config.options)
  | opt_r =>
      cases hpart
      refine bind_part (f := opt_r) (fun arg hcall => ?_) h
      rw [opt_r, setSamplingRatio_eq] at hcall
      obtain ⟨o, ho, rfl⟩ := Option.map_eq_some_iff.mp hcall
      obtain ⟨width, -, rfl⟩ := Option.map_eq_some_iff.mp ho
      exact range_withOptions (ratioTo_wellFormed width s.config.options)
  | opt_p =>
      cases hpart
      refine bind_part (f := fun arg s => opt_p arg s host) (fun arg hcall => ?_) h
      obtain rfl := Option.some.inj hcall
      exact fun _ => rfl
  | opt_e =>
      cases hpart
      refine bind_part (f := opt_e) (fun arg hcall => ?_) h
      obtain rfl := Option.some.inj hcall
      show (atoi arg % 4294967296).toNat < 4294967296
      omega
  | opt_V => cases hpart
  | opt_h => cases hpart
  | opt_c => cases hpart
  | opt_n => cases hpart
  | opt_X => cases hpart
  | opt_y => cases hpart
  | _ => cases hpart; trivial

/-- **EVERY OPTION FUNCTION KEEPS IT** -/
theorem call_ok {fct : OptionFunctions.OptFct} {optarg : Option CStr} (hc : fct ≠ .opt_c)
    (hs : Ok s) (h : fct.call host (fun _ _ => none) optarg s = some s') : Ok s' := by
  cases hpart : fct.part with
  | none =>
      rcases @call_idle host (fun _ _ => none) fct hpart hc optarg with hnone | hsome
      · rw [hnone s] at h
        cases h
      · rw [hsome s] at h
        exact Option.some.inj h ▸ hs
  | some p => exact ok_of_on (call_on host _ optarg hpart) (call_part hpart hs h) hs h

theorem configured_ok {words : List CStr}
    (h : CommandLine.parseCmdlineV2 (programFct host left fopen depth) words
      OptionFunctions.setDefaultsOptions = some s) : Ok s :=
  configured_rule (fun _ _ _ _ hc hs hcall => call_ok hc hs hcall) setDefaultsOptions_ok h

/-! ## Every run of every program -/

section Runs

variable {libpcap : FilterOracle} {msg text : CStr} {p p' : Probe} {e : EventLoop.Event}
  {es : List EventLoop.Event} {out : List EventLoop.Output}

/-- An interval command changes no option, whatever it does to its timer. -/
theorem interval_options {timer : Option EvTimer} {changed : EvTimer → Probe × CStr}
    {unchanged : CStr} (hchanged : ∀ t, (changed t).1.options = p.options)
    (h : (match timer with
      | some t => changed t
      | none => (p, unchanged)) = (p', text)) : p'.options = p.options := by
  cases timer with
  | none => rw [← (Prod.mk.inj h).1]
  | some t =>
      have hp' : (changed t).1 = p' := congrArg Prod.fst h
      rw [← hp']
      exact hchanged t

/-- The selection range behind a command. -/
theorem call_options [Libev] {cmd : Command} (h : cmd.call libpcap msg p = .ok (p', text)) :
    (p'.options.selRangeMin = p.options.selRangeMin ∧
      p'.options.selRangeMax = p.options.selRangeMax) ∨
    WellFormed p'.options := by
  -- the same options hold the same range
  have hsame : p'.options = p.options → p'.options.selRangeMin = p.options.selRangeMin ∧
      p'.options.selRangeMax = p.options.selRangeMax := fun h => by rw [h]; exact ⟨rfl, rfl⟩
  cases cmd with
  | r =>
      have h : configurationSetRatio msg p = .ok (p', text) := h
      rw [configurationSetRatio] at h
      split at h
      · cases h
      · rename_i options hratio
        have hp' := congrArg (fun q : Probe × CStr => q.1.options) (Except.ok.inj h)
        rw [setSamplingRatio_eq] at hratio
        obtain ⟨width, -, hoptions⟩ := Option.map_eq_some_iff.mp hratio
        right
        rw [← show options = p'.options from hp', ← hoptions]
        exact ratioTo_wellFormed width p.options
  | m =>
      have hp' := congrArg (fun q : Probe × CStr => q.1.options) (Except.ok.inj h)
      right
      rw [← show setSamplingLowerbound p.options msg = p'.options from hp',
        setSamplingLowerbound_eq]
      exact lowerTo_wellFormed (strtol0 msg) p.options
  | M =>
      have hp' := congrArg (fun q : Probe × CStr => q.1.options) (Except.ok.inj h)
      right
      rw [← show setSamplingUpperbound p.options msg = p'.options from hp',
        setSamplingUpperbound_eq]
      exact upperTo_wellFormed (strtol0 msg) p.options
  | f =>
      obtain ⟨handles, -, hp', -⟩ := configurationSetFilter_eq_ok h
      rw [hp']
      exact Or.inl ⟨rfl, rfl⟩
  | t =>
      have hcall : configurationSetTemplate msg p = (p', text) := Except.ok.inj h
      have hoptions : (configurationSetTemplate msg p).1.options = p'.options := by rw [hcall]
      left
      rw [← hoptions, configurationSetTemplate]
      cases parseTemplate msg with
      | none => exact ⟨rfl, rfl⟩
      | some tId => exact ⟨rfl, rfl⟩
  | I =>
      have hcall : configurationSetExportToPktid msg p = (p', text) := Except.ok.inj h
      unfold configurationSetExportToPktid at hcall
      exact Or.inl (hsame (interval_options (fun _ => rfl) hcall))
  | J =>
      have hcall : configurationSetExportToProbestats msg p = (p', text) := Except.ok.inj h
      unfold configurationSetExportToProbestats at hcall
      exact Or.inl (hsame (interval_options (fun _ => rfl) hcall))
  | K =>
      have hcall : configurationSetExportToIfstats msg p = (p', text) := Except.ok.inj h
      unfold configurationSetExportToIfstats at hcall
      exact Or.inl (hsame (interval_options (fun _ => rfl) hcall))

/-- The commands keep the selection range in order. -/
theorem call_wellFormed [Libev] {cmd : Command} (h : cmd.call libpcap msg p = .ok (p', text))
    (hp : WellFormed p.options) : WellFormed p'.options := by
  rcases call_options h with ⟨hmin, hmax⟩ | hrange
  · rw [WellFormed, hmin, hmax]
    exact hp
  · exact hrange

theorem step_wellFormed [Libev] (h : EventLoop.step p e = .ok (p', out))
    (hp : WellFormed p.options) : WellFormed p'.options := by
  cases e with
  | packet i ts caplen frame =>
      by_cases hi : i.val < p.options.numberInterfaces
      · obtain ⟨r, -, hp', -⟩ := step_packet_ok hi h
        rw [hp']
        exact hp
      · rw [EventLoop.step, if_neg hi] at h
        rw [← (Prod.mk.inj (Except.ok.inj h)).1]
        exact hp
  | timer timer t =>
      cases hact : (timerOf p timer).active with
      | false =>
          rw [(step_timer_idle hact h).1]
          exact hp
      | true =>
          rw [(step_timer_due hact h).1.options]
          exact hp
  | userInput libpcap cmd msg =>
      rw [EventLoop.step] at h
      cases hcall : cmd.call libpcap msg p with
      | error u => rw [hcall] at h; cases h
      | ok r =>
          obtain ⟨q, message⟩ := r
          rw [hcall] at h
          rw [← (Prod.mk.inj (Except.ok.inj h)).1]
          exact call_wellFormed hcall hp
  | message libpcap cmd msg accepted =>
      rw [EventLoop.step] at h
      cases hcall : cmd.call libpcap msg p with
      | error u => rw [hcall] at h; cases h
      | ok r =>
          obtain ⟨q, message⟩ := r
          rw [hcall] at h
          rw [← (Prod.mk.inj (Except.ok.inj h)).1]
          exact call_wellFormed hcall hp

/-- What every run keeps in force. -/
structure Sound (flushCount : Nat) (p : Probe) (out : List EventLoop.Output) : Prop where
  known : TemplatesKnown p.options p.devices
  fit : RecordsFit out
  range : WellFormed p.options
  pktid : p.options.hashAsPacketID = false → p.options.pktidFunction.isSome = true
  flush : p.options.exportPacketCount = flushCount
  booked : 1 ≤ flushCount → Booked p out

theorem step_sound [Libev] {flushCount : Nat} {out' : List EventLoop.Output}
    (hp : Sound flushCount p out) (h : EventLoop.step p e = .ok (p', out')) :
    Sound flushCount p' (out ++ out') := by
  obtain ⟨hknown, hfit⟩ := step_known hp.known h
  obtain ⟨templateID, selRangeMin, selRangeMax, hoptions⟩ := step_options h
  refine ⟨hknown, ?_, step_wellFormed h hp.range, ?_, ?_, fun hpos =>
    step_booked (hp.booked hpos) h⟩
  · intro i record hmem
    rcases List.mem_append.mp hmem with hmem | hmem
    · exact hp.fit i record hmem
    · exact hfit i record hmem
  · rw [hoptions]
    exact hp.pktid
  · rw [hoptions]
    exact hp.flush

theorem startUp_sound [Libev] {s : GOptions} (hs : Ok s) (opening : Fin maxInterfaces → Opening) :
    Sound s.config.options.exportPacketCount
      (startUp opening s.exportLocationInterval s.config) [] where
  known := started_known (startUp_started _ _ _) hs.known
  fit _ _ hmem := absurd hmem List.not_mem_nil
  range := hs .range
  pktid := hs .pktid
  flush := rfl
  booked hpos := started_booked (startUp_started _ _ _) hs.unused hs.known hpos

/-- **FROM ANY COMMAND LINE** — whatever words the program is started with, and
    whatever the files hold that they name: in every run from there the records fit
    their templates, the ends of the selection range are in order, there is a packet
    id for every packet, and of no device as many records wait as a flush count of 1
    or more says. -/
theorem configured_run [Libev] {words : List CStr} {s : GOptions}
    (h : CommandLine.parseCmdlineV2 (programFct host left fopen depth) words
      OptionFunctions.setDefaultsOptions = some s)
    (opening : Fin maxInterfaces → Opening)
    (hrun : run probe (startUp opening s.exportLocationInterval s.config) es = some (p, out)) :
    RecordsFit out ∧ p.options.selRangeMin ≤ p.options.selRangeMax ∧
      (∀ hashId contents, packetId p.options hashId contents ≠ none) ∧
      (1 ≤ s.config.options.exportPacketCount →
        ∀ i, backlog i out < s.config.options.exportPacketCount) := by
  have hsound : Sound s.config.options.exportPacketCount p out := by
    refine run_rule (P := fun _ q out => Sound s.config.options.exportPacketCount q out)
      (startUp_sound (configured_ok h) opening) ?_ hrun
    intro _ q out e q' out' ih hstep
    exact step_sound ih (probe_eq_some.mp hstep)
  refine ⟨hsound.fit, hsound.range, ?_, fun hpos i => ?_⟩
  · intro hashId contents
    rw [packetId]
    split
    · exact Option.some_ne_none hashId
    · rename_i hhash
      obtain ⟨f, hf⟩ := Option.isSome_iff_exists.mp
        (hsound.pktid (Bool.eq_false_iff.mpr hhash))
      rw [hf]
      exact Option.some_ne_none _
  · rw [← hsound.flush]
    exact (hsound.booked hpos).backlog_lt i

section Repeating

open scoped Libev.Repeating

/-- impd4e -e 2 -i u:x -m 0 -M 4294967295 -c p -/
def configuredWords : List CStr :=
  [str "-e", str "2", str "-i", str "u:x", str "-m", str "0", str "-M", str "4294967295",
    str "-c", str "p"]

/-- Every descriptor can be opened. -/
def opened (_ : Fin maxInterfaces) : Opening := ⟨.raw, ⟨0, 0, 0, 0⟩, none, 3⟩

/-- A packet comes, and then a command. -/
def packetThenMinimum : List EventLoop.Event :=
  [.packet ⟨0, zero_lt_maxInterfaces⟩ ⟨1, 0⟩ 28
      (ReadProg.ofList Datagrams.udpDatagram.bytes),
    .userInput ⟨fun _ _ => true, fun _ _ => true⟩ .m (str "7")]

def isRecord : EventLoop.Output → Bool
  | .exported (.record _ _) => true
  | _ => false

/-- The packet is selected, and its record waits for another one. -/
theorem configured_run_packet : ∃ s p out,
    CommandLine.parseCmdlineV2 (ipfixFct 1) configuredWords
        OptionFunctions.setDefaultsOptions = some s ∧
      run probe (startUp opened s.exportLocationInterval s.config) packetThenMinimum =
        some (p, out) ∧
      out.any isRecord = true ∧ RecordsFit out ∧
      p.options.selRangeMin ≤ p.options.selRangeMax ∧ ∀ i, backlog i out < 2 := by
  have hcount : ∀ s ∈ CommandLine.parseCmdlineV2 (ipfixFct 1) configuredWords
      OptionFunctions.setDefaultsOptions, s.config.options.exportPacketCount = 2 := by
    decide +kernel
  have hrecord : ((CommandLine.parseCmdlineV2 (ipfixFct 1) configuredWords
      OptionFunctions.setDefaultsOptions).bind fun s =>
        run probe (startUp opened s.exportLocationInterval s.config) packetThenMinimum).any
          (fun r => r.2.any isRecord) = true := by
    decide +kernel
  obtain ⟨⟨p, out⟩, hbind, hany⟩ := (Option.any_eq_true _ _).mp hrecord
  obtain ⟨s, hs, hrun⟩ := Option.bind_eq_some_iff.mp hbind
  obtain ⟨hfit, hrange, -, hbacklog⟩ := configured_run hs _ hrun
  rw [hcount s hs] at hbacklog
  exact ⟨s, p, out, hs, hrun, hany, hfit, hrange, hbacklog (by decide)⟩

end Repeating

end Runs

end Impd4e.Configured
