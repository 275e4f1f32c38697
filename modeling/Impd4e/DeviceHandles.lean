import Impd4e.EventLoop

/-! # The member of a device handle

    `device_handle` is a union: a `pcap_t` for the two pcap types, a descriptor
    for the two socket types.  `export_data_interface_stats` looks at the type
    of a device before it reads the handle.  `set_filter` does not, so the
    filter command reads a descriptor as a `pcap_t` where a socket is among the
    interfaces. -/

namespace Impd4e.DeviceHandles

open Impd4e.CString Impd4e.Settings Impd4e.CmdLine Impd4e.ConfigHandler Impd4e.EventLoop
open Impd4e.LinkTypes (IsPcap)
open Impd4e.ExportHandler (maxInterfaces)

/-! ## Types and handles -/

def IsSocket (dev : DeviceDev) : Prop :=
  dev.deviceType = .socketInet ∨ dev.deviceType = .socketUnix

/-- Every configured interface is of a type that `open_device` opens. -/
def Openable (c : Config) : Prop :=
  ∀ i : Fin maxInterfaces, i.val < c.options.numberInterfaces →
    IsPcap (c.devices i) ∨ IsSocket (c.devices i)

/-- No configured interface is a socket. -/
def AllPcap (c : Config) : Prop :=
  ∀ i : Fin maxInterfaces, i.val < c.options.numberInterfaces → IsPcap (c.devices i)

/-- The handle holds the member for the type of its device. -/
inductive Matches (dev : DeviceDev) : DeviceHandle → Prop where
  | pcap (p : Pcap) : IsPcap dev → Matches dev (.pcap p)
  | socket (fd : Int) : IsSocket dev → Matches dev (.socket fd)

theorem IsSocket.not_pcap {dev : DeviceDev} (h : IsSocket dev) : ¬ IsPcap dev := by
  rintro (hp | hp)
  · rcases h with hs | hs <;> exact absurd (hp.symm.trans hs) (by decide)
  · rcases h with hs | hs <;> exact absurd (hp.symm.trans hs) (by decide)

theorem Matches.pcap_of {dev : DeviceDev} {handle : DeviceHandle} (h : Matches dev handle)
    (hdev : IsPcap dev) : ∃ p, handle = .pcap p := by
  cases h with
  | pcap p => exact ⟨p, rfl⟩
  | socket fd hs => exact absurd hdev hs.not_pcap

theorem Matches.socket_of {dev : DeviceDev} {handle : DeviceHandle} (h : Matches dev handle)
    (hdev : ¬ IsPcap dev) : ∃ fd, handle = .socket fd := by
  cases h with
  | pcap p hp => exact absurd hp hdev
  | socket fd => exact ⟨fd, rfl⟩

theorem Matches.of_member {dev dev' : DeviceDev} {handle handle' : DeviceHandle}
    (h : Matches dev handle) (htype : dev'.deviceType = dev.deviceType)
    (hmember : SameMember handle handle') : Matches dev' handle' := by
  have hpcap : IsPcap dev → IsPcap dev' := by
    rw [IsPcap, IsPcap, htype]
    exact id
  have hsocket : IsSocket dev → IsSocket dev' := by
    rw [IsSocket, IsSocket, htype]
    exact id
  rcases hmember with rfl | ⟨q, q', rfl, rfl⟩
  · cases h with
    | pcap p hdev => exact .pcap p (hpcap hdev)
    | socket fd hdev => exact .socket fd (hsocket hdev)
  · cases h with
    | pcap p hdev => exact .pcap q' (hpcap hdev)

theorem openDevice_matches (opening : Opening) {dev : DeviceDev}
    (h : IsPcap dev ∨ IsSocket dev) :
    (openDevice opening dev).1.deviceType = dev.deviceType ∧
      Matches dev (openDevice opening dev).2 := by
  unfold openDevice
  split
  · exact ⟨rfl, .pcap _ (Or.inr ‹_›)⟩
  · exact ⟨rfl, .pcap _ (Or.inl ‹_›)⟩
  · exact ⟨rfl, .socket _ (Or.inl ‹_›)⟩
  · exact ⟨rfl, .socket _ (Or.inr ‹_›)⟩
  · rename_i htype
    simp [IsPcap, IsSocket, htype] at h
  · rename_i htype
    simp [IsPcap, IsSocket, htype] at h

/-! ## What runs keep -/

/-- The interfaces are those of the configuration, and their handles hold the
    member for their type. -/
structure HandlesMatch (c : Config) (p : Probe) : Prop where
  numberInterfaces : p.options.numberInterfaces = c.options.numberInterfaces
  deviceType : ∀ i : Fin maxInterfaces, i.val < c.options.numberInterfaces →
    (p.devices i).deviceType = (c.devices i).deviceType
  handles : ∀ i : Fin maxInterfaces, i.val < c.options.numberInterfaces →
    Matches (c.devices i) (p.handles i)

variable {c : Config} {p p' : Probe} {e : Event} {out : List Output}

theorem started_matches [Libev] (hp : Started c p) (hc : Openable c) : HandlesMatch c p := by
  refine ⟨hp.numberInterfaces, fun i hi => ?_, fun i hi => ?_⟩
  · obtain ⟨opening, hopen⟩ := hp.opened i hi
    have hmatch := openDevice_matches opening (hc i hi)
    rw [hopen] at hmatch
    exact hmatch.1
  · obtain ⟨opening, hopen⟩ := hp.opened i hi
    have hmatch := openDevice_matches opening (hc i hi)
    rw [hopen] at hmatch
    exact hmatch.2

theorem step_matches [Libev] (hp : HandlesMatch c p) (h : step p e = .ok (p', out)) :
    HandlesMatch c p' := by
  obtain ⟨templateID, selRangeMin, selRangeMax, hoptions⟩ := step_options h
  have hn : p'.options.numberInterfaces = c.options.numberInterfaces := by
    rw [hoptions]
    exact hp.numberInterfaces
  obtain ⟨i, ts, caplen, frame, r, rfl, hi, hr, rfl, rfl⟩ | ⟨hticked, -⟩ | ⟨hconf, -⟩ :=
    step_cases h
  · refine ⟨hn, ?_, hp.handles⟩
    refine (Function.forall_update_iff p.devices fun (j : Fin maxInterfaces) dev =>
      j.val < c.options.numberInterfaces → dev.deviceType = (c.devices j).deviceType).mpr
        ⟨fun hi => ?_, fun j _ => hp.deviceType j⟩
    exact (Traffic.handlePacket_setup hr).deviceType.trans (hp.deviceType i hi)
  · refine ⟨hn, fun i hi => ?_, fun i hi => ?_⟩
    · obtain ⟨size, delta, hdev⟩ := hticked.devices i
      rw [hdev]
      exact hp.deviceType i hi
    · rw [hticked.handles]
      exact hp.handles i hi
  · refine ⟨hn, fun i hi => ?_, fun i hi => (hp.handles i hi).of_member rfl (hconf.handles i)⟩
    rw [← hp.deviceType i hi]
    rcases hconf.templates with ⟨-, hdevices⟩ | ⟨msg, -, hdevices⟩
    · rw [hdevices]
    · rw [hdevices]
      split <;> rfl

theorem run_matches [Libev] {es : List Event} (hp : HandlesMatch c p)
    (h : Machine.run probe p es = some (p', out)) : HandlesMatch c p' :=
  Machine.run_rule (P := fun _ p _ => HandlesMatch c p) hp
    (fun _ _ _ _ _ _ ih hstep => step_matches ih (probe_eq_some.mp hstep)) h

/-! ## The looks at a handle -/

/-- The call on a `pcap_t` goes through, and leaves a `pcap_t`. -/
theorem set_filter_pcap (libpcap : FilterOracle) (bpf : CStr) (j : Fin maxInterfaces) (q : Pcap) :
    ∃ q' result, set_filter libpcap bpf j (.pcap q) = .ok (.pcap q', result) := by
  rw [set_filter]
  split
  · split <;> exact ⟨_, _, rfl⟩
  · exact ⟨_, _, rfl⟩

/-- A `pcap_t` for a `pcap_t` leaves the sockets. -/
theorem update_socket_iff {handles : Fin maxInterfaces → DeviceHandle} {j : Fin maxInterfaces}
    {q : Pcap} (hq : handles j = .pcap q) (q' : Pcap) (i : Fin maxInterfaces) (fd : Int) :
    Function.update handles j (.pcap q') i = .socket fd ↔ handles i = .socket fd := by
  by_cases hij : i = j
  · subst hij
    rw [Function.update_self, hq]
    constructor
    · intro h
      cases h
    · intro h
      cases h
  · rw [Function.update_of_ne hij]

/-- The loop over the interfaces reads the wrong member where it meets a
    socket. -/
theorem setFilters_wrongMember {libpcap : FilterOracle} {bpf : CStr}
    {is : List (Fin maxInterfaces)} {handles : Fin maxInterfaces → DeviceHandle}
    (h : ∀ i ∈ is, (∃ p, handles i = .pcap p) ∨ ∃ fd, handles i = .socket fd) :
    setFilters libpcap bpf is handles = .error .wrongMember ↔
      ∃ i ∈ is, ∃ fd, handles i = .socket fd := by
  induction is generalizing handles with
  | nil =>
      constructor
      · intro herr
        cases herr
      · rintro ⟨i, hi, -⟩
        exact absurd hi List.not_mem_nil
  | cons j is ih =>
      obtain ⟨hj, his⟩ := List.forall_mem_cons.mp h
      rcases hj with ⟨q, hq⟩ | ⟨fd, hfd⟩
      · obtain ⟨q', result, hset⟩ := set_filter_pcap libpcap bpf j q
        rw [setFilters, hq, hset]
        refine (ih fun i hi => ?_).trans ?_
        · by_cases hij : i = j
          · subst hij
            exact Or.inl ⟨q', Function.update_self ..⟩
          · rw [Function.update_of_ne hij]
            exact his i hi
        · simp only [update_socket_iff hq q', List.exists_mem_cons_iff]
          constructor
          · exact Or.inr
          · rintro (⟨fd, hfd⟩ | hrest)
            · rw [hq] at hfd
              cases hfd
            · exact hrest
      · rw [setFilters, hfd]
        exact ⟨fun _ => ⟨j, List.mem_cons_self .., fd, hfd⟩, fun _ => rfl⟩

/-! ## The filter command -/

/-- The command `f`, from the console or from a collector. -/
def IsFilter (e : Event) : Prop :=
  (∃ libpcap msg, e = .userInput libpcap .f msg) ∨
    ∃ libpcap msg accepted, e = .message libpcap .f msg accepted

/-- The command goes wrong where its loop does. -/
theorem configurationSetFilter_error {libpcap : FilterOracle} {msg : CStr} {u : Undefined} :
    configurationSetFilter libpcap msg p = .error u ↔
      setFilters libpcap msg p.interfaces p.handles = .error u := by
  rw [configurationSetFilter, setAllFilter]
  cases setFilters libpcap msg p.interfaces p.handles with
  | error u' =>
      constructor
      · intro h
        exact congrArg _ (Except.error.inj h)
      · intro h
        exact congrArg _ (Except.error.inj h)
  | ok handles =>
      constructor
      · intro h
        dsimp only at h
        split at h
        · cases h
        · cases h
      · intro h
        cases h

theorem configurationSetFilter_wrongMember {libpcap : FilterOracle} {msg : CStr}
    (hp : HandlesMatch c p) :
    configurationSetFilter libpcap msg p = .error .wrongMember ↔ ¬ AllPcap c := by
  have hkinds : ∀ i ∈ p.interfaces,
      (∃ q, p.handles i = .pcap q) ∨ ∃ fd, p.handles i = .socket fd := by
    intro i hi
    rw [Probe.mem_interfaces, hp.numberInterfaces] at hi
    cases hmatch : p.handles i with
    | pcap q => exact Or.inl ⟨q, rfl⟩
    | socket fd => exact Or.inr ⟨fd, rfl⟩
    | unset =>
        have := hp.handles i hi
        rw [hmatch] at this
        cases this
  rw [configurationSetFilter_error, setFilters_wrongMember hkinds]
  constructor
  · rintro ⟨i, hi, fd, hfd⟩ hall
    rw [Probe.mem_interfaces, hp.numberInterfaces] at hi
    obtain ⟨q, hq⟩ := (hp.handles i hi).pcap_of (hall i hi)
    rw [hq] at hfd
    cases hfd
  · intro hall
    obtain ⟨i, hi⟩ := not_forall.mp hall
    obtain ⟨hlt, hnot⟩ := Classical.not_imp.mp hi
    refine ⟨i, Probe.mem_interfaces.mpr (hp.numberInterfaces ▸ hlt), ?_⟩
    exact (hp.handles i hlt).socket_of hnot

theorem call_wrongMember [Libev] {libpcap : FilterOracle} {cmd : Command} {msg : CStr}
    (h : cmd.call libpcap msg p = .error .wrongMember) : cmd = .f := by
  cases cmd with
  | f => rfl
  | r =>
      rw [Command.call, configurationSetRatio] at h
      split at h
      · cases h
      · cases h
  | m => cases h
  | M => cases h
  | t => cases h
  | I => cases h
  | J => cases h
  | K => cases h

/-- No timer reads the wrong member: the statistics look at the type first. -/
theorem exportTimerCb_respects {t : ExportHandler.Tick} (hp : HandlesMatch c p) (timer : Timer) :
    exportTimerCb t p timer ≠ .error .wrongMember := by
  intro h
  have hok : pcapStatsHandles p p.interfaces = .ok () := by
    refine pcapStatsHandles_ok fun i hi htype => ?_
    rw [Probe.mem_interfaces, hp.numberInterfaces] at hi
    rw [hp.deviceType i hi] at htype
    exact (hp.handles i hi).pcap_of (Or.inl htype)
  cases timer with
  | pkid => cases h
  | sampling =>
      rw [exportTimerCb, hok] at h
      dsimp only at h
      split at h
      · cases h
      · cases h
  | stats => cases h
  | location => cases h

theorem setTimer_matches (hp : HandlesMatch c p) (again : EvTimer) (timer : Timer) :
    HandlesMatch c (setTimer p again timer) := by
  obtain ⟨hoptions, hhandles, hdevices⟩ := setTimer_frame p again timer
  refine ⟨?_, ?_, ?_⟩
  · rw [hoptions]
    exact hp.numberInterfaces
  · rw [hdevices]
    exact hp.deviceType
  · rw [hhandles]
    exact hp.handles

/-- **ONE EVENT** — it reads the wrong member where it is the filter command
    and an interface is a socket. -/
theorem step_wrongMember [Libev] (hp : HandlesMatch c p) (e : Event) :
    step p e = .error .wrongMember ↔ IsFilter e ∧ ¬ AllPcap c := by
  constructor
  · intro h
    cases e with
    | packet i ts caplen frame =>
        rw [step] at h
        split at h
        · split at h
          · cases h
          · cases h
        · cases h
    | timer timer t =>
        rw [step] at h
        split at h
        · cases h
        · rename_i again hfire
          split at h
          · rename_i u hcb
            obtain rfl := Except.error.inj h
            exact absurd hcb (exportTimerCb_respects (setTimer_matches hp again timer) timer)
          · cases h
    | userInput libpcap cmd msg =>
        rw [step] at h
        split at h
        · rename_i u hcall
          obtain rfl := Except.error.inj h
          obtain rfl := call_wrongMember hcall
          exact ⟨Or.inl ⟨libpcap, msg, rfl⟩, (configurationSetFilter_wrongMember hp).mp hcall⟩
        · cases h
    | message libpcap cmd msg accepted =>
        rw [step] at h
        split at h
        · rename_i u hcall
          obtain rfl := Except.error.inj h
          obtain rfl := call_wrongMember hcall
          exact ⟨Or.inr ⟨libpcap, msg, accepted, rfl⟩,
            (configurationSetFilter_wrongMember hp).mp hcall⟩
        · cases h
  · rintro ⟨⟨libpcap, msg, rfl⟩ | ⟨libpcap, msg, accepted, rfl⟩, hall⟩
    · have hcall := (@configurationSetFilter_wrongMember c p libpcap msg hp).mpr hall
      rw [step, Command.call, hcall]
    · have hcall := (@configurationSetFilter_wrongMember c p libpcap msg hp).mpr hall
      rw [step, Command.call, hcall]

/-! ## Whole runs -/

/-- Along the events no handle is read as the member it does not hold. -/
def Respected [Libev] (p : Probe) (es : List Event) : Prop :=
  ∀ es' e p' out, es' ++ [e] <+: es → Machine.run probe p es' = some (p', out) →
    step p' e ≠ .error .wrongMember

/-- **THE FILTER COMMAND READS SOCKETS** — in a run that gets to its last
    event, the handles are respected just when no interface is a socket or no
    event is the filter command. -/
theorem respected_iff [Libev] {es : List Event} (hc : Openable c) (hp : Started c p)
    (h : Machine.run probe p es = some (p', out)) (e : Event) :
    Respected p (es ++ [e]) ↔ ∀ e' ∈ es ++ [e], IsFilter e' → AllPcap c := by
  have hstart := started_matches hp hc
  constructor
  · intro hrespected e' he' hfilter
    by_contra hall
    rcases List.mem_append.mp he' with hmem | hmem
    · -- a filter command on the way has gone through
      obtain ⟨before, behind, rfl⟩ := List.append_of_mem hmem
      obtain ⟨q, out₁, out₂, hbefore, hrest, -⟩ := Machine.run_append_eq_some.mp h
      obtain ⟨q', out₃, out₄, hstep, -, -⟩ := Machine.run_cons_eq_some.mp hrest
      have herr := (step_wrongMember (run_matches hstart hbefore) e').mpr ⟨hfilter, hall⟩
      rw [probe_eq_some.mp hstep] at herr
      cases herr
    · obtain rfl := List.mem_singleton.mp hmem
      exact hrespected es e' p' out (List.prefix_refl _) h
        ((step_wrongMember (run_matches hstart h) e').mpr ⟨hfilter, hall⟩)
  · intro hcond es' e' q out' hpre hrun herr
    obtain ⟨hfilter, hall⟩ := (step_wrongMember (run_matches hstart hrun) e').mp herr
    exact hall (hcond e' (hpre.subset (List.mem_append_right _ (List.mem_singleton.mpr rfl)))
      hfilter)

open scoped Libev.Repeating

/-- A live capture, then a socket. -/
def mixedOptions : List Opt := [.i (str "i:eth0"), .i (str "u:x")]

def mixedConfig : Config :=
  (parseCmdlineV2 (defaults fun _ => 0) mixedOptions).getD (defaults fun _ => 0)

def mixedProbe : Probe := startUp (fun _ => ⟨.en10mb, ⟨10, 0, 0, 1⟩, none, 3⟩) 0 mixedConfig

/-- A libpcap that takes every expression. -/
def acceptAll : FilterOracle := ⟨fun _ _ => true, fun _ _ => true⟩

theorem mixedConfig_openable : Openable mixedConfig := by
  have htypes : ∀ i : Fin maxInterfaces, i.val < mixedConfig.options.numberInterfaces →
      (mixedConfig.devices i).deviceType = .pcap ∨
        (mixedConfig.devices i).deviceType = .socketUnix := by
    decide
  intro i hi
  exact (htypes i hi).imp Or.inl Or.inr

/-- Any other command leaves the descriptor alone. -/
theorem respected_mixed : Respected mixedProbe [.userInput acceptAll .t (str "ls")] := by
  have hrun : Machine.run probe mixedProbe [] = some (mixedProbe, []) := rfl
  refine (respected_iff mixedConfig_openable (startUp_started _ _ mixedConfig) hrun
    (.userInput acceptAll .t (str "ls"))).mpr ?_
  rintro e' he' (⟨libpcap, msg, rfl⟩ | ⟨libpcap, msg, accepted, rfl⟩)
  · cases List.mem_singleton.mp he'
  · cases List.mem_singleton.mp he'

/-- `f tcp` reads the descriptor as a `pcap_t`, behind the live capture. -/
theorem filter_reads_socket :
    parseCmdlineV2 (defaults fun _ => 0) mixedOptions = some mixedConfig ∧
      Openable mixedConfig ∧ Started mixedConfig mixedProbe ∧
      ¬ Respected mixedProbe [.userInput acceptAll .f (str "tcp")] := by
  refine ⟨rfl, mixedConfig_openable, startUp_started _ _ mixedConfig, ?_⟩
  intro h
  exact h [] _ mixedProbe [] (List.prefix_refl _) rfl rfl

end Impd4e.DeviceHandles
