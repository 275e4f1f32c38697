import Mathlib.Tactic.Common

/-! # Probe statistics

    `get_probe_stats` of stats.c: the system and process counters are sampled in
    every call and compared with those of the call before, which the function
    keeps in static variables.  Every counter carries the instant it was read at,
    a field the source does not have and no branch looks at: what a difference
    spans can then be read off it.

    `Saved` is the baseline as it is meant, one sample of all counters; it is torn
    when its parts are of different instants.  `likeWithLike_iff` says which
    histories of failing readers make a torn baseline reach a result. -/

namespace Impd4e.ProbeStats

/-! ## Counters -/

/-- `struct proc_stat_cpu`, as far as the total uses it. -/
structure ProcStatCpu where
  user : UInt64
  nice : UInt64
  system : UInt64
  idle : UInt64
  deriving DecidableEq, Repr

def ProcStatCpu.total (cpu : ProcStatCpu) : UInt64 :=
  cpu.user + cpu.nice + cpu.system + cpu.idle

/-- `struct proc_pid_stat`, as far as `get_probe_stats` uses it. -/
structure ProcPidStat where
  utime : UInt64
  stime : UInt64
  vsize : UInt64
  rss : UInt64
  deriving DecidableEq, Repr

/-- A value and the instant it was read at. -/
structure Sample (α : Type) where
  value : α
  instant : Nat
  deriving DecidableEq, Repr

/-- Part of a sample, or what is computed from it. -/
def Sample.map {α β : Type} (f : α → β) (sample : Sample α) : Sample β :=
  ⟨f sample.value, sample.instant⟩

/-- A difference of two counters and the two instants it spans. -/
structure Difference where
  delta : UInt64
  since : Nat
  upto : Nat
  deriving DecidableEq, Repr

def Sample.sub (now prev : Sample UInt64) : Difference :=
  ⟨now.value - prev.value, prev.instant, now.instant⟩

/-- What the readers deliver in one call, in the order of the source; `none` is
    a reader that fails.  The first two are asked in the first execution only. -/
structure Readings where
  firstStat : Option ProcStatCpu
  firstPidStat : Option ProcPidStat
  memUsage : Option (UInt64 × UInt64)
  pidStat : Option ProcPidStat
  stat : Option ProcStatCpu
  deriving DecidableEq, Repr

/-! ## `get_probe_stats` -/

/-- The static variables. -/
structure Statics where
  firstExecution : Bool
  process : Sample ProcPidStat
  cpu : Sample ProcStatCpu
  cpuTotal : Sample UInt64
  cpuTotalPrev : Sample UInt64
  cpuIdlePrev : Sample UInt64
  processUtimePrev : Sample UInt64
  processStimePrev : Sample UInt64
  deriving DecidableEq, Repr

def initialStatics : Statics where
  firstExecution := true
  process := ⟨⟨0, 0, 0, 0⟩, 0⟩
  cpu := ⟨⟨0, 0, 0, 0⟩, 0⟩
  cpuTotal := ⟨0, 0⟩
  cpuTotalPrev := ⟨0, 0⟩
  cpuIdlePrev := ⟨0, 0⟩
  processUtimePrev := ⟨0, 0⟩
  processStimePrev := ⟨0, 0⟩

/-- A quotient of two differences; the `float` it is stored as is not modelled. -/
structure Share where
  part : Difference
  total : Difference
  deriving DecidableEq, Repr

/-- `struct probe_stat`, with `none` for `STATS_MISSING`. -/
structure ProbeStat where
  systemCpuIdle : Option Share
  processCpuSys : Option Share
  processCpuUser : Option Share
  systemMemFree : Option UInt64
  systemMemTotal : UInt64
  processMemVzs : Option UInt64
  processMemRss : Option UInt64
  deriving DecidableEq, Repr

/-- The special first execution; `false` is its early return. -/
def firstSample (instant : Nat) (r : Readings) (s : Statics) : Statics × Bool :=
  if s.firstExecution then
    match r.firstStat with
    | none => (s, false)
    | some cpu =>
        match r.firstPidStat with
        | none => ({ s with cpu := ⟨cpu, instant⟩ }, false)
        | some process =>
            -- just to create a difference during start-up
            let cpu := { cpu with idle := cpu.idle - 1 }
            ({ s with
                process := ⟨process, instant⟩
                cpu := ⟨cpu, instant⟩
                cpuTotal := ⟨cpu.total, instant⟩
                firstExecution := false }, true)
  else (s, true)

/-- Save the data of the previous run. -/
def savePrev (s : Statics) : Statics :=
  { s with
    cpuTotalPrev := s.cpuTotal
    cpuIdlePrev := s.cpu.map ProcStatCpu.idle
    processStimePrev := s.process.map ProcPidStat.stime
    processUtimePrev := s.process.map ProcPidStat.utime }

/-- The three readers of every execution; `none` is an early return, else the
    memory usage, total and free. -/
def nextSample (instant : Nat) (r : Readings) (s : Statics) :
    Statics × Option (UInt64 × UInt64) :=
  match r.memUsage with
  | none => (s, none)
  | some mem =>
      match r.pidStat with
      | none => (s, none)
      | some process =>
          match r.stat with
          | none => ({ s with process := ⟨process, instant⟩ }, none)
          | some cpu =>
              ({ s with
                  process := ⟨process, instant⟩
                  cpu := ⟨cpu, instant⟩
                  cpuTotal := ⟨cpu.total, instant⟩ }, some mem)

/-- The values missing until the end. -/
def missing (stat : ProbeStat) : ProbeStat :=
  { stat with
    systemCpuIdle := none
    processCpuSys := none
    processCpuUser := none
    systemMemFree := none
    processMemVzs := none
    processMemRss := none }

/-- Set all values. -/
def report (pagesize : UInt64) (mem : UInt64 × UInt64) (s : Statics) : ProbeStat :=
  let cpuTotalDelta := s.cpuTotal.sub s.cpuTotalPrev
  { systemCpuIdle := some ⟨(s.cpu.map ProcStatCpu.idle).sub s.cpuIdlePrev, cpuTotalDelta⟩
    processCpuSys :=
      some ⟨(s.process.map ProcPidStat.stime).sub s.processStimePrev, cpuTotalDelta⟩
    processCpuUser :=
      some ⟨(s.process.map ProcPidStat.utime).sub s.processUtimePrev, cpuTotalDelta⟩
    systemMemFree := some mem.2
    systemMemTotal := mem.1
    processMemVzs := some s.process.value.vsize
    processMemRss := some (s.process.value.rss * pagesize) }

/-- `get_probe_stats` as the `n`-th call, which samples at the instants `2 * n` and
    `2 * n + 1`.  The total is unsigned: its difference is not positive exactly
    when it is 0. -/
def getProbeStats (pagesize : UInt64) (n : Nat) (r : Readings) (stat : ProbeStat)
    (s : Statics) : Int × ProbeStat × Statics :=
  match firstSample (2 * n) r s with
  | (s, false) => (-1, missing stat, s)
  | (s, true) =>
      match nextSample (2 * n + 1) r (savePrev s) with
      | (s, none) => (-1, missing stat, s)
      | (s, some mem) =>
          if (s.cpuTotal.sub s.cpuTotalPrev).delta = 0 then (-1, missing stat, s)
          else (0, report pagesize mem s, s)

/-! ## What a sampling can do -/

/-- What the three readers of every execution leave when they succeed. -/
def sampled (instant : Nat) (process : ProcPidStat) (cpu : ProcStatCpu) (s : Statics) : Statics :=
  { s with
    process := ⟨process, instant⟩
    cpu := ⟨cpu, instant⟩
    cpuTotal := ⟨cpu.total, instant⟩ }

/-- One of the first two readers fails, the last one does, or none. -/
theorem nextSample_cases (instant : Nat) (r : Readings) (s : Statics) :
    ((r.memUsage = none ∨ r.pidStat = none) ∧ nextSample instant r s = (s, none)) ∨
    (∃ mem process, r.memUsage = some mem ∧ r.pidStat = some process ∧ r.stat = none ∧
      nextSample instant r s = ({ s with process := ⟨process, instant⟩ }, none)) ∨
    ∃ mem process cpu, r.memUsage = some mem ∧ r.pidStat = some process ∧ r.stat = some cpu ∧
      nextSample instant r s = (sampled instant process cpu s, some mem) := by
  unfold nextSample
  cases hmem : r.memUsage with
  | none => exact .inl ⟨.inl rfl, rfl⟩
  | some mem =>
      cases hpid : r.pidStat with
      | none => exact .inl ⟨.inr rfl, rfl⟩
      | some process =>
          cases hcpu : r.stat with
          | none => exact .inr (.inl ⟨mem, process, rfl, rfl, rfl, rfl⟩)
          | some cpu => exact .inr (.inr ⟨mem, process, cpu, rfl, rfl, rfl, rfl⟩)

/-! ## Histories of calls -/

/-- One call: the caller's structure and what the readers deliver. -/
structure Call where
  stat : ProbeStat
  readings : Readings
  deriving DecidableEq, Repr

/-- The static variables after a history of calls, the newest first. -/
def staticsAfter (pagesize : UInt64) : List Call → Statics
  | [] => initialStatics
  | c :: before =>
      (getProbeStats pagesize before.length c.readings c.stat (staticsAfter pagesize before)).2.2

/-- The call `c` after a history. -/
def callAfter (pagesize : UInt64) (before : List Call) (c : Call) : Int × ProbeStat × Statics :=
  getProbeStats pagesize before.length c.readings c.stat (staticsAfter pagesize before)

/-- The differences a result divides. -/
def ProbeStat.differences (stat : ProbeStat) : List Difference :=
  ([stat.systemCpuIdle, stat.processCpuSys, stat.processCpuUser].filterMap id).flatMap
    fun share => [share.part, share.total]

/-- All differences of a result span the same two instants. -/
def SameSpan (stat : ProbeStat) : Prop :=
  ∃ since upto, ∀ d ∈ stat.differences, d.since = since ∧ d.upto = upto

/-- Every call of the history that returns 0 compares like with like. -/
def ComparesLikeWithLike (pagesize : UInt64) (calls : List Call) : Prop :=
  ∀ later c before, calls = later ++ c :: before →
    (callAfter pagesize before c).1 = 0 → SameSpan (callAfter pagesize before c).2.1

/-- One of the three readers of every execution fails. -/
def Readings.Fail (r : Readings) : Prop :=
  r.memUsage = none ∨ r.pidStat = none ∨ r.stat = none

/-- The static variables that make the baseline. -/
def Statics.baseline (s : Statics) : Sample ProcPidStat × Sample ProcStatCpu × Sample UInt64 :=
  (s.process, s.cpu, s.cpuTotal)

/-- The baseline a call compares with: the one it finds, or in the first execution
    the one it samples first. -/
def baselineBefore (pagesize : UInt64) (before : List Call) (c : Call) :
    Sample ProcPidStat × Sample ProcStatCpu × Sample UInt64 :=
  (firstSample (2 * before.length) c.readings (staticsAfter pagesize before)).1.baseline

/-- Every call of the history in which a reader fails leaves the baseline as it is. -/
def KeepsBaseline (pagesize : UInt64) (calls : List Call) : Prop :=
  ∀ later c before, calls = later ++ c :: before → c.readings.Fail →
    (callAfter pagesize before c).2.2.baseline = baselineBefore pagesize before c

/-! ## The baseline as it is meant -/

/-- One sample of all counters, known by its total; `torn` when the process
    counters are of a later instant than the system counters. -/
structure Saved where
  torn : Bool
  total : UInt64
  deriving DecidableEq, Repr

/-- The baseline a call starts from: the saved one, else a first sample. -/
def Saved.start (r : Readings) : Option Saved → Option Saved
  | some saved => some saved
  | none =>
      r.firstStat.bind fun cpu =>
        r.firstPidStat.map fun _ => ⟨false, { cpu with idle := cpu.idle - 1 }.total⟩

/-- The process counters are read and the system counters behind them are not. -/
def Readings.Tear (r : Readings) : Prop :=
  r.memUsage ≠ none ∧ r.pidStat ≠ none ∧ r.stat = none

/-- The baseline a call leaves. -/
def Saved.sample (r : Readings) (saved : Saved) : Saved :=
  match r.memUsage, r.pidStat, r.stat with
  | some _, some _, some cpu => ⟨false, cpu.total⟩
  | some _, some _, none => { saved with torn := true }
  | _, _, _ => saved

/-- The baseline after a history of calls, the newest first. -/
def savedAfter : List Call → Option Saved
  | [] => none
  | c :: before => (Saved.start c.readings (savedAfter before)).map (Saved.sample c.readings)

/-- A call that succeeds on a baseline: all readers do, and the total differs. -/
def Reports (r : Readings) (saved : Saved) : Prop :=
  r.memUsage ≠ none ∧ r.pidStat ≠ none ∧ ∃ cpu, r.stat = some cpu ∧ cpu.total ≠ saved.total

/-- The call `c` succeeds on a torn baseline. -/
def TornReport (before : List Call) (c : Call) : Prop :=
  ∃ saved, Saved.start c.readings (savedAfter before) = some saved ∧ saved.torn = true ∧
    Reports c.readings saved

/-! ## The static variables keep the baseline -/

/-- The static variables hold `saved`, sampled before `bound`. -/
structure Keeps (bound : Nat) (s : Statics) (saved : Saved) : Prop where
  running : s.firstExecution = false
  total : s.cpuTotal = ⟨saved.total, s.cpu.instant⟩
  past : s.cpu.instant < bound
  pastProcess : s.process.instant < bound
  torn : saved.torn = true ↔ s.process.instant ≠ s.cpu.instant

/-- `none` is the state in which the first execution is still to come. -/
def Represents (bound : Nat) (s : Statics) : Option Saved → Prop
  | none => s.firstExecution = true
  | some saved => Keeps bound s saved

theorem keeps_savePrev {bound : Nat} {s : Statics} {saved : Saved} (h : Keeps bound s saved) :
    Keeps bound (savePrev s) saved :=
  ⟨h.running, h.total, h.past, h.pastProcess, h.torn⟩

/-- The first part of a call ends early exactly when there is nothing to start from. -/
theorem firstSample_represents {instant : Nat} {s : Statics} {saved : Option Saved}
    (r : Readings) (h : Represents instant s saved) :
    ∃ s', Represents (instant + 1) s' (Saved.start r saved) ∧
      firstSample instant r s = (s', (Saved.start r saved).isSome) := by
  cases saved with
  | some saved =>
      have hs : Keeps instant s saved := h
      refine ⟨s, ⟨hs.running, hs.total, Nat.lt_succ_of_lt hs.past,
        Nat.lt_succ_of_lt hs.pastProcess, hs.torn⟩, ?_⟩
      simp [firstSample, hs.running, Saved.start]
  | none =>
      have hs : s.firstExecution = true := h
      cases hcpu : r.firstStat with
      | none => exact ⟨s, by simpa [Saved.start, hcpu, Represents] using hs,
          by simp [firstSample, Saved.start, hs, hcpu]⟩
      | some cpu =>
          cases hpid : r.firstPidStat with
          | none =>
              refine ⟨{ s with cpu := ⟨cpu, instant⟩ }, ?_, ?_⟩
              · simpa [Saved.start, hcpu, hpid, Represents] using hs
              · simp [firstSample, Saved.start, hs, hcpu, hpid]
          | some process =>
              refine ⟨_, ?_, by simp only [firstSample, Saved.start, hs, hcpu, hpid]; rfl⟩
              simp only [Saved.start, hcpu, hpid, Option.bind_some, Option.map_some]
              exact ⟨rfl, rfl, Nat.lt_succ_self _, Nat.lt_succ_self _, by simp⟩

/-- One sampling keeps the baseline as it is meant. -/
theorem nextSample_keeps {instant : Nat} {s : Statics} {saved : Saved} (r : Readings)
    (h : Keeps instant s saved) :
    Keeps (instant + 1) (nextSample instant r s).1 (Saved.sample r saved) := by
  have hpast : s.cpu.instant < instant + 1 := Nat.lt_succ_of_lt h.past
  rcases nextSample_cases instant r s with ⟨hfail, hnext⟩ |
    ⟨mem, process, hmem, hpid, hcpu, hnext⟩ | ⟨mem, process, cpu, hmem, hpid, hcpu, hnext⟩
  · have hsame : Saved.sample r saved = saved := by
      unfold Saved.sample
      rcases hfail with hmem | hpid
      · rw [hmem]
      · rw [hpid]
        cases r.memUsage <;> rfl
    rw [hnext, hsame]
    exact ⟨h.running, h.total, hpast, Nat.lt_succ_of_lt h.pastProcess, h.torn⟩
  · rw [hnext]
    simp only [Saved.sample, hmem, hpid, hcpu]
    exact ⟨h.running, h.total, hpast, Nat.lt_succ_self _, by simpa using (Nat.ne_of_lt h.past).symm⟩
  · rw [hnext]
    simp only [Saved.sample, hmem, hpid, hcpu]
    exact ⟨h.running, rfl, Nat.lt_succ_self _, Nat.lt_succ_self _, by simp [sampled]⟩

/-- The static variables after a call that gets past its first part. -/
theorem getProbeStats_statics {n : Nat} {r : Readings} {s s' : Statics} (pagesize : UInt64)
    (stat : ProbeStat) (h : firstSample (2 * n) r s = (s', true)) :
    (getProbeStats pagesize n r stat s).2.2 = (nextSample (2 * n + 1) r (savePrev s')).1 := by
  simp only [getProbeStats, h]
  cases hnext : nextSample (2 * n + 1) r (savePrev s') with
  | mk next mem =>
      cases mem with
      | none => rfl
      | some mem =>
          dsimp only
          split <;> rfl

/-- What one call preserves. -/
theorem getProbeStats_represents {n : Nat} {s : Statics} {saved : Option Saved}
    (pagesize : UInt64) (r : Readings) (stat : ProbeStat) (h : Represents (2 * n) s saved) :
    Represents (2 * (n + 1)) (getProbeStats pagesize n r stat s).2.2
      ((Saved.start r saved).map (Saved.sample r)) := by
  obtain ⟨s', hrep, hfirst⟩ := firstSample_represents r h
  cases hstart : Saved.start r saved with
  | none =>
      rw [hstart] at hrep hfirst
      simpa [getProbeStats, hfirst, Represents] using hrep
  | some b =>
      rw [hstart] at hrep hfirst
      rw [getProbeStats_statics pagesize stat hfirst]
      exact nextSample_keeps r (keeps_savePrev hrep)

/-- What a whole history preserves. -/
theorem staticsAfter_represents (pagesize : UInt64) (calls : List Call) :
    Represents (2 * calls.length) (staticsAfter pagesize calls) (savedAfter calls) := by
  induction calls with
  | nil => exact (rfl : initialStatics.firstExecution = true)
  | cons c before ih => exact getProbeStats_represents pagesize c.readings c.stat ih

/-! ## The result of a call -/

/-- The part of a share spans the total's instants exactly when the two counters
    were last sampled together. -/
theorem sameSpan_report {bound : Nat} {s : Statics} {b : Saved} (pagesize : UInt64)
    (instant : Nat) (mem : UInt64 × UInt64) (process : ProcPidStat) (cpu : ProcStatCpu)
    (h : Keeps bound s b) :
    SameSpan (report pagesize mem (sampled instant process cpu (savePrev s))) ↔
      ¬ b.torn = true := by
  have hspan : SameSpan (report pagesize mem (sampled instant process cpu (savePrev s))) ↔
      s.process.instant = s.cpu.instant := by
    simp [SameSpan, ProbeStat.differences, report, sampled, savePrev, Sample.sub, Sample.map,
      h.total, eq_comm]
  rw [hspan, h.torn, not_not]

/-- The total does not move exactly when its unsigned difference is 0. -/
theorem delta_eq_zero_iff {bound : Nat} {s : Statics} {b : Saved} (instant : Nat)
    (process : ProcPidStat) (cpu : ProcStatCpu) (h : Keeps bound s b) :
    let next := sampled instant process cpu (savePrev s)
    (next.cpuTotal.sub next.cpuTotalPrev).delta = 0 ↔ cpu.total = b.total := by
  simp [sampled, savePrev, Sample.sub, h.total, UInt64.sub_eq_iff_eq_add]

/-- A call with a baseline ends early when its sampling does. -/
theorem getProbeStats_early {n : Nat} {r : Readings} {s s' s'' : Statics} (pagesize : UInt64)
    (stat : ProbeStat) (hfirst : firstSample (2 * n) r s = (s', true))
    (hnext : nextSample (2 * n + 1) r (savePrev s') = (s'', none)) :
    (getProbeStats pagesize n r stat s).1 = -1 := by
  simp only [getProbeStats, hfirst, hnext]

/-- A call with a baseline succeeds exactly when the readers do and the total
    moved, and then compares like with like exactly when the baseline is whole. -/
theorem getProbeStats_result {n : Nat} {r : Readings} {s s' : Statics} {b : Saved}
    (pagesize : UInt64) (stat : ProbeStat) (hfirst : firstSample (2 * n) r s = (s', true))
    (h : Keeps (2 * n + 1) s' b) :
    ((getProbeStats pagesize n r stat s).1 = 0 ↔ Reports r b) ∧
      (Reports r b →
        (SameSpan (getProbeStats pagesize n r stat s).2.1 ↔ ¬ b.torn = true)) := by
  have hearly : ∀ s'', nextSample (2 * n + 1) r (savePrev s') = (s'', none) →
      ¬ Reports r b → ((getProbeStats pagesize n r stat s).1 = 0 ↔ Reports r b) ∧
        (Reports r b →
          (SameSpan (getProbeStats pagesize n r stat s).2.1 ↔ ¬ b.torn = true)) := by
    intro s'' hnext hno
    rw [getProbeStats_early pagesize stat hfirst hnext]
    exact ⟨iff_of_false (by decide) hno, fun hr => absurd hr hno⟩
  rcases nextSample_cases (2 * n + 1) r (savePrev s') with ⟨hfail, hnext⟩ |
    ⟨mem, process, hmem, hpid, hcpu, hnext⟩ | ⟨mem, process, cpu, hmem, hpid, hcpu, hnext⟩
  · refine hearly _ hnext ?_
    rintro ⟨hmem, hpid, -⟩
    exact hfail.elim hmem hpid
  · refine hearly _ hnext ?_
    rintro ⟨-, -, cpu, hsome, -⟩
    rw [hcpu] at hsome
    cases hsome
  · have hdelta := delta_eq_zero_iff (2 * n + 1) process cpu h
    have hreports : Reports r b ↔ ¬ cpu.total = b.total := by
      simp [Reports, hmem, hpid, hcpu]
    simp only [getProbeStats, hfirst, hnext, hdelta, hreports]
    by_cases hsame : cpu.total = b.total
    · simp [hsame]
    · simp only [hsame, if_false]
      exact ⟨by simp, fun _ => sameSpan_report pagesize _ mem process cpu h⟩

/-! ## The baseline of a call that fails -/

/-- A failing reader leaves the baseline as it is unless it tears it. -/
theorem baseline_fail_iff {n : Nat} {r : Readings} {s s' : Statics} {saved : Saved}
    (pagesize : UInt64) (stat : ProbeStat) (hfirst : firstSample (2 * n) r s = (s', true))
    (h : Keeps (2 * n + 1) s' saved) (hfail : r.Fail) :
    (getProbeStats pagesize n r stat s).2.2.baseline = s'.baseline ↔ ¬ r.Tear := by
  rw [getProbeStats_statics pagesize stat hfirst]
  rcases nextSample_cases (2 * n + 1) r (savePrev s') with ⟨hearly, hnext⟩ |
    ⟨mem, process, hmem, hpid, hcpu, hnext⟩ | ⟨mem, process, cpu, hmem, hpid, hcpu, -⟩
  · rw [hnext]
    refine iff_of_true rfl ?_
    rintro ⟨hmem, hpid, -⟩
    exact hearly.elim hmem hpid
  · have htear : r.Tear := by simp [Readings.Tear, hmem, hpid, hcpu]
    rw [hnext]
    refine iff_of_false (fun hsame => ?_) (not_not.mpr htear)
    -- the process counters carry the instant of this call now
    have hmoved : 2 * n + 1 = s'.process.instant :=
      congrArg (fun baseline => baseline.1.instant) hsame
    have hpast := h.pastProcess
    omega
  · simp [Readings.Fail, hmem, hpid, hcpu] at hfail

/-! ## Like with like -/

/-- A call after a history goes wrong exactly when it succeeds on a torn baseline. -/
theorem callAfter_sameSpan (pagesize : UInt64) (before : List Call) (c : Call) :
    ((callAfter pagesize before c).1 = 0 → SameSpan (callAfter pagesize before c).2.1) ↔
      ¬ TornReport before c := by
  obtain ⟨s', hrep, hfirst⟩ :=
    firstSample_represents c.readings (staticsAfter_represents pagesize before)
  cases hstart : Saved.start c.readings (savedAfter before) with
  | none =>
      rw [hstart] at hfirst
      have hresult : (callAfter pagesize before c).1 = -1 := by
        simp [callAfter, getProbeStats, hfirst]
      simp [hresult, TornReport, hstart]
  | some b =>
      rw [hstart] at hrep hfirst
      obtain ⟨hzero, hspan⟩ := getProbeStats_result pagesize c.stat hfirst hrep
      have htorn : TornReport before c ↔ b.torn = true ∧ Reports c.readings b := by
        simp [TornReport, hstart]
      unfold callAfter
      rw [hzero, htorn]
      constructor
      · rintro hsame ⟨ht, hr⟩
        exact (hspan hr).mp (hsame hr) ht
      · intro hwhole hr
        exact (hspan hr).mpr fun ht => hwhole ⟨ht, hr⟩

/-- A call after a history that a reader fails keeps the baseline unless it tears it. -/
theorem callAfter_baseline (pagesize : UInt64) (before : List Call) (c : Call) :
    (c.readings.Fail →
      (callAfter pagesize before c).2.2.baseline = baselineBefore pagesize before c) ↔
      ¬ (Saved.start c.readings (savedAfter before) ≠ none ∧ c.readings.Tear) := by
  obtain ⟨s', hrep, hfirst⟩ :=
    firstSample_represents c.readings (staticsAfter_represents pagesize before)
  rw [baselineBefore, hfirst, callAfter]
  cases hstart : Saved.start c.readings (savedAfter before) with
  | none =>
      rw [hstart] at hfirst
      refine iff_of_true (fun _ => ?_) fun h => h.1 rfl
      simp [getProbeStats, hfirst]
  | some b =>
      rw [hstart] at hrep hfirst
      constructor
      · rintro hkeep ⟨-, htear⟩
        have hfail : c.readings.Fail := .inr (.inr htear.2.2)
        exact (baseline_fail_iff pagesize c.stat hfirst hrep hfail).mp (hkeep hfail) htear
      · intro hwhole hfail
        refine (baseline_fail_iff pagesize c.stat hfirst hrep hfail).mpr fun htear => ?_
        exact hwhole ⟨Option.some_ne_none b, htear⟩

/-- **PROBE STATISTICS COMPARE LIKE WITH LIKE.**  Over a history every result of 0
    divides differences of one span exactly when no call succeeds on a torn
    baseline, and every failing reader leaves the baseline as it is exactly when
    none tears it. -/
theorem likeWithLike_iff (pagesize : UInt64) (calls : List Call) :
    (ComparesLikeWithLike pagesize calls ↔
      ∀ later c before, calls = later ++ c :: before → ¬ TornReport before c) ∧
    (KeepsBaseline pagesize calls ↔
      ∀ later c before, calls = later ++ c :: before →
        ¬ (Saved.start c.readings (savedAfter before) ≠ none ∧ c.readings.Tear)) := by
  constructor
  · constructor
    · intro h later c before hcalls
      exact (callAfter_sameSpan pagesize before c).mp (h later c before hcalls)
    · intro h later c before hcalls
      exact (callAfter_sameSpan pagesize before c).mpr (h later c before hcalls)
  · constructor
    · intro h later c before hcalls
      exact (callAfter_baseline pagesize before c).mp (h later c before hcalls)
    · intro h later c before hcalls
      exact (callAfter_baseline pagesize before c).mpr (h later c before hcalls)

/-- A call whose readers deliver a first sample and then `pid` and `stat`. -/
def exampleCall (pid : Option ProcPidStat) (stat : Option ProcStatCpu) : Call where
  stat := ⟨none, none, none, none, 0, none, none⟩
  readings := ⟨some ⟨10, 0, 10, 80⟩, some ⟨1, 1, 4096, 1⟩, some (1024, 512), pid, stat⟩

/-- The system counters fail in the first of two calls, behind the process counters. -/
def tornCalls : List Call :=
  [exampleCall (some ⟨201, 1, 4096, 1⟩) (some ⟨309, 0, 10, 80⟩),
    exampleCall (some ⟨101, 1, 4096, 1⟩) none]

/-- That call has moved the process counters of its baseline, and the next result
    divides 100 ticks of process time into 300 ticks of system time that span
    another two instants. -/
theorem likeWithLike_fails :
    (¬ ∀ pagesize calls, ComparesLikeWithLike pagesize calls) ∧
      ¬ ∀ pagesize calls, KeepsBaseline pagesize calls := by
  constructor
  · intro h
    obtain ⟨since, upto, hspan⟩ := h 4096 tornCalls [] _ _ rfl (by decide)
    have htotal := hspan ⟨300, 0, 3⟩ (by decide)
    have huser := hspan ⟨100, 1, 3⟩ (by decide)
    exact absurd (htotal.1.trans huser.1.symm) (by decide)
  · intro h
    have hkept := h 4096 tornCalls [exampleCall (some ⟨201, 1, 4096, 1⟩) (some ⟨309, 0, 10, 80⟩)]
      (exampleCall (some ⟨101, 1, 4096, 1⟩) none) [] rfl (.inr (.inr rfl))
    exact absurd hkept (by decide)

end Impd4e.ProbeStats
