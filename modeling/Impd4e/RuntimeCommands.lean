import Impd4e.EventLoop

/-! # Commands at run time

    A command with a valid argument ought to put the new value in force and say
    so, any other to say that it failed and to change nothing.  The commands
    read their arguments in four ways, and most of the readers give 0 where
    there is no number; `set_all_filter` never fails.  `honest_iff` says for
    which arguments, in which states, the answer is right. -/

namespace Impd4e.RuntimeCommands

open Impd4e.CString Impd4e.PacketHandler Impd4e.CmdLine Impd4e.ConfigHandler Impd4e.EventLoop
  Binary64
open Impd4e.ExportHandler (maxInterfaces)

/-! ## What a command promises -/

/-- The beginning of the reply of a command that succeeds. -/
def successText : Command → CStr
  | .r => str "INFO: new sampling ratio set: "
  | .m => str "INFO: minimum selection range set: "
  | .M => str "INFO: maximum selection range set: "
  | .f => str "INFO: new filter expression set: "
  | .t => str "INFO: new template set: "
  | .I => str "INFO: new packet export timeout set: "
  | .J => str "INFO: new probestats export timeout set: "
  | .K => str "INFO: new ifstats export timeout set: "

def ReportsSuccess (cmd : Command) (reply : CStr) : Prop := successText cmd <+: reply

/-- The argument is valid: a number at its start, in its bounds where it has
    bounds; a template; a filter that every interface accepts. -/
def Valid (libpcap : FilterOracle) (msg : CStr) (p : Probe) : Command → Prop
  | .r => ∃ x, doubleAt msg = some (.finite x) ∧ 0 ≤ x ∧ x ≤ 100
  | .m => ∃ v, integerAt msg = some v
  | .M => ∃ v, integerAt msg = some v
  | .f => ∀ i : Fin maxInterfaces, i.val < p.options.numberInterfaces →
      libpcap.pcapCompile i msg = true ∧ libpcap.pcapSetfilter i msg = true
  | .t => ∃ tId, parseTemplate msg = some tId
  | .I => ∃ v, integerAt msg = some v ∧ 0 ≤ v
  | .J => ∃ v, integerAt msg = some v ∧ 0 ≤ v
  | .K => ∃ v, integerAt msg = some v ∧ 0 ≤ v

/-- The selection range is as wide as the ratio says, to within two values. -/
def RatioInForce (x : ℚ) (options : Options) : Prop :=
  options.selRangeMin ≤ options.selRangeMax ∧
    |((options.selRangeMax.toNat : ℚ) - options.selRangeMin.toNat) - 4294967295 / 100 * x| < 2

/-- A timer calls back every `v` seconds, or not at all. -/
def TimeoutInForce (v : Int) (timer : EvTimer) : Prop :=
  timer.period = .finite v ∧ (timer.active = true ↔ 0 < v)

/-- The value of the argument is in force, for every interface.  A bound of the
    selection range is cut to what a hash can be. -/
def InForce (msg : CStr) (p : Probe) : Command → Prop
  | .r => ∃ x, doubleAt msg = some (.finite x) ∧ RatioInForce x p.options
  | .m => ∃ v, integerAt msg = some v ∧
      (p.options.selRangeMin.toNat : Int) = max 0 (min v 4294967295)
  | .M => ∃ v, integerAt msg = some v ∧
      (p.options.selRangeMax.toNat : Int) = max 0 (min v 4294967295)
  | .f => ∀ i : Fin maxInterfaces, i.val < p.options.numberInterfaces →
      p.handles i = .pcap ⟨some msg⟩
  | .t => ∃ tId, parseTemplate msg = some tId ∧
      ∀ i : Fin maxInterfaces, i.val < p.options.numberInterfaces →
        effectiveTemplate p.options (p.devices i) = tId
  | .I => ∃ v, integerAt msg = some v ∧ TimeoutInForce v p.exportTimerPkid ∧
      -- the gate of `handle_ip_packet`
      (p.options.exportPktidInterval ≤ 0 ↔ v ≤ 0)
  | .J => ∃ v, integerAt msg = some v ∧ TimeoutInForce v p.exportTimerStats
  | .K => ∃ v, integerAt msg = some v ∧ TimeoutInForce v p.exportTimerSampling

/-- Selection range, templates, filters and timers are what they were. -/
structure Unchanged (p p' : Probe) : Prop where
  selRangeMin : p'.options.selRangeMin = p.options.selRangeMin
  selRangeMax : p'.options.selRangeMax = p.options.selRangeMax
  templateID : p'.options.templateID = p.options.templateID
  templateIds : ∀ i, (p'.devices i).templateId = (p.devices i).templateId
  filters : p'.handles = p.handles
  timers : ∀ timer, timerOf p' timer = timerOf p timer

theorem Unchanged.refl (p : Probe) : Unchanged p p :=
  ⟨rfl, rfl, rfl, fun _ => rfl, rfl, fun _ => rfl⟩

/-- The command does what its reply says, and fails just on what is not valid. -/
def Honest [Libev] (libpcap : FilterOracle) (cmd : Command) (msg : CStr) (p : Probe) : Prop :=
  ∃ p' reply, cmd.call libpcap msg p = .ok (p', reply) ∧
    (¬ Valid libpcap msg p cmd → ¬ ReportsSuccess cmd reply ∧ Unchanged p p') ∧
    (Valid libpcap msg p cmd → ReportsSuccess cmd reply ∧ InForce msg p' cmd)

/-- An integer that survives the conversion to `int`: it is no less than 0 and
    fits, or it is negative and stays so. -/
def Timeout (msg : CStr) : Prop :=
  ∃ v, integerAt msg = some v ∧
    ((0 ≤ v ∧ v ≤ 2147483647) ∨ (v < 0 ∧ toInt (strtol0 msg) < 0))

/-- What the argument and the state have to be for the command to be honest. -/
def Sound (libpcap : FilterOracle) (msg : CStr) (p : Probe) : Command → Prop
  | .r => ∃ x, doubleAt msg = some (.finite x) ∧ 0 ≤ x ∧ x ≤ 100
  | .m => ∃ v, integerAt msg = some v
  | .M => ∃ v, integerAt msg = some v
  | .f => ∀ i : Fin maxInterfaces, i.val < p.options.numberInterfaces →
      (∃ q, p.handles i = .pcap q) ∧
        libpcap.pcapCompile i msg = true ∧ libpcap.pcapSetfilter i msg = true
  | .t => True
  | .I => Timeout msg ∧ ∀ v, integerAt msg = some v → 0 ≤ v →
      (p.options.exportPktidInterval ≤ 0 ↔ v ≤ 0)
  | .J => Timeout msg
  | .K => Timeout msg

/-! ## Replies -/

variable {libpcap : FilterOracle} {cmd : Command} {msg : CStr} {p p' : Probe} {reply : CStr}

theorem reports_success (cmd : Command) (msg : CStr) :
    ReportsSuccess cmd (setCfgResponse (successText cmd) msg) := by
  rw [ReportsSuccess, setCfgResponse, List.prefix_take_iff]
  refine ⟨List.prefix_append _ _, ?_⟩
  cases cmd <;> decide

/-- Two texts that part before either ends are not both the beginning of one
    reply. -/
theorem reports_failure {text : CStr} (hlen : text.length ≤ 255)
    (h : ¬ successText cmd <+: text) (h' : ¬ text <+: successText cmd) :
    ¬ ReportsSuccess cmd (setCfgResponse text msg) := by
  intro hsuccess
  have htext : text <+: setCfgResponse text msg := by
    rw [setCfgResponse, List.prefix_take_iff]
    exact ⟨List.prefix_append _ _, hlen⟩
  rcases List.prefix_or_prefix_of_prefix hsuccess htext with hpre | hpre
  · exact h hpre
  · exact h' hpre

/-- A command that reports success on what is not valid is not honest. -/
theorem valid_of_honest [Libev] (h : Honest libpcap cmd msg p)
    (hsuccess : ∀ p' reply, cmd.call libpcap msg p = .ok (p', reply) →
      ReportsSuccess cmd reply) : Valid libpcap msg p cmd := by
  obtain ⟨p', reply, hcall, hinvalid, -⟩ := h
  by_contra hnot
  exact (hinvalid hnot).1 (hsuccess p' reply hcall)

/-- A valid argument in force. -/
theorem honest_of_valid [Libev] (hcall : cmd.call libpcap msg p = .ok (p', reply))
    (hvalid : Valid libpcap msg p cmd) (hsuccess : ReportsSuccess cmd reply)
    (hforce : InForce msg p' cmd) : Honest libpcap cmd msg p :=
  ⟨p', reply, hcall, fun hnot => absurd hvalid hnot, fun _ => ⟨hsuccess, hforce⟩⟩

/-- A refused argument. -/
theorem honest_of_invalid [Libev] (hcall : cmd.call libpcap msg p = .ok (p, reply))
    (hinvalid : ¬ Valid libpcap msg p cmd) (hfailure : ¬ ReportsSuccess cmd reply) :
    Honest libpcap cmd msg p :=
  ⟨p, reply, hcall, fun _ => ⟨hfailure, .refl p⟩, fun hvalid => absurd hvalid hinvalid⟩

/-! ## The selection range -/

theorem clampU32_toNat (v : Int) : ((clampU32 v).toNat : Int) = max 0 (min v 4294967295) := by
  rw [clampU32]
  split
  · rename_i hbig
    show (4294967295 : Int) = _
    omega
  · split
    · show (0 : Int) = _
      omega
    · rw [UInt32.toNat_ofNat']
      omega

/-- The clamp to 64 bits on the way does not show. -/
theorem clampU32_strtol0 {v : Int} (h : integerAt msg = some v) :
    ((clampU32 (strtol0 msg)).toNat : Int) = max 0 (min v 4294967295) := by
  rw [clampU32_toNat, strtol0, h, Option.getD_some]
  omega

theorem honest_m [Libev] : Honest libpcap .m msg p ↔ Sound libpcap msg p .m := by
  constructor
  · intro h
    refine valid_of_honest h fun p' reply hcall => ?_
    obtain ⟨-, rfl⟩ := Prod.mk.inj (Except.ok.inj hcall)
    exact reports_success .m _
  · rintro ⟨v, hv⟩
    exact honest_of_valid rfl ⟨v, hv⟩ (reports_success .m _) ⟨v, hv, clampU32_strtol0 hv⟩

theorem honest_M [Libev] : Honest libpcap .M msg p ↔ Sound libpcap msg p .M := by
  constructor
  · intro h
    refine valid_of_honest h fun p' reply hcall => ?_
    obtain ⟨-, rfl⟩ := Prod.mk.inj (Except.ok.inj hcall)
    exact reports_success .M _
  · rintro ⟨v, hv⟩
    exact honest_of_valid rfl ⟨v, hv⟩ (reports_success .M _) ⟨v, hv, clampU32_strtol0 hv⟩

/-- The quotient is off by little. -/
theorem quotient_close :
    |nearest (4294967295 / 100) - 4294967295 / 100| ≤ (1 : ℚ) / 268435456 := by
  have hquot : |nearest (4294967295 / 100) - 4294967295 / 100| ≤ (2 : ℚ) ^ ((26 : ℤ) - 54) :=
    abs_nearest_sub_le (by norm_num) (by norm_num) (by norm_num)
  exact hquot.trans_eq (by norm_num)

/-- Times a ratio of at most 100, it is off by little still. -/
theorem exact_product_close {x : ℚ} (hx : 0 ≤ x) (hx' : x ≤ 100) :
    |nearest (4294967295 / 100) * x - 4294967295 / 100 * x| ≤ 1 / 268435456 * 100 := by
  rw [← sub_mul, abs_mul, abs_of_nonneg hx]
  exact mul_le_mul quotient_close hx' hx (by norm_num)

/-- And so is the product, which fits 32 bits. -/
theorem product_close {x : ℚ} (hx : 0 ≤ x) (hx' : x ≤ 100) :
    0 ≤ nearest (nearest (4294967295 / 100) * x) ∧
      nearest (nearest (4294967295 / 100) * x) < 4294967296 ∧
      |nearest (nearest (4294967295 / 100) * x) - 4294967295 / 100 * x| < 1 := by
  have hquot0 : 0 ≤ nearest (4294967295 / 100) := nearest_nonneg (by norm_num)
  have hprod0 : 0 ≤ nearest (4294967295 / 100) * x := mul_nonneg hquot0 hx
  have hclose := abs_le.mp (exact_product_close hx hx')
  have hprod : nearest (4294967295 / 100) * x < 2 ^ (32 : ℤ) := by
    have hpow : (2 : ℚ) ^ (32 : ℤ) = 4294967296 := by norm_num
    linarith
  have hround : |nearest (nearest (4294967295 / 100) * x) - nearest (4294967295 / 100) * x| ≤
      (2 : ℚ) ^ ((32 : ℤ) - 54) := abs_nearest_sub_le hprod0 hprod (by norm_num)
  have hsmall : (2 : ℚ) ^ ((32 : ℤ) - 54) = 1 / 4194304 := by norm_num
  rw [hsmall, abs_le] at hround
  refine ⟨nearest_nonneg hprod0, by linarith, ?_⟩
  rw [abs_lt]
  constructor
  · linarith
  · linarith

/-- A ratio from 0 to 100 makes a range of its width. -/
theorem ratio_width {x : ℚ} (hx : 0 ≤ x) (hx' : x ≤ 100) :
    ∃ width : UInt32, u32OfDouble (ratioProduct (.finite x)) = some width ∧
      |(width.toNat : ℚ) - 4294967295 / 100 * x| < 2 := by
  obtain ⟨hy0, hlt, hclose⟩ := product_close hx hx'
  generalize hy : nearest (nearest (4294967295 / 100) * x) = y at hy0 hlt hclose
  have hfinite : ratioProduct (.finite x) = .finite y := by
    have hbig : (4294967296 : ℚ) ≤ 2 ^ 1024 := by
      calc (4294967296 : ℚ) = 2 ^ 32 := by norm_num
        _ ≤ 2 ^ 1024 := pow_le_pow_right₀ (by norm_num) (by norm_num)
    rw [ratioProduct, ofRat, hy, abs_of_nonneg hy0, if_neg (not_le.mpr (hlt.trans_le hbig))]
  have hfloor0 : 0 ≤ ⌊y⌋ := Int.floor_nonneg.mpr hy0
  have hfloorlt : ⌊y⌋ < 4294967296 := Int.floor_lt.mpr (by exact_mod_cast hlt)
  refine ⟨UInt32.ofNat ⌊y⌋.toNat, ?_, ?_⟩
  · rw [hfinite, u32OfDouble, if_pos ⟨by linarith, hlt⟩]
  · -- the integer part is off by less than 1
    have hnat : ((UInt32.ofNat ⌊y⌋.toNat).toNat : ℚ) = ⌊y⌋ := by
      rw [UInt32.toNat_ofNat', Nat.mod_eq_of_lt (by omega), ← Int.cast_natCast,
        Int.toNat_of_nonneg hfloor0]
    have hle : (⌊y⌋ : ℚ) ≤ y := Int.floor_le y
    have hgt : y < ⌊y⌋ + 1 := Int.lt_floor_add_one y
    rw [abs_lt] at hclose
    rw [hnat, abs_lt]
    constructor
    · linarith
    · linarith

theorem setSamplingRatio_of_valid {x : ℚ} {options : Options}
    (h : doubleAt msg = some (.finite x)) (hx : 0 ≤ x) (hx' : x ≤ 100) :
    ∃ options', setSamplingRatio options msg = some options' ∧ RatioInForce x options' := by
  obtain ⟨width, hwidth, hclose⟩ := ratio_width hx hx'
  have hmsg : strtod msg = .finite x := by
    rw [strtod, h]
    rfl
  rw [setSamplingRatio, hmsg, hwidth]
  have hw := width.toNat_lt
  dsimp only
  -- either way the range is as wide as `width`
  split
  · rename_i hroom
    have hroom' : 4294967295 - width.toNat > 429496729 := by
      have := UInt32.lt_iff_toNat_lt.mp hroom
      rwa [UInt32.toNat_sub_of_le _ _ (UInt32.le_iff_toNat_le.mpr (by
        show width.toNat ≤ 4294967295
        omega))] at this
    have hadd : (width + 0x19999999).toNat = width.toNat + 429496729 := by
      rw [UInt32.toNat_add]
      show (width.toNat + 429496729) % 4294967296 = _
      omega
    refine ⟨_, rfl, ?_, ?_⟩
    · rw [UInt32.le_iff_toNat_le, hadd]
      show 429496729 ≤ _
      omega
    · show |(((width + 0x19999999).toNat : ℚ) - ((429496729 : ℕ) : ℚ)) - _| < 2
      rw [hadd, Nat.cast_add, add_sub_cancel_right]
      exact hclose
  · have hsub : (4294967295 - width).toNat = 4294967295 - width.toNat :=
      UInt32.toNat_sub_of_le _ _ (UInt32.le_iff_toNat_le.mpr (by
        show width.toNat ≤ 4294967295
        omega))
    refine ⟨_, rfl, ?_, ?_⟩
    · rw [UInt32.le_iff_toNat_le, hsub]
      exact Nat.sub_le _ _
    · show |(((4294967295 : ℕ) : ℚ) - ((4294967295 - width).toNat : ℚ)) - _| < 2
      rw [hsub, Nat.cast_sub (by omega), sub_sub_cancel]
      exact hclose

theorem configurationSetRatio_ok {options : Options}
    (h : setSamplingRatio p.options msg = some options) :
    ∃ p', configurationSetRatio msg p = .ok (p', setCfgResponse (successText .r) msg) ∧
      p'.options = options := by
  unfold configurationSetRatio
  split
  · rename_i hnone
    cases hnone.symm.trans h
  · rename_i options' hsome
    exact ⟨_, rfl, Option.some.inj (hsome.symm.trans h)⟩

theorem honest_r [Libev] : Honest libpcap .r msg p ↔ Sound libpcap msg p .r := by
  constructor
  · intro h
    refine valid_of_honest h fun p' reply hcall => ?_
    rw [Command.call, configurationSetRatio] at hcall
    split at hcall
    · cases hcall
    · obtain ⟨-, rfl⟩ := Prod.mk.inj (Except.ok.inj hcall)
      exact reports_success .r _
  · rintro ⟨x, hmsg, hx, hx'⟩
    obtain ⟨options, hset, hforce⟩ := setSamplingRatio_of_valid hmsg hx hx'
    obtain ⟨p', hcall, hp'⟩ := configurationSetRatio_ok hset
    exact honest_of_valid hcall ⟨x, hmsg, hx, hx'⟩ (reports_success .r _)
      ⟨x, hmsg, hp' ▸ hforce⟩

/-! ## Templates -/

/-- The template command is honest about every text. -/
theorem honest_t [Libev] : Honest libpcap .t msg p := by
  cases hparse : parseTemplate msg with
  | none =>
      have hcall : Command.t.call libpcap msg p =
          .ok (p, setCfgResponse (str "INFO: unknown template: ") msg) := by
        rw [Command.call, configurationSetTemplate, hparse]
      refine honest_of_invalid hcall ?_ (reports_failure (by decide) (by decide) (by decide))
      rintro ⟨tId, htId⟩
      cases hparse.symm.trans htId
  | some tId =>
      have hcall : Command.t.call libpcap msg p =
          .ok ((configurationSetTemplate msg p).1, setCfgResponse (successText .t) msg) := by
        rw [Command.call, configurationSetTemplate, hparse]
        rfl
      refine honest_of_valid hcall ⟨tId, hparse⟩ (reports_success .t _)
        ⟨tId, hparse, fun i hi => ?_⟩
      rw [configurationSetTemplate, hparse] at hi ⊢
      rw [effectiveTemplate, if_pos]
      exact congrArg DeviceDev.templateId (if_pos hi)

/-! ## Filters -/

/-- The loop goes through over `pcap_t` handles only. -/
theorem setFilters_pcap {is : List (Fin maxInterfaces)}
    {handles handles' : Fin maxInterfaces → DeviceHandle}
    (h : setFilters libpcap msg is handles = .ok handles') :
    ∀ i ∈ is, ∃ q, handles i = .pcap q := by
  induction is generalizing handles with
  | nil => exact fun i hi => absurd hi List.not_mem_nil
  | cons j is ih =>
      rw [setFilters] at h
      cases hj : handles j with
      | unset => rw [hj] at h; cases h
      | socket fd => rw [hj] at h; cases h
      | pcap q =>
          cases hset : set_filter libpcap msg j (handles j) with
          | error u => rw [hset] at h; cases h
          | ok r =>
              rw [hset] at h
              have htail := ih h
              intro i hi
              by_cases hij : i = j
              · exact ⟨q, hij ▸ hj⟩
              · obtain ⟨q', hq'⟩ := htail i ((List.mem_cons.mp hi).resolve_left hij)
                rw [Function.update_of_ne hij] at hq'
                exact ⟨q', hq'⟩

/-- Where libpcap accepts the expression for all, all get it. -/
theorem setFilters_accepted {is : List (Fin maxInterfaces)}
    {handles : Fin maxInterfaces → DeviceHandle} (hpcap : ∀ i ∈ is, ∃ q, handles i = .pcap q)
    (haccept : ∀ i ∈ is, libpcap.pcapCompile i msg = true ∧ libpcap.pcapSetfilter i msg = true) :
    ∃ handles', setFilters libpcap msg is handles = .ok handles' ∧
      ∀ i, (i ∈ is ∨ handles i = .pcap ⟨some msg⟩) → handles' i = .pcap ⟨some msg⟩ := by
  induction is generalizing handles with
  | nil =>
      refine ⟨handles, rfl, fun i hi => ?_⟩
      exact hi.resolve_left List.not_mem_nil
  | cons j is ih =>
      obtain ⟨⟨q, hq⟩, his⟩ := List.forall_mem_cons.mp hpcap
      obtain ⟨⟨hcompile, hsetfilter⟩, hrest⟩ := List.forall_mem_cons.mp haccept
      have hset : set_filter libpcap msg j (handles j) = .ok (.pcap ⟨some msg⟩, 0) := by
        rw [hq, set_filter, if_pos hcompile, if_pos hsetfilter]
      obtain ⟨handles', hloop, hforce⟩ := @ih (Function.update handles j (.pcap ⟨some msg⟩))
        (fun i hi => by
          by_cases hij : i = j
          · exact ⟨⟨some msg⟩, hij ▸ Function.update_self ..⟩
          · rw [Function.update_of_ne hij]
            exact his i hi) hrest
      refine ⟨handles', ?_, fun i hi => hforce i ?_⟩
      · rw [setFilters, hset]
        exact hloop
      · by_cases hij : i = j
        · exact Or.inr (hij ▸ Function.update_self ..)
        · rw [Function.update_of_ne hij]
          exact hi.imp_left fun hmem => (List.mem_cons.mp hmem).resolve_left hij

theorem configurationSetFilter_ok (h : configurationSetFilter libpcap msg p = .ok (p', reply)) :
    reply = setCfgResponse (successText .f) msg ∧
      ∀ i ∈ p.interfaces, ∃ q, p.handles i = .pcap q := by
  obtain ⟨handles, hset, -, rfl⟩ := configurationSetFilter_eq_ok h
  exact ⟨rfl, setFilters_pcap hset⟩

theorem honest_f [Libev] : Honest libpcap .f msg p ↔ Sound libpcap msg p .f := by
  constructor
  · intro h i hi
    have hvalid : Valid libpcap msg p .f := by
      refine valid_of_honest h fun p' reply hcall => ?_
      rw [(configurationSetFilter_ok hcall).1]
      exact reports_success .f msg
    obtain ⟨p', reply, hcall, -⟩ := h
    exact ⟨(configurationSetFilter_ok hcall).2 i (Probe.mem_interfaces.mpr hi), hvalid i hi⟩
  · intro h
    obtain ⟨handles, hset, hforce⟩ := setFilters_accepted
      (fun i hi => (h i (Probe.mem_interfaces.mp hi)).1)
      (fun i hi => (h i (Probe.mem_interfaces.mp hi)).2)
    have hcall : Command.f.call libpcap msg p =
        .ok ({ p with handles := handles }, setCfgResponse (successText .f) msg) := by
      rw [Command.call, configurationSetFilter, setAllFilter, hset]
      rfl
    exact honest_of_valid hcall (fun i hi => (h i hi).2) (reports_success .f msg)
      fun i hi => hforce i (Or.inl (Probe.mem_interfaces.mpr hi))

/-! ## Intervals -/

/-- The three commands that set an interval. -/
inductive IntervalCommand where
  | I
  | J
  | K
  deriving DecidableEq, Repr

namespace IntervalCommand

def command : IntervalCommand → Command
  | I => .I
  | J => .J
  | K => .K

/-- The timer each of them sets. -/
def timer : IntervalCommand → Timer
  | I => .pkid
  | J => .stats
  | K => .sampling

def refusal : IntervalCommand → CStr
  | I => str "INFO: packet export timeout NOT changed"
  | J => str "INFO: probestats export timeout NOT changed"
  | K => str "INFO: ifstats export timeout NOT changed"

variable (x : IntervalCommand)

theorem call_some [Libev] {timer : EvTimer} (h : newTimeout msg (timerOf p x.timer) = some timer) :
    x.command.call libpcap msg p =
      .ok (setTimer p timer x.timer, setCfgResponse (successText x.command) msg) := by
  cases x with
  | I =>
      have hI : newTimeout msg p.exportTimerPkid = some timer := h
      unfold command Command.call configurationSetExportToPktid
      simp only [hI]
      rfl
  | J =>
      have hJ : newTimeout msg p.exportTimerStats = some timer := h
      unfold command Command.call configurationSetExportToProbestats
      simp only [hJ]
      rfl
  | K =>
      have hK : newTimeout msg p.exportTimerSampling = some timer := h
      unfold command Command.call configurationSetExportToIfstats
      simp only [hK]
      rfl

theorem call_none [Libev] (h : newTimeout msg (timerOf p x.timer) = none) :
    x.command.call libpcap msg p = .ok (p, setCfgResponse x.refusal []) := by
  cases x with
  | I =>
      have hI : newTimeout msg p.exportTimerPkid = none := h
      unfold command Command.call configurationSetExportToPktid
      simp only [hI]
      rfl
  | J =>
      have hJ : newTimeout msg p.exportTimerStats = none := h
      unfold command Command.call configurationSetExportToProbestats
      simp only [hJ]
      rfl
  | K =>
      have hK : newTimeout msg p.exportTimerSampling = none := h
      unfold command Command.call configurationSetExportToIfstats
      simp only [hK]
      rfl

theorem refusal_fails : ¬ ReportsSuccess x.command (setCfgResponse x.refusal []) := by
  cases x with
  | I => exact reports_failure (by decide) (by decide) (by decide)
  | J => exact reports_failure (by decide) (by decide) (by decide)
  | K => exact reports_failure (by decide) (by decide) (by decide)

theorem valid_iff :
    Valid libpcap msg p x.command ↔ ∃ v, integerAt msg = some v ∧ 0 ≤ v := by
  cases x <;> exact Iff.rfl

end IntervalCommand

theorem newTimeout_of_nonneg [Libev] {timer : EvTimer} (h : 0 ≤ toInt (strtol0 msg)) :
    newTimeout msg timer = some (.every (.finite (toInt (strtol0 msg)))) := by
  have hperiod : 0 ≤ Double.finite (toInt (strtol0 msg)) := by
    rw [Double.zero_le_finite]
    exact_mod_cast h
  rw [newTimeout]
  exact (if_pos h).trans (congrArg some (Libev.again_eq _ hperiod))

theorem newTimeout_of_neg [Libev] {timer : EvTimer} (h : toInt (strtol0 msg) < 0) :
    newTimeout msg timer = none := by
  rw [newTimeout]
  exact if_neg (not_le.mpr h)

theorem toInt_of_fits {v : Int} (h : integerAt msg = some v) (hv : 0 ≤ v)
    (hv' : v ≤ 2147483647) : toInt (strtol0 msg) = v := by
  have hclamp : strtol0 msg = v := by
    rw [strtol0, h, Option.getD_some]
    omega
  rw [toInt, hclamp]
  exact Int.bmod_eq_of_le (by omega) (by omega)

/-- What an interval command sets is the value, where the value fits. -/
theorem timeoutInForce_iff {v n : Int} (hn : 0 ≤ n) :
    TimeoutInForce v (.every (.finite n)) ↔ n = v := by
  constructor
  · intro h
    have hperiod : (n : ℚ) = v := Double.finite.inj h.1
    exact_mod_cast hperiod
  · rintro rfl
    refine ⟨rfl, ?_⟩
    have hzero : Double.finite n ≠ 0 ↔ (n : ℚ) ≠ 0 := not_congr ⟨Double.finite.inj, congrArg _⟩
    rw [EvTimer.every, decide_eq_true_iff, hzero, Int.cast_ne_zero]
    omega

/-- Where the integer is negative, the command refuses, which is right for a
    negative number only. -/
theorem honest_refused [Libev] (x : IntervalCommand) (hneg : toInt (strtol0 msg) < 0) :
    Honest libpcap x.command msg p ↔ ∃ v, integerAt msg = some v ∧ v < 0 := by
  have hvalid := @IntervalCommand.valid_iff libpcap msg p x
  have hcall := @IntervalCommand.call_none libpcap msg p x _ (newTimeout_of_neg hneg)
  constructor
  · rintro ⟨p', reply, hcall', -, hok⟩
    obtain ⟨rfl, rfl⟩ := Prod.mk.inj (Except.ok.inj (hcall.symm.trans hcall'))
    have hnot : ¬ Valid libpcap msg p x.command := fun h => x.refusal_fails (hok h).1
    cases hv : integerAt msg with
    | none =>
        -- no number is read as 0
        rw [strtol0, hv] at hneg
        exact absurd hneg (by decide)
    | some v => exact ⟨v, rfl, not_le.mp fun hpos => hnot (hvalid.mpr ⟨v, hv, hpos⟩)⟩
  · rintro ⟨v, hv, hvneg⟩
    refine honest_of_invalid hcall ?_ x.refusal_fails
    intro h
    obtain ⟨w, hw, hpos⟩ := hvalid.mp h
    obtain rfl := Option.some.inj (hv.symm.trans hw)
    exact absurd hpos (not_le.mpr hvneg)

/-- Where it is not, the command sets the timer to it, which is right where it
    is the number. -/
theorem honest_set [Libev] (x : IntervalCommand) (side : Int → Prop)
    (hforce : ∀ timer, InForce msg (setTimer p timer x.timer) x.command ↔
      ∃ v, integerAt msg = some v ∧ TimeoutInForce v timer ∧ side v)
    (hnonneg : 0 ≤ toInt (strtol0 msg)) :
    Honest libpcap x.command msg p ↔
      integerAt msg = some (toInt (strtol0 msg)) ∧ side (toInt (strtol0 msg)) := by
  have hvalid := @IntervalCommand.valid_iff libpcap msg p x
  have hcall := @IntervalCommand.call_some libpcap msg p x _ _ (newTimeout_of_nonneg hnonneg)
  constructor
  · intro h
    have hvalid' : Valid libpcap msg p x.command := by
      refine valid_of_honest h fun p' reply hcall' => ?_
      obtain ⟨-, rfl⟩ := Prod.mk.inj (Except.ok.inj (hcall.symm.trans hcall'))
      exact reports_success _ _
    obtain ⟨p', reply, hcall', -, hok⟩ := h
    obtain ⟨rfl, rfl⟩ := Prod.mk.inj (Except.ok.inj (hcall.symm.trans hcall'))
    obtain ⟨v, hv, htimeout, hside⟩ := (hforce _).mp (hok hvalid').2
    obtain rfl := (timeoutInForce_iff hnonneg).mp htimeout
    exact ⟨hv, hside⟩
  · rintro ⟨hv, hside⟩
    exact honest_of_valid hcall (hvalid.mpr ⟨_, hv, hnonneg⟩) (reports_success _ _)
      ((hforce _).mpr ⟨_, hv, (timeoutInForce_iff hnonneg).mpr rfl, hside⟩)

/-- An interval command is honest where its number fits, and what it needs
    besides holds. -/
theorem honest_interval [Libev] (x : IntervalCommand) (side : Int → Prop)
    (hforce : ∀ timer, InForce msg (setTimer p timer x.timer) x.command ↔
      ∃ v, integerAt msg = some v ∧ TimeoutInForce v timer ∧ side v) :
    Honest libpcap x.command msg p ↔
      Timeout msg ∧ ∀ v, integerAt msg = some v → 0 ≤ v → side v := by
  rcases lt_or_ge (toInt (strtol0 msg)) 0 with hneg | hnonneg
  · rw [honest_refused x hneg]
    constructor
    · rintro ⟨v, hv, hvneg⟩
      refine ⟨⟨v, hv, Or.inr ⟨hvneg, hneg⟩⟩, ?_⟩
      intro w hw hpos
      obtain rfl := Option.some.inj (hv.symm.trans hw)
      exact absurd hvneg (not_lt.mpr hpos)
    · rintro ⟨⟨v, hv, ⟨hv0, hfits⟩ | ⟨hvneg, -⟩⟩, -⟩
      · rw [toInt_of_fits hv hv0 hfits] at hneg
        exact absurd hneg (not_lt.mpr hv0)
      · exact ⟨v, hv, hvneg⟩
  · rw [honest_set x side hforce hnonneg]
    constructor
    · rintro ⟨hv, hside⟩
      have hlt : toInt (strtol0 msg) ≤ 2147483647 :=
        Int.le_of_lt_add_one (Int.bmod_lt (by decide))
      refine ⟨⟨_, hv, Or.inl ⟨hnonneg, hlt⟩⟩, ?_⟩
      intro w hw hpos
      obtain rfl := Option.some.inj (hv.symm.trans hw)
      exact hside
    · rintro ⟨⟨v, hv, ⟨hv0, hfits⟩ | ⟨-, hneg⟩⟩, hside⟩
      · rw [toInt_of_fits hv hv0 hfits]
        exact ⟨hv, hside v hv hv0⟩
      · exact absurd hneg (not_lt.mpr hnonneg)

theorem honest_J [Libev] : Honest libpcap .J msg p ↔ Sound libpcap msg p .J := by
  refine (honest_interval .J (fun _ => True) fun timer => ?_).trans ?_
  · exact exists_congr fun v => by rw [and_true]; exact Iff.rfl
  · exact ⟨And.left, fun h => ⟨h, fun _ _ _ => trivial⟩⟩

theorem honest_K [Libev] : Honest libpcap .K msg p ↔ Sound libpcap msg p .K := by
  refine (honest_interval .K (fun _ => True) fun timer => ?_).trans ?_
  · exact exists_congr fun v => by rw [and_true]; exact Iff.rfl
  · exact ⟨And.left, fun h => ⟨h, fun _ _ _ => trivial⟩⟩

theorem honest_I [Libev] : Honest libpcap .I msg p ↔ Sound libpcap msg p .I :=
  honest_interval .I (fun v => p.options.exportPktidInterval ≤ 0 ↔ v ≤ 0) fun _ => Iff.rfl

/-- **HONEST COMMANDS** — for every command, argument and state. -/
theorem honest_iff [Libev] (libpcap : FilterOracle) (cmd : Command) (msg : CStr) (p : Probe) :
    Honest libpcap cmd msg p ↔ Sound libpcap msg p cmd := by
  cases cmd with
  | r => exact honest_r
  | m => exact honest_m
  | M => exact honest_M
  | f => exact honest_f
  | t => exact ⟨fun _ => trivial, fun _ => honest_t⟩
  | I => exact honest_I
  | J => exact honest_J
  | K => exact honest_K

open scoped Libev.Repeating

/-- A filter that libpcap refuses is reported as set. -/
theorem refused_filter_reported_set :
    ¬ Honest ⟨fun _ _ => false, fun _ _ => false⟩ .f (str "tcpp")
      (startUp (fun _ => ⟨.en10mb, ⟨10, 0, 0, 1⟩, none, 3⟩) 0
        ((parseCmdlineV2 (defaults fun _ => 0) [.i (str "i:eth0")]).getD
          (defaults fun _ => 0))) := by
  rintro ⟨p', reply, hcall, hinvalid, -⟩
  have hnot : ¬ ∀ i : Fin maxInterfaces, i.val < 1 → false = true ∧ false = true := by decide
  have hfailure := (hinvalid hnot).1
  obtain ⟨-, rfl⟩ := Prod.mk.inj (Except.ok.inj hcall)
  exact hfailure (reports_success .f _)

end Impd4e.RuntimeCommands
