import Mathlib.Data.Set.Card
import Impd4e.ConfigHandler
import Impd4e.FieldMap
import Impd4e.Lib.Bounds
import Impd4e.Settings

/-! # The selection range

    Two setters move one bound each and repair the order of the two, the third
    places a window of a given width.  As an interval of the hash values the
    range is what `Bounds` says: setting a bound is `setLower` or `setUpper`,
    the ratio is a `window` on the 10% slice. -/

namespace Impd4e.SelectionRange

open Impd4e.CString Impd4e.ConfigHandler Impd4e.PacketHandler Impd4e.FieldMap
open Impd4e.Settings ReadProg Bounds

/-! ## The setters behind their parsers -/

/-- `set_sampling_lowerbound` behind `strtoll`. -/
def lowerTo (value : Int) (options : Options) : Options :=
  let selRangeMin := clampU32 value
  let selRangeMax :=
    if options.selRangeMax < selRangeMin then selRangeMin else options.selRangeMax
  { options with selRangeMin := selRangeMin, selRangeMax := selRangeMax }

/-- `set_sampling_upperbound` behind `strtoll`. -/
def upperTo (value : Int) (options : Options) : Options :=
  let selRangeMax := clampU32 value
  let selRangeMin :=
    if selRangeMax < options.selRangeMin then selRangeMax else options.selRangeMin
  { options with selRangeMin := selRangeMin, selRangeMax := selRangeMax }

/-- `set_sampling_ratio` behind the product and its conversion to `uint32_t`. -/
def ratioTo (width : UInt32) (options : Options) : Options :=
  if 4294967295 - width > 0x19999999 then
    { options with selRangeMin := 0x19999999, selRangeMax := width + 0x19999999 }
  else { options with selRangeMin := 4294967295 - width, selRangeMax := 4294967295 }

theorem setSamplingLowerbound_eq (options : Options) (s : CStr) :
    setSamplingLowerbound options s = lowerTo (strtol0 s) options := rfl

theorem setSamplingUpperbound_eq (options : Options) (s : CStr) :
    setSamplingUpperbound options s = upperTo (strtol0 s) options := rfl

theorem setSamplingRatio_eq (options : Options) (value : CStr) :
    setSamplingRatio options value
      = (u32OfDouble (ratioProduct (strtod value))).map (ratioTo · options) := by
  rw [setSamplingRatio]
  cases hwidth : u32OfDouble (ratioProduct (strtod value)) with
  | none => rfl
  | some width =>
      simp only [Option.map_some, ratioTo]
      split
      · rfl
      · rfl

/-! ## The range as an interval -/

/-- The lower bound is not above the upper bound. -/
def WellFormed (options : Options) : Prop := options.selRangeMin ≤ options.selRangeMax

variable {options : Options}

/-- The hash values of a well-formed range. -/
def interval (h : WellFormed options) : NonemptyInterval ℕ :=
  ⟨(options.selRangeMin.toNat, options.selRangeMax.toNat), UInt32.le_iff_toNat_le.mp h⟩

@[simp] theorem interval_fst (h : WellFormed options) :
    (interval h).fst = options.selRangeMin.toNat := rfl

@[simp] theorem interval_snd (h : WellFormed options) :
    (interval h).snd = options.selRangeMax.toNat := rfl

/-- A hash is in the range exactly when it is in the interval. -/
theorem mem_interval (h : WellFormed options) (hashId : UInt32) :
    (options.selRangeMin ≤ hashId ∧ hashId ≤ options.selRangeMax)
      ↔ hashId.toNat ∈ interval h := by
  rw [NonemptyInterval.mem_def, UInt32.le_iff_toNat_le, UInt32.le_iff_toNat_le]
  exact Iff.rfl

theorem lowerTo_wellFormed (value : Int) (options : Options) :
    WellFormed (lowerTo value options) := by
  show clampU32 value ≤ if options.selRangeMax < clampU32 value then _ else _
  split
  · exact UInt32.le_refl _
  · next h => exact UInt32.not_lt.mp h

theorem upperTo_wellFormed (value : Int) (options : Options) :
    WellFormed (upperTo value options) := by
  show (if clampU32 value < options.selRangeMin then _ else _) ≤ clampU32 value
  split
  · exact UInt32.le_refl _
  · next h => exact UInt32.not_lt.mp h

/-- Setting the lower bound is setting the lower end. -/
theorem interval_lowerTo (value : Int) (h : WellFormed options) :
    interval (lowerTo_wellFormed value options)
      = setLower (clampU32 value).toNat (interval h) := by
  refine NonemptyInterval.ext (Prod.ext rfl ?_)
  show UInt32.toNat (if options.selRangeMax < clampU32 value then _ else _)
    = max (clampU32 value).toNat options.selRangeMax.toNat
  split
  · next hlt => exact (max_eq_left (Nat.le_of_lt (UInt32.lt_iff_toNat_lt.mp hlt))).symm
  · next hle =>
      have hge := UInt32.le_iff_toNat_le.mp (UInt32.not_lt.mp hle)
      exact (max_eq_right hge).symm

/-- Setting the upper bound is setting the upper end. -/
theorem interval_upperTo (value : Int) (h : WellFormed options) :
    interval (upperTo_wellFormed value options)
      = setUpper (clampU32 value).toNat (interval h) := by
  refine NonemptyInterval.ext (Prod.ext ?_ rfl)
  show UInt32.toNat (if clampU32 value < options.selRangeMin then _ else _)
    = min options.selRangeMin.toNat (clampU32 value).toNat
  split
  · next hlt => exact (min_eq_right (Nat.le_of_lt (UInt32.lt_iff_toNat_lt.mp hlt))).symm
  · next hle =>
      have hge := UInt32.le_iff_toNat_le.mp (UInt32.not_lt.mp hle)
      exact (min_eq_left hge).symm

/-! ## The ratio -/

/-- Where `set_sampling_ratio` starts its range, and the largest hash value. -/
abbrev slice : ℕ := 0x19999999
abbrev maxHash : ℕ := 4294967295

/-- The first branch is taken exactly when there is room, and adds without a
    wrap there; neither subtraction wraps. -/
theorem ratioTo_bounds (width : UInt32) (options : Options) :
    if slice < maxHash - width.toNat then
      (ratioTo width options).selRangeMin.toNat = slice ∧
        (ratioTo width options).selRangeMax.toNat = width.toNat + slice
    else
      (ratioTo width options).selRangeMin.toNat = maxHash - width.toNat ∧
        (ratioTo width options).selRangeMax.toNat = maxHash := by
  have hlt : width.toNat < 4294967296 := width.toNat_lt
  have hsub : (4294967295 - width).toNat = maxHash - width.toNat := by
    rw [UInt32.toNat_sub_of_le]
    · rfl
    · rw [UInt32.le_iff_toNat_le]
      exact Nat.le_of_lt_succ hlt
  have htest : 4294967295 - width > 0x19999999 ↔ slice < maxHash - width.toNat := by
    rw [gt_iff_lt, UInt32.lt_iff_toNat_lt, hsub]
    exact Iff.rfl
  rw [ratioTo]
  by_cases hroom : slice < maxHash - width.toNat
  · rw [if_pos hroom, if_pos (htest.mpr hroom)]
    refine ⟨rfl, ?_⟩
    show (width + 0x19999999).toNat = _
    have hfits : width.toNat + slice < 4294967296 := by
      change 0x19999999 < 4294967295 - width.toNat at hroom
      show width.toNat + 0x19999999 < 4294967296
      omega
    rw [UInt32.toNat_add]
    exact Nat.mod_eq_of_lt hfits
  · rw [if_neg hroom, if_neg (fun h => hroom (htest.mp h))]
    exact ⟨hsub, rfl⟩

theorem ratioTo_ends (width : UInt32) (options : Options) :
    (ratioTo width options).selRangeMin.toNat = (window slice maxHash width.toNat).fst ∧
      (ratioTo width options).selRangeMax.toNat = (window slice maxHash width.toNat).snd := by
  have hbounds := ratioTo_bounds width options
  by_cases hroom : slice < maxHash - width.toNat
  · rw [if_pos hroom] at hbounds
    rw [window_base hroom]
    exact hbounds
  · rw [if_neg hroom] at hbounds
    rw [window_top hroom]
    exact hbounds

theorem ratioTo_wellFormed (width : UInt32) (options : Options) :
    WellFormed (ratioTo width options) := by
  obtain ⟨hmin, hmax⟩ := ratioTo_ends width options
  rw [WellFormed, UInt32.le_iff_toNat_le, hmin, hmax]
  exact (window slice maxHash width.toNat).fst_le_snd

/-- The ratio places a window. -/
theorem interval_ratioTo (width : UInt32) (options : Options) :
    interval (ratioTo_wellFormed width options) = window slice maxHash width.toNat := by
  obtain ⟨hmin, hmax⟩ := ratioTo_ends width options
  refine NonemptyInterval.ext (Prod.ext ?_ ?_)
  · rw [interval_fst, hmin]
  · rw [interval_snd, hmax]

/-! ## Any sequence of setters -/

/-- A call of a setter, with what its parser makes of the text. -/
inductive Setter where
  | lowerbound (value : Int)
  | upperbound (value : Int)
  | ratio (width : UInt32)
  deriving DecidableEq, Repr

def Setter.apply (options : Options) : Setter → Options
  | .lowerbound value => lowerTo value options
  | .upperbound value => upperTo value options
  | .ratio width => ratioTo width options

/-- Whatever the range was, a setter leaves a well-formed one. -/
theorem Setter.apply_wellFormed (options : Options) (call : Setter) :
    WellFormed (call.apply options) := by
  cases call with
  | lowerbound value => exact lowerTo_wellFormed value options
  | upperbound value => exact upperTo_wellFormed value options
  | ratio width => exact ratioTo_wellFormed width options

theorem setters_wellFormed (calls : List Setter) :
    ∀ options : Options, WellFormed options → WellFormed (calls.foldl Setter.apply options) := by
  induction calls with
  | nil => exact fun _ h => h
  | cons call calls ih => exact fun options _ => ih _ (Setter.apply_wellFormed options call)

theorem defaults_wellFormed (calcHashValueBob : HashFunction) :
    WellFormed (setDefaultsOptions calcHashValueBob) := by
  show (0x19999999 : UInt32) ≤ 0x33333333
  decide

/-- `sel_range_min` and `sel_range_max` -/
def selRange (options : Options) : UInt32 × UInt32 :=
  (options.selRangeMin, options.selRangeMax)

/-- The interval determines the two bounds. -/
theorem selRange_of_interval {a b : UInt32} (h : WellFormed options) (hab : a.toNat ≤ b.toNat)
    (heq : interval h = ⟨(a.toNat, b.toNat), hab⟩) : selRange options = (a, b) := by
  have hfst : (interval h).fst = a.toNat := by rw [heq]
  have hsnd : (interval h).snd = b.toNat := by rw [heq]
  rw [interval_fst] at hfst
  rw [interval_snd] at hsnd
  exact Prod.ext (UInt32.toNat_inj.mp hfst) (UInt32.toNat_inj.mp hsnd)

/-- Lower bound first: the upper bound set behind it has nothing to repair. -/
theorem selRange_upperTo_lowerTo (h : WellFormed options) {a b : Int}
    (hab : clampU32 a ≤ clampU32 b) :
    selRange (upperTo b (lowerTo a options)) = (clampU32 a, clampU32 b) := by
  refine selRange_of_interval (upperTo_wellFormed b _) (UInt32.le_iff_toNat_le.mp hab) ?_
  rw [interval_upperTo b (lowerTo_wellFormed a options), interval_lowerTo a h]
  exact setUpper_setLower (UInt32.le_iff_toNat_le.mp hab) _

/-- Upper bound first: so has the lower bound. -/
theorem selRange_lowerTo_upperTo (h : WellFormed options) {a b : Int}
    (hab : clampU32 a ≤ clampU32 b) :
    selRange (lowerTo a (upperTo b options)) = (clampU32 a, clampU32 b) := by
  refine selRange_of_interval (lowerTo_wellFormed a _) (UInt32.le_iff_toNat_le.mp hab) ?_
  rw [interval_lowerTo a (upperTo_wellFormed b options), interval_upperTo b h]
  exact setLower_setUpper (UInt32.le_iff_toNat_le.mp hab) _

/-- The options behind `set_defaults_options` and some setters. -/
def configured (calcHashValueBob : HashFunction) (calls : List Setter) : Options :=
  calls.foldl Setter.apply (setDefaultsOptions calcHashValueBob)

/-- **SELECTION RANGE** — behind any sequence of setters the range is well
    formed, both orders of setting two bounds give exactly these bounds, and the
    bound set last has its value. -/
theorem selection_range_setters (calcHashValueBob : HashFunction) (calls : List Setter) :
    WellFormed (configured calcHashValueBob calls) ∧
      (∀ a b : Int, clampU32 a ≤ clampU32 b →
        selRange (upperTo b (lowerTo a (configured calcHashValueBob calls)))
            = (clampU32 a, clampU32 b) ∧
          selRange (lowerTo a (upperTo b (configured calcHashValueBob calls)))
            = (clampU32 a, clampU32 b)) ∧
      ∀ value : Int,
        (lowerTo value (configured calcHashValueBob calls)).selRangeMin = clampU32 value ∧
          (upperTo value (configured calcHashValueBob calls)).selRangeMax = clampU32 value := by
  have hwf := setters_wellFormed calls _ (defaults_wellFormed calcHashValueBob)
  refine ⟨hwf, ?_, fun value => ⟨rfl, rfl⟩⟩
  intro a b hab
  exact ⟨selRange_upperTo_lowerTo hwf hab, selRange_lowerTo_upperTo hwf hab⟩

/-- From the full range, which neither bound of the pair respects. -/
theorem selection_range_setters_full :
    selRange (lowerTo (-5) (upperTo 7 (configured (fun _ => 0) [.ratio 4294967295])))
      = (0, 7) :=
  ((selection_range_setters (fun _ => 0) [.ratio 4294967295]).2.1 (-5) 7 (by decide)).2

/-! ## Ratios -/

/-- The hash values a range selects. -/
def InRange (options : Options) (hashId : UInt32) : Prop :=
  options.selRangeMin ≤ hashId ∧ hashId ≤ options.selRangeMax

/-- As many hash values as the interval has numbers. -/
theorem ncard_inRange (h : WellFormed options) :
    {hashId | InRange options hashId}.ncard
      = (Finset.Icc (interval h).fst (interval h).snd).card := by
  have himage : UInt32.toNat '' {hashId | InRange options hashId}
      = Finset.Icc (interval h).fst (interval h).snd := by
    ext n
    rw [Finset.coe_Icc, Set.mem_Icc, interval_fst, interval_snd]
    constructor
    · rintro ⟨hashId, hmem, rfl⟩
      exact (mem_interval h hashId).mp hmem
    · intro hn
      -- no number of the interval is out of reach for 32 bits
      have hlt : n < 4294967296 := Nat.lt_of_le_of_lt hn.2 options.selRangeMax.toNat_lt
      have hval : (UInt32.ofNat n).toNat = n := UInt32.toNat_ofNat_of_lt' hlt
      refine ⟨UInt32.ofNat n, (mem_interval h _).mpr ?_, hval⟩
      rw [hval]
      exact hn
  rw [← Set.ncard_coe_finset, ← himage]
  exact (Set.ncard_image_of_injective _ fun _ _ => UInt32.toNat_inj.mp).symm

theorem ratioTo_inRange_mono {width width' : UInt32} (hle : width ≤ width')
    (options options' : Options) (hashId : UInt32)
    (h : InRange (ratioTo width options) hashId) :
    InRange (ratioTo width' options') hashId := by
  have hmono : window slice maxHash width.toNat ≤ window slice maxHash width'.toNat :=
    window_mono (UInt32.le_iff_toNat_le.mp hle)
  rw [← interval_ratioTo width options, ← interval_ratioTo width' options',
    NonemptyInterval.le_def] at hmono
  have hmem := (mem_interval (ratioTo_wellFormed width options) hashId).mp h
  refine (mem_interval (ratioTo_wellFormed width' options') hashId).mpr ?_
  exact ⟨Nat.le_trans hmono.1 hmem.1, Nat.le_trans hmem.2 hmono.2⟩

/-- What it takes to be selected. -/
theorem rangeTest_selected {contents : List UInt8} {hashId : UInt32} :
    rangeTest options contents = .selected hashId ↔
      contents.length ≠ 0 ∧ options.hashFunction contents = hashId ∧
        InRange options hashId := by
  rw [rangeTest]
  by_cases h0 : contents.length = 0
  · rw [if_pos h0]
    constructor
    · intro h
      cases h
    · exact fun h => absurd h0 h.1
  · rw [if_neg h0]
    dsimp only
    by_cases hin : options.selRangeMin ≤ options.hashFunction contents ∧
        options.hashFunction contents ≤ options.selRangeMax
    · rw [if_pos hin]
      constructor
      · intro h
        obtain rfl := Decision.selected.inj h
        exact ⟨h0, rfl, hin⟩
      · rintro ⟨-, rfl, -⟩
        rfl
    · rw [if_neg hin]
      constructor
      · intro h
        cases h
      · rintro ⟨-, rfl, h⟩
        exact absurd h hin

/-- The decision on an IP packet, from its hash input. -/
theorem run_selectPacket_decision (m : Nat → Option UInt8) (options : Options) (b : Buffer)
    (len : Nat) :
    (run m (selectPacket options b len)).map Selection.decision
      = (run m (hashInput options.selectionFunction options.rSel b.size len)).map
          (rangeTest options) := by
  have hboth := run_hashInput b m options len
  cases hsel : run m (selectPacket options b len) with
  | error f =>
      rw [hsel] at hboth
      cases hin : run m (hashInput options.selectionFunction options.rSel b.size len) with
      | error f' =>
          rw [hin] at hboth
          exact congrArg Except.error (Except.error.inj hboth)
      | ok bytes => rw [hin] at hboth; cases hboth
  | ok s =>
      rw [hsel] at hboth
      cases hin : run m (hashInput options.selectionFunction options.rSel b.size len) with
      | error f' => rw [hin] at hboth; cases hboth
      | ok bytes =>
          rw [hin] at hboth
          have hpair := Except.ok.inj hboth
          exact congrArg Except.ok (congrArg Prod.snd hpair)

/-- A packet is selected by what is hashed of it and by the range. -/
theorem packetDecision_selected (m : Nat → Option UInt8) (options : Options) (caplen : Nat)
    (device : DeviceDev) (hashId : UInt32) :
    run m (packetDecision options caplen device) = .ok (.selected hashId) ↔
      ∃ type bytes, run m (nettype device caplen) = .ok type ∧ isIpType type = true ∧
        run (fun i => m ((networkPacket options device caplen).ptr + i))
          (hashInput options.selectionFunction options.rSel device.hashBuffer.size
            (networkPacket options device caplen).len) = .ok bytes ∧
        rangeTest options bytes = .selected hashId := by
  rw [packetDecision]
  show run m ((nettype device caplen).bind _) = _ ↔ _
  rw [run_bind_eq_ok]
  refine exists_congr fun type => ?_
  by_cases hip : isIpType type = true
  · simp only [if_pos hip]
    show _ ∧ run m (((selectPacket options device.hashBuffer _).rebase _).bind
      (fun s => .ret s.decision)) = _ ↔ _
    rw [← run_map, run_rebase, run_selectPacket_decision]
    constructor
    · rintro ⟨htype, h⟩
      cases hin : run (fun i => m ((networkPacket options device caplen).ptr + i))
          (hashInput options.selectionFunction options.rSel device.hashBuffer.size
            (networkPacket options device caplen).len) with
      | error f => rw [hin] at h; cases h
      | ok bytes =>
          rw [hin] at h
          exact ⟨bytes, htype, hip, rfl, Except.ok.inj h⟩
    · rintro ⟨bytes, htype, -, hin, htest⟩
      refine ⟨htype, ?_⟩
      rw [hin]
      exact congrArg Except.ok htest
  -- any other packet is not supported
  · simp only [if_neg hip]
    constructor
    · rintro ⟨-, h⟩
      cases h
    · rintro ⟨-, -, h, -⟩
      exact absurd h hip

/-- The ratio changes nothing but the two bounds. -/
theorem ratioTo_eq (width : UInt32) (options : Options) : ∃ selRangeMin selRangeMax,
    ratioTo width options =
      { options with selRangeMin := selRangeMin, selRangeMax := selRangeMax } := by
  rw [ratioTo]
  split
  · exact ⟨_, _, rfl⟩
  · exact ⟨_, _, rfl⟩

/-- A packet that is selected stays so under a larger ratio. -/
theorem packetDecision_ratioTo_mono {width width' : UInt32} (hle : width ≤ width')
    {m : Nat → Option UInt8} {caplen : Nat} {device : DeviceDev} {hashId : UInt32}
    (h : run m (packetDecision (ratioTo width options) caplen device)
      = .ok (.selected hashId)) :
    run m (packetDecision (ratioTo width' options) caplen device)
      = .ok (.selected hashId) := by
  obtain ⟨type, bytes, htype, hip, hin, htest⟩ :=
    (packetDecision_selected m _ caplen device hashId).mp h
  obtain ⟨hne, hhash, hrange⟩ := rangeTest_selected.mp htest
  have hrange' := ratioTo_inRange_mono hle options options hashId hrange
  refine (packetDecision_selected m _ caplen device hashId).mpr
    ⟨type, bytes, htype, hip, ?_, rangeTest_selected.mpr ⟨hne, ?_, hrange'⟩⟩
  -- the hash input and the hash function do not know the range
  · obtain ⟨a, b, heq⟩ := ratioTo_eq width options
    obtain ⟨a', b', heq'⟩ := ratioTo_eq width' options
    rw [heq] at hin
    rw [heq']
    exact hin
  · obtain ⟨a, b, heq⟩ := ratioTo_eq width options
    obtain ⟨a', b', heq'⟩ := ratioTo_eq width' options
    rw [heq] at hhash
    rw [heq']
    exact hhash

/-- **SAMPLING RATIO** — the range of a width has one hash value more than the
    width, no sum wraps, and a larger width selects whatever a smaller one does. -/
theorem sampling_ratio_window (width : UInt32) (options : Options) :
    {hashId | InRange (ratioTo width options) hashId}.ncard = width.toNat + 1 ∧
      (ratioTo width options).selRangeMin.toNat + width.toNat
        = (ratioTo width options).selRangeMax.toNat ∧
      ∀ width', width ≤ width' →
        (∀ hashId, InRange (ratioTo width options) hashId →
          InRange (ratioTo width' options) hashId) ∧
        ∀ (m : Nat → Option UInt8) (caplen : Nat) (device : DeviceDev) (hashId : UInt32),
          run m (packetDecision (ratioTo width options) caplen device)
              = .ok (.selected hashId) →
            run m (packetDecision (ratioTo width' options) caplen device)
              = .ok (.selected hashId) := by
  have hle : width.toNat ≤ maxHash := Nat.le_of_lt_succ width.toNat_lt
  refine ⟨?_, ?_, ?_⟩
  · rw [ncard_inRange (ratioTo_wellFormed width options), interval_ratioTo,
      window_card hle]
  · obtain ⟨hmin, hmax⟩ := ratioTo_ends width options
    rw [hmin, hmax]
    by_cases hroom : slice < maxHash - width.toNat
    · rw [window_base hroom]
      exact Nat.add_comm _ _
    · rw [window_top hroom]
      exact Nat.sub_add_cancel hle
  · intro width' hwidth
    exact ⟨fun hashId => ratioTo_inRange_mono hwidth options options hashId,
      fun _ _ _ _ h => packetDecision_ratioTo_mono hwidth h⟩

/-- Across the width from which on the range stands against the top. -/
theorem sampling_ratio_window_switch :
    InRange (ratioTo 3865470566 selectAll) 0x19999999 :=
  ((sampling_ratio_window 3865470565 selectAll).2.2 3865470566 (by decide)).1 0x19999999
    ⟨by decide, by decide⟩

end Impd4e.SelectionRange
