import Impd4e.TemplateAgreement

/-! # The order of the options

    `opt_i` sets a device up with the snap length of that moment and takes its
    template away; `opt_t` writes the template of the slot its own counter stands
    at.  So an -N behind an -i does not reach the device, and an -i behind the -t
    of its slot undoes it: the order among different letters matters. -/

namespace Impd4e.OptionOrder

open Impd4e.CString Impd4e.IpfixTemplates Impd4e.Settings Impd4e.CmdLine
open Impd4e.ExportHandler (maxInterfaces)
open Impd4e.PacketHandler (effectiveTemplate)
open Impd4e.TemplateAgreement (Known parseTemplate_known)

/-! ## Reordering -/

/-- The letter of an option. -/
def letter : Opt → Char
  | .i _ => 'i'
  | .t _ => 't'
  | .N _ => 'N'
  | .e _ => 'e'
  | .I _ => 'I'
  | .J _ => 'J'
  | .K _ => 'K'

/-- The same options, those of one letter in the same order. -/
structure Reordered (os os' : List Opt) : Prop where
  perm : os.Perm os'
  sameLetter : ∀ o ∈ os,
    (os.filter fun p => letter p = letter o) = os'.filter fun p => letter p = letter o

variable {os os' : List Opt}

theorem Reordered.filter_eq (h : Reordered os os') (l : Char) :
    (os.filter fun p => letter p = l) = os'.filter fun p => letter p = l := by
  by_cases hl : ∃ o ∈ os, letter o = l
  · obtain ⟨o, ho, rfl⟩ := hl
    exact h.sameLetter o ho
  · -- no option of either list has the letter
    have hnone : ∀ o ∈ os, ¬ decide (letter o = l) = true :=
      fun o ho hlo => hl ⟨o, ho, of_decide_eq_true hlo⟩
    have hnone' : ∀ o ∈ os', ¬ decide (letter o = l) = true :=
      fun o ho => hnone o (h.perm.mem_iff.mpr ho)
    rw [List.filter_eq_nil_iff.mpr hnone, List.filter_eq_nil_iff.mpr hnone']

/-- What is read from the options of one letter alone is the same. -/
theorem Reordered.filterMap_eq {α : Type} (h : Reordered os os') {f : Opt → Option α} (l : Char)
    (hf : ∀ o, letter o ≠ l → f o = none) : os.filterMap f = os'.filterMap f := by
  have honly : ∀ xs : List Opt, xs.filterMap f = (xs.filter fun p => letter p = l).filterMap f := by
    intro xs
    rw [List.filterMap_filter]
    congr 1
    funext o
    by_cases hlo : letter o = l
    · rw [if_pos (decide_eq_true hlo)]
    · rw [if_neg (fun hd => hlo (of_decide_eq_true hd)), hf o hlo]
  rw [honly os, honly os', h.filter_eq l]

/-! ## What the options of a list say -/

def interfaceOf : Opt → Option CStr
  | .i arg => some arg
  | _ => none

def templateOf : Opt → Option (Option Nat)
  | .t arg => some (parseTemplate arg)
  | _ => none

def snapLengthOf : Opt → Option Nat
  | .N arg => some (u16OfInt (atoi arg))
  | _ => none

def interfaces (os : List Opt) : List CStr := os.filterMap interfaceOf

def templates (os : List Opt) : List (Option Nat) := os.filterMap templateOf

/-- The snap length behind all options: that of the last -N, or the default. -/
def snapLength (os : List Opt) : Nat := (os.filterMap snapLengthOf).getLast?.getD 80

/-- The template of the probe: that of the last -t that names one. -/
def globalTemplate (os : List Opt) : Nat :=
  (templates os).foldl (fun tId template => template.getD tId) mintId

/-- The template the `n`-th -t names. -/
def ownTemplate (n : Nat) (os : List Opt) : Option Nat := (templates os)[n]?.join

/-- The options in front of the `n`-th -i. -/
def before : Nat → List Opt → List Opt
  | _, [] => []
  | n, o :: os =>
      if letter o = 'i' then if n = 0 then [] else o :: before (n - 1) os
      else o :: before n os

/-- The `n`-th -t, if there is one, comes behind the `n`-th -i. -/
def TemplateBehind (n : Nat) (os : List Opt) : Prop := (templates (before n os)).length ≤ n

theorem eq_i_of_letter {o : Opt} (h : letter o = 'i') : ∃ arg, o = .i arg := by
  cases o with
  | i arg => exact ⟨arg, rfl⟩
  | _ => simp [letter] at h

theorem interfaceOf_of_ne {o : Opt} (h : letter o ≠ 'i') : interfaceOf o = none := by
  cases o with
  | i arg => exact absurd rfl h
  | _ => rfl

theorem templateOf_of_ne {o : Opt} (h : letter o ≠ 't') : templateOf o = none := by
  cases o with
  | t arg => exact absurd rfl h
  | _ => rfl

theorem snapLengthOf_of_ne {o : Opt} (h : letter o ≠ 'N') : snapLengthOf o = none := by
  cases o with
  | N arg => exact absurd rfl h
  | _ => rfl

theorem Reordered.interfaces_eq (h : Reordered os os') : interfaces os = interfaces os' :=
  h.filterMap_eq 'i' fun _ => interfaceOf_of_ne

theorem Reordered.templates_eq (h : Reordered os os') : templates os = templates os' :=
  h.filterMap_eq 't' fun _ => templateOf_of_ne

theorem Reordered.snapLength_eq (h : Reordered os os') : snapLength os = snapLength os' := by
  rw [snapLength, snapLength, h.filterMap_eq 'N' fun _ => snapLengthOf_of_ne]

/-! ### One option more -/

variable {o : Opt} {arg : CStr} {n : Nat}

theorem interfaces_append (os : List Opt) (arg : CStr) :
    interfaces (os ++ [.i arg]) = interfaces os ++ [arg] := by
  rw [interfaces, List.filterMap_append]
  rfl

theorem interfaces_append_other (h : interfaceOf o = none) :
    interfaces (os ++ [o]) = interfaces os := by
  rw [interfaces, List.filterMap_append, List.filterMap_cons_none h, List.filterMap_nil,
    List.append_nil, interfaces]

theorem templates_append (os : List Opt) (arg : CStr) :
    templates (os ++ [.t arg]) = templates os ++ [parseTemplate arg] := by
  rw [templates, List.filterMap_append]
  rfl

theorem templates_append_other (h : templateOf o = none) :
    templates (os ++ [o]) = templates os := by
  rw [templates, List.filterMap_append, List.filterMap_cons_none h, List.filterMap_nil,
    List.append_nil, templates]

theorem snapLength_append (os : List Opt) (arg : CStr) :
    snapLength (os ++ [.N arg]) = u16OfInt (atoi arg) := by
  have happend : (os ++ [Opt.N arg]).filterMap snapLengthOf
      = os.filterMap snapLengthOf ++ [u16OfInt (atoi arg)] := by
    rw [List.filterMap_append]
    rfl
  rw [snapLength, happend, List.getLast?_concat, Option.getD_some]

theorem snapLength_append_other (h : snapLengthOf o = none) :
    snapLength (os ++ [o]) = snapLength os := by
  rw [snapLength, List.filterMap_append, List.filterMap_cons_none h, List.filterMap_nil,
    List.append_nil, snapLength]

/-- What comes behind the `n`-th -i does not change what is in front of it. -/
theorem before_append (hn : n < (interfaces os).length) (rest : List Opt) :
    before n (os ++ rest) = before n os := by
  induction os generalizing n with
  | nil => exact absurd hn (Nat.not_lt_zero n)
  | cons o os ih =>
      rw [List.cons_append, before, before]
      by_cases ho : letter o = 'i'
      · rw [if_pos ho, if_pos ho]
        obtain ⟨arg, rfl⟩ := eq_i_of_letter ho
        cases n with
        | zero => rfl
        | succ n => exact congrArg (Opt.i arg :: ·) (ih (Nat.lt_of_succ_lt_succ hn))
      · rw [if_neg ho, if_neg ho]
        rw [interfaces, List.filterMap_cons_none (interfaceOf_of_ne ho)] at hn
        rw [ih hn]

/-- In front of an -i are the options that came before it. -/
theorem before_length (os rest : List Opt) (arg : CStr) :
    before (interfaces os).length (os ++ .i arg :: rest) = os := by
  induction os with
  | nil => rfl
  | cons o os ih =>
      rw [List.cons_append, before]
      by_cases ho : letter o = 'i'
      · rw [if_pos ho]
        obtain ⟨arg', rfl⟩ := eq_i_of_letter ho
        exact congrArg (Opt.i arg' :: ·) ih
      · rw [if_neg ho, interfaces, List.filterMap_cons_none (interfaceOf_of_ne ho)]
        exact congrArg (o :: ·) ih

theorem before_sublist (n : Nat) (os : List Opt) : (before n os).Sublist os := by
  induction os generalizing n with
  | nil => exact List.Sublist.refl _
  | cons o os ih =>
      rw [before]
      split
      · split
        · exact List.nil_sublist _
        · exact (ih (n - 1)).cons_cons o
      · exact (ih n).cons_cons o

/-- No more -t's are in front of an -i than there are at all. -/
theorem length_templates_before (n : Nat) (os : List Opt) :
    (templates (before n os)).length ≤ (templates os).length :=
  ((before_sublist n os).filterMap templateOf).length_le

/-! ## What `parse_cmdline_v2` makes of the options -/

/-- The device of the `n`-th -i: the snap length of that moment, and the template
    of the `n`-th -t where that comes later. -/
structure DeviceReads (n : Nat) (os : List Opt) (dev : DeviceDev) : Prop where
  size : dev.hashBuffer.size = snapLength (before n os)
  behind : TemplateBehind n os → dev.templateId = (ownTemplate n os).getD absent
  front : ¬ TemplateBehind n os → dev.templateId = absent

/-- The configuration behind the options. -/
structure Reads (os : List Opt) (c : Config) : Prop where
  numberInterfaces : c.options.numberInterfaces = min (interfaces os).length maxInterfaces
  tIdx : c.tIdx = min (templates os).length maxInterfaces
  snapLength : c.options.snapLength = snapLength os
  templateID : c.options.templateID = globalTemplate os
  device : ∀ i : Fin maxInterfaces, i.val < (interfaces os).length →
    DeviceReads i os (c.devices i)

variable {dev : DeviceDev} {c c' : Config}

theorem templateBehind_append (hn : n < (interfaces os).length) (rest : List Opt) :
    TemplateBehind n (os ++ rest) ↔ TemplateBehind n os := by
  rw [TemplateBehind, before_append hn, TemplateBehind]

theorem DeviceReads.append (h : DeviceReads n os dev) (hn : n < (interfaces os).length)
    (hown : ownTemplate n (os ++ [o]) = ownTemplate n os) : DeviceReads n (os ++ [o]) dev := by
  refine ⟨?_, ?_, ?_⟩
  · rw [before_append hn, h.size]
  · intro hbehind
    rw [hown, h.behind ((templateBehind_append hn [o]).mp hbehind)]
  · intro hfront
    exact h.front fun hbehind => hfront ((templateBehind_append hn [o]).mpr hbehind)

theorem ownTemplate_append_other (h : templateOf o = none) :
    ownTemplate n (os ++ [o]) = ownTemplate n os := by
  rw [ownTemplate, templates_append_other h, ownTemplate]

theorem ownTemplate_append_ne (h : n ≠ (templates os).length) :
    ownTemplate n (os ++ [.t arg]) = ownTemplate n os := by
  rw [ownTemplate, templates_append, ownTemplate]
  rcases Nat.lt_or_gt_of_ne h with hlt | hgt
  · rw [List.getElem?_append_left hlt]
  · -- neither list is that long
    have hlen : (templates os ++ [parseTemplate arg]).length ≤ n := by
      rw [List.length_append, List.length_singleton]
      exact hgt
    rw [List.getElem?_eq_none hlen, List.getElem?_eq_none (Nat.le_of_lt hgt)]

theorem DeviceReads.new {options : Options} (letter : UInt8) (rest : CStr)
    (hn : n = (interfaces os).length) (hsnap : options.snapLength = snapLength os) :
    DeviceReads n (os ++ [.i arg]) (namedDevice options letter rest dev) := by
  have hbefore : before n (os ++ [.i arg]) = os := by
    rw [hn, before_length]
  refine ⟨?_, ?_, fun _ => namedDevice_templateId ..⟩
  · rw [namedDevice_size, hbefore, hsnap]
  · intro hbehind
    rw [TemplateBehind, hbefore] at hbehind
    rw [namedDevice_templateId, ownTemplate_append_other rfl, ownTemplate,
      List.getElem?_eq_none hbehind]
    rfl

theorem DeviceReads.own (h : DeviceReads (templates os).length os dev)
    (hn : (templates os).length < (interfaces os).length) :
    DeviceReads (templates os).length (os ++ [.t arg])
      { dev with templateId := (parseTemplate arg).getD absent } := by
  have hbehind : TemplateBehind (templates os).length (os ++ [.t arg]) :=
    (templateBehind_append hn _).mpr (length_templates_before _ os)
  refine ⟨?_, ?_, fun hfront => absurd hbehind hfront⟩
  · rw [before_append hn]
    exact h.size
  · intro _
    rw [ownTemplate, templates_append, List.getElem?_concat_length]
    rfl

/-! ### One option -/

theorem reads_defaults (calcHashValueBob : HashFunction) :
    Reads [] (defaults calcHashValueBob) :=
  ⟨rfl, rfl, rfl, rfl, fun i hi => absurd hi (Nat.not_lt_zero i)⟩

theorem reads_i (hc : Reads os c) (h : opt_i arg c = some c') : Reads (os ++ [.i arg]) c' := by
  have hlen : (interfaces (os ++ [.i arg])).length = (interfaces os).length + 1 := by
    rw [interfaces_append, List.length_append, List.length_singleton]
  have hold : ∀ i : Fin maxInterfaces, i.val < (interfaces os).length →
      DeviceReads i (os ++ [.i arg]) (c.devices i) :=
    fun i hi => (hc.device i hi).append hi (ownTemplate_append_other rfl)
  rcases opt_i_cases h with ⟨hfull, rfl⟩ | ⟨hlt, letter, rest, hoptions, hdevices, htIdx⟩
  · -- ten interfaces: nothing happens
    have hmany : maxInterfaces ≤ (interfaces os).length := by
      have hn := hc.numberInterfaces
      omega
    refine ⟨?_, ?_, ?_, ?_, fun i _ => hold i (Nat.lt_of_lt_of_le i.isLt hmany)⟩
    · rw [hc.numberInterfaces, hlen, Nat.min_eq_right hmany, Nat.min_eq_right (by omega)]
    · rw [templates_append_other rfl, hc.tIdx]
    · rw [snapLength_append_other rfl, hc.snapLength]
    · rw [globalTemplate, templates_append_other rfl, hc.templateID, globalTemplate]
  · have hn : c.options.numberInterfaces = (interfaces os).length := by
      have hn := hc.numberInterfaces
      omega
    refine ⟨?_, ?_, ?_, ?_, ?_⟩
    · rw [hoptions, hlen]
      change c.options.numberInterfaces + 1 = _
      omega
    · rw [htIdx, templates_append_other rfl, hc.tIdx]
    · rw [hoptions, snapLength_append_other rfl, ← hc.snapLength]
    · rw [hoptions, globalTemplate, templates_append_other rfl]
      exact hc.templateID
    · intro i hi
      rw [hdevices]
      by_cases hnew : i = ⟨c.options.numberInterfaces, hlt⟩
      · rw [hnew, Function.update_self]
        exact DeviceReads.new letter rest hn hc.snapLength
      · rw [Function.update_of_ne hnew]
        have hne : i.val ≠ c.options.numberInterfaces := fun heq => hnew (Fin.ext heq)
        exact hold i (by omega)

theorem reads_t (hc : Reads os c) : Reads (os ++ [.t arg]) (opt_t arg c) := by
  have hinterfaces : interfaces (os ++ [.t arg]) = interfaces os := interfaces_append_other rfl
  have hlen : (templates (os ++ [.t arg])).length = (templates os).length + 1 := by
    rw [templates_append, List.length_append, List.length_singleton]
  have hglobal : (opt_t arg c).options.templateID = globalTemplate (os ++ [.t arg]) := by
    rw [globalTemplate, templates_append, List.foldl_append, opt_t_options, hc.templateID,
      globalTemplate]
    rfl
  have hsnap : (opt_t arg c).options.snapLength = snapLength (os ++ [.t arg]) := by
    rw [snapLength_append_other rfl, opt_t_options, hc.snapLength]
  have hn : (opt_t arg c).options.numberInterfaces
      = min (interfaces (os ++ [.t arg])).length maxInterfaces := by
    rw [hinterfaces, opt_t_options, hc.numberInterfaces]
  by_cases hfull : c.tIdx = maxInterfaces
  · -- ten templates: the devices stay as they are
    have hmany : maxInterfaces ≤ (templates os).length := by
      have ht := hc.tIdx
      omega
    refine ⟨hn, ?_, hsnap, hglobal, ?_⟩
    · rw [(opt_t_of_eq hfull).2, hlen, hfull, Nat.min_eq_right (by omega)]
    · intro i hi
      rw [hinterfaces] at hi
      rw [(opt_t_of_eq hfull).1]
      have hne : i.val ≠ (templates os).length := by
        have hlt := i.isLt
        omega
      exact (hc.device i hi).append hi (ownTemplate_append_ne hne)
  · have hlt : c.tIdx < maxInterfaces := Nat.lt_of_le_of_ne c.tIdx_le hfull
    have ht : c.tIdx = (templates os).length := by
      have ht := hc.tIdx
      omega
    refine ⟨hn, ?_, hsnap, hglobal, ?_⟩
    · rw [(opt_t_of_lt hlt).2, hlen]
      omega
    · intro i hi
      rw [hinterfaces] at hi
      rw [(opt_t_of_lt hlt).1]
      by_cases hslot : i = ⟨c.tIdx, hlt⟩
      · have hread := hc.device i hi
        have hival : i.val = (templates os).length := (congrArg Fin.val hslot).trans ht
        rw [hival] at hi hread
        rw [← hslot, Function.update_self, hival]
        exact hread.own hi
      · rw [Function.update_of_ne hslot]
        have hne : i.val ≠ (templates os).length := fun heq => hslot (Fin.ext (heq.trans ht.symm))
        exact (hc.device i hi).append hi (ownTemplate_append_ne hne)

/-- An option of another letter leaves the devices and the template. -/
theorem reads_other (hc : Reads os c) (hi : interfaceOf o = none) (ht : templateOf o = none)
    (hoptions : c'.options.numberInterfaces = c.options.numberInterfaces ∧
      c'.options.templateID = c.options.templateID)
    (hsnap : c'.options.snapLength = snapLength (os ++ [o]))
    (hdevices : c'.devices = c.devices) (htIdx : c'.tIdx = c.tIdx) : Reads (os ++ [o]) c' := by
  refine ⟨?_, ?_, hsnap, ?_, ?_⟩
  · rw [hoptions.1, hc.numberInterfaces, interfaces_append_other hi]
  · rw [htIdx, hc.tIdx, templates_append_other ht]
  · rw [hoptions.2, hc.templateID, globalTemplate, globalTemplate, templates_append_other ht]
  · intro i hlt
    rw [interfaces_append_other hi] at hlt
    rw [hdevices]
    exact (hc.device i hlt).append hlt (ownTemplate_append_other ht)

theorem reads_apply (hc : Reads os c) (h : o.apply c = some c') : Reads (os ++ [o]) c' := by
  cases o with
  | i arg => exact reads_i hc h
  | t arg =>
      obtain rfl := Option.some.inj h
      exact reads_t hc
  | N arg =>
      obtain rfl := Option.some.inj h
      exact reads_other hc rfl rfl ⟨rfl, rfl⟩ (snapLength_append os arg).symm rfl rfl
  | e arg =>
      obtain rfl := Option.some.inj h
      exact reads_other hc rfl rfl ⟨rfl, rfl⟩
        (hc.snapLength.trans (snapLength_append_other (o := .e arg) rfl).symm) rfl rfl
  | I arg =>
      obtain rfl := Option.some.inj h
      exact reads_other hc rfl rfl ⟨rfl, rfl⟩
        (hc.snapLength.trans (snapLength_append_other (o := .I arg) rfl).symm) rfl rfl
  | J arg =>
      obtain rfl := Option.some.inj h
      exact reads_other hc rfl rfl ⟨rfl, rfl⟩
        (hc.snapLength.trans (snapLength_append_other (o := .J arg) rfl).symm) rfl rfl
  | K arg =>
      obtain rfl := Option.some.inj h
      exact reads_other hc rfl rfl ⟨rfl, rfl⟩
        (hc.snapLength.trans (snapLength_append_other (o := .K arg) rfl).symm) rfl rfl

/-! ### All options -/

variable {calcHashValueBob : HashFunction}

/-- The options from some configuration on, where those before it are known. -/
theorem reads_parseCmdlineV2_from {seen : List Opt} (hc : Reads seen c)
    (h : parseCmdlineV2 c os = some c') : Reads (seen ++ os) c' := by
  induction os generalizing c seen with
  | nil =>
      obtain rfl := Option.some.inj h
      rw [List.append_nil]
      exact hc
  | cons o os ih =>
      obtain ⟨c₁, happly, h⟩ := parseCmdlineV2_cons h
      have hrest := ih (reads_apply hc happly) h
      rwa [List.append_assoc] at hrest

theorem reads_parseCmdlineV2 (h : parseCmdlineV2 (defaults calcHashValueBob) os = some c) :
    Reads os c :=
  reads_parseCmdlineV2_from (reads_defaults calcHashValueBob) h

/-! ### Options that can be read -/

/-- The ten names that become interfaces are not empty. -/
def Readable (os : List Opt) : Prop := ∀ n < maxInterfaces, (interfaces os)[n]? ≠ some []

theorem Reordered.readable (h : Reordered os os') (hos : Readable os) : Readable os' := by
  rw [Readable, ← h.interfaces_eq]
  exact hos

/-- The last option can be read behind the others. -/
def ReadableLast (os : List Opt) (o : Opt) : Prop :=
  (interfaces os).length < maxInterfaces → interfaceOf o ≠ some []

theorem readable_append : Readable (os ++ [o]) ↔ Readable os ∧ ReadableLast os o := by
  rw [Readable, Readable, ReadableLast]
  by_cases ho : letter o = 'i'
  · obtain ⟨arg, rfl⟩ := eq_i_of_letter ho
    rw [interfaces_append]
    constructor
    · intro h
      refine ⟨?_, ?_⟩
      · intro n hn hempty
        have hlen : n < (interfaces os).length := (List.getElem?_eq_some_iff.mp hempty).1
        exact h n hn ((List.getElem?_append_left hlen).trans hempty)
      · intro hlt hempty
        refine h _ hlt ?_
        rw [List.getElem?_concat_length]
        exact hempty
    · rintro ⟨hold, hnew⟩ n hn hempty
      rw [List.getElem?_append] at hempty
      split at hempty
      · exact hold n hn hempty
      · obtain ⟨hz, hval⟩ := List.getElem?_eq_some_iff.mp hempty
        rw [List.length_singleton] at hz
        rw [List.getElem_singleton] at hval
        exact hnew (by omega) (congrArg some hval)
  · rw [interfaces_append_other (interfaceOf_of_ne ho), interfaceOf_of_ne ho]
    exact ⟨fun h => ⟨h, fun _ => (Option.some_ne_none _).symm⟩, fun h => h.1⟩

theorem opt_i_isSome : (∃ c', opt_i arg c = some c') ↔
    (c.options.numberInterfaces < maxInterfaces → arg ≠ []) := by
  rw [opt_i]
  by_cases hfull : c.options.numberInterfaces = maxInterfaces
  · rw [dif_pos hfull]
    exact ⟨fun _ hlt => absurd hfull (Nat.ne_of_lt hlt), fun _ => ⟨c, rfl⟩⟩
  · rw [dif_neg hfull]
    have hlt := Nat.lt_of_le_of_ne c.interfaces_le hfull
    cases arg with
    | nil =>
        constructor
        · rintro ⟨c', h⟩
          cases h
        · exact fun h => absurd rfl (h hlt)
    | cons letter rest => exact ⟨fun _ _ => List.cons_ne_nil _ _, fun _ => ⟨_, rfl⟩⟩

theorem readableLast_other (h : interfaceOf o = none) : ReadableLast os o := by
  rw [ReadableLast, h]
  exact fun _ => (Option.some_ne_none _).symm

theorem apply_isSome (hc : Reads os c) : (∃ c', o.apply c = some c') ↔ ReadableLast os o := by
  cases o with
  | i arg =>
      have hn : c.options.numberInterfaces < maxInterfaces ↔
          (interfaces os).length < maxInterfaces := by
        have hn := hc.numberInterfaces
        omega
      have hname : some arg ≠ some ([] : CStr) ↔ arg ≠ [] := not_congr Option.some_inj
      change (∃ c', opt_i arg c = some c') ↔ _
      rw [opt_i_isSome, hn, ← hname]
      exact Iff.rfl
  | _ => exact ⟨fun _ => readableLast_other rfl, fun _ => ⟨_, rfl⟩⟩

theorem parseCmdlineV2_isSome :
    (∃ c, parseCmdlineV2 (defaults calcHashValueBob) os = some c) ↔ Readable os := by
  induction os using List.reverseRecOn with
  | nil =>
      exact ⟨fun _ n _ => by simp [interfaces], fun _ => ⟨_, rfl⟩⟩
  | append_singleton os o ih =>
      rw [parseCmdlineV2_append, readable_append, ← ih]
      constructor
      · rintro ⟨c', h⟩
        obtain ⟨c, hc, hlast⟩ := Option.bind_eq_some_iff.mp h
        refine ⟨⟨c, hc⟩, ?_⟩
        rw [← apply_isSome (reads_parseCmdlineV2 hc)]
        obtain ⟨c₁, happly, -⟩ := parseCmdlineV2_cons hlast
        exact ⟨c₁, happly⟩
      · rintro ⟨⟨c, hc⟩, hlast⟩
        obtain ⟨c', happly⟩ := (apply_isSome (reads_parseCmdlineV2 hc)).mpr hlast
        refine ⟨c', Option.bind_eq_some_iff.mpr ⟨c, hc, ?_⟩⟩
        rw [parseCmdlineV2, happly]
        rfl

/-! ## When the order of the letters does not matter -/

/-- The same devices for the export: each buffer of the final snap length, and the
    same template in force. -/
structure SameDevices (c c' : Config) : Prop where
  numberInterfaces : c.options.numberInterfaces = c'.options.numberInterfaces
  snapLength : c.options.snapLength = c'.options.snapLength
  size : ∀ i : Fin maxInterfaces, i.val < c.options.numberInterfaces →
    (c.devices i).hashBuffer.size = c.options.snapLength ∧
    (c'.devices i).hashBuffer.size = c'.options.snapLength
  template : ∀ i : Fin maxInterfaces, i.val < c.options.numberInterfaces →
    effectiveTemplate c.options (c.devices i) = effectiveTemplate c'.options (c'.devices i)

/-- For each -i that becomes an interface: the last -N in front of it says what the
    last -N of all says, in both orders, and the -t of its slot comes behind it in
    both orders or in neither, unless it names the template of the probe anyway. -/
structure OrderFree (os os' : List Opt) : Prop where
  snapLength : ∀ n < maxInterfaces, n < (interfaces os).length →
    OptionOrder.snapLength (before n os) = OptionOrder.snapLength os ∧
    OptionOrder.snapLength (before n os') = OptionOrder.snapLength os'
  template : ∀ n < maxInterfaces, n < (interfaces os).length →
    (TemplateBehind n os ↔ TemplateBehind n os') ∨
    ∀ tId, ownTemplate n os = some tId → tId = globalTemplate os

theorem ownTemplate_known {tId : Nat} (h : ownTemplate n os = some tId) : Known tId := by
  have hmem : some tId ∈ templates os := List.mem_of_getElem? (Option.join_eq_some_iff.mp h)
  obtain ⟨o, -, ho⟩ := List.mem_filterMap.mp hmem
  cases o with
  | t arg => exact parseTemplate_known (Option.some.inj ho)
  | _ => cases ho

/-- The template in force for a device with its own -t behind it, and without. -/
theorem effectiveTemplate_behind {options : Options} (h : DeviceReads n os dev)
    (hid : options.templateID = globalTemplate os) (hbehind : TemplateBehind n os) :
    effectiveTemplate options dev = (ownTemplate n os).getD (globalTemplate os) := by
  rw [effectiveTemplate, h.behind hbehind]
  cases hown : ownTemplate n os with
  | none => exact (if_pos rfl).trans hid
  | some tId => exact if_neg (ownTemplate_known hown).ne_absent

theorem effectiveTemplate_front {options : Options} (h : DeviceReads n os dev)
    (hid : options.templateID = globalTemplate os) (hfront : ¬ TemplateBehind n os) :
    effectiveTemplate options dev = globalTemplate os := by
  rw [effectiveTemplate, h.front hfront, if_pos rfl, hid]

theorem getD_eq_iff {own : Option Nat} {tId : Nat} :
    own.getD tId = tId ↔ ∀ tId', own = some tId' → tId' = tId := by
  cases own with
  | none => exact ⟨fun _ tId' h => absurd h.symm (Option.some_ne_none tId'), fun _ => rfl⟩
  | some own =>
      constructor
      · rintro h tId' ⟨rfl⟩
        exact h
      · exact fun h => h own rfl

/-- One device under two orders. -/
theorem sameTemplate_iff {options options' : Options} {dev' : DeviceDev} (h : Reordered os os')
    (hdev : DeviceReads n os dev) (hdev' : DeviceReads n os' dev')
    (hid : options.templateID = globalTemplate os)
    (hid' : options'.templateID = globalTemplate os') :
    effectiveTemplate options dev = effectiveTemplate options' dev' ↔
      (TemplateBehind n os ↔ TemplateBehind n os') ∨
      ∀ tId, ownTemplate n os = some tId → tId = globalTemplate os := by
  have hglobal : globalTemplate os' = globalTemplate os := by
    rw [globalTemplate, globalTemplate, h.templates_eq]
  have hown : ownTemplate n os' = ownTemplate n os := by
    rw [ownTemplate, ownTemplate, h.templates_eq]
  rw [← getD_eq_iff]
  by_cases hb : TemplateBehind n os
  · by_cases hb' : TemplateBehind n os'
    · rw [effectiveTemplate_behind hdev hid hb, effectiveTemplate_behind hdev' hid' hb', hown,
        hglobal]
      exact ⟨fun _ => Or.inl ⟨fun _ => hb', fun _ => hb⟩, fun _ => rfl⟩
    · rw [effectiveTemplate_behind hdev hid hb, effectiveTemplate_front hdev' hid' hb', hglobal]
      exact ⟨Or.inr, fun hor => hor.resolve_left fun hiff => hb' (hiff.mp hb)⟩
  · by_cases hb' : TemplateBehind n os'
    · rw [effectiveTemplate_front hdev hid hb, effectiveTemplate_behind hdev' hid' hb', hown,
        hglobal]
      exact ⟨fun heq => Or.inr heq.symm,
        fun hor => (hor.resolve_left fun hiff => hb (hiff.mpr hb')).symm⟩
    · rw [effectiveTemplate_front hdev hid hb, effectiveTemplate_front hdev' hid' hb', hglobal]
      exact ⟨fun _ => Or.inl ⟨fun hbehind => absurd hbehind hb, fun hbehind => absurd hbehind hb'⟩,
        fun _ => rfl⟩

/-- **The order of letters**: another order of the options that keeps the order
    within each letter ends with the same devices exactly where no -N and no -t
    changes sides with an -i it matters to. -/
theorem sameDevices_iff (h : Reordered os os')
    (hc : parseCmdlineV2 (defaults calcHashValueBob) os = some c) :
    ∃ c', parseCmdlineV2 (defaults calcHashValueBob) os' = some c' ∧
      (SameDevices c c' ↔ OrderFree os os') := by
  obtain ⟨c', hc'⟩ := parseCmdlineV2_isSome.mpr (h.readable (parseCmdlineV2_isSome.mp ⟨c, hc⟩))
  refine ⟨c', hc', ?_⟩
  have hr := reads_parseCmdlineV2 hc
  have hr' := reads_parseCmdlineV2 hc'
  have hn : ∀ n, n < c.options.numberInterfaces ↔
      n < maxInterfaces ∧ n < (interfaces os).length := by
    intro n
    have hn := hr.numberInterfaces
    omega
  have hdev' : ∀ i : Fin maxInterfaces, i.val < (interfaces os).length →
      DeviceReads i os' (c'.devices i) := by
    intro i hi
    rw [h.interfaces_eq] at hi
    exact hr'.device i hi
  constructor
  · intro hsame
    refine ⟨?_, ?_⟩
    · intro n hmax hlen
      obtain ⟨hsize, hsize'⟩ := hsame.size ⟨n, hmax⟩ ((hn n).mpr ⟨hmax, hlen⟩)
      rw [(hr.device ⟨n, hmax⟩ hlen).size, hr.snapLength] at hsize
      rw [(hdev' ⟨n, hmax⟩ hlen).size, hr'.snapLength] at hsize'
      exact ⟨hsize, hsize'⟩
    · intro n hmax hlen
      exact (sameTemplate_iff h (hr.device ⟨n, hmax⟩ hlen) (hdev' ⟨n, hmax⟩ hlen) hr.templateID
        hr'.templateID).mp (hsame.template ⟨n, hmax⟩ ((hn n).mpr ⟨hmax, hlen⟩))
  · intro hfree
    refine ⟨?_, ?_, ?_, ?_⟩
    · rw [hr.numberInterfaces, hr'.numberInterfaces, h.interfaces_eq]
    · rw [hr.snapLength, hr'.snapLength, h.snapLength_eq]
    · intro i hi
      have hlen := ((hn i).mp hi).2
      rw [(hr.device i hlen).size, (hdev' i hlen).size, hr.snapLength, hr'.snapLength]
      exact hfree.snapLength i i.isLt hlen
    · intro i hi
      have hlen := ((hn i).mp hi).2
      exact (sameTemplate_iff h (hr.device i hlen) (hdev' i hlen) hr.templateID
        hr'.templateID).mpr (hfree.template i i.isLt hlen)

/-- -N 100 -i i:eth0 -t ls -/
def templateLast : List Opt := [.N (str "100"), .i (str "i:eth0"), .t (str "ls")]

/-- -N 100 -t ls -i i:eth0 -/
def templateFirst : List Opt := [.N (str "100"), .t (str "ls"), .i (str "i:eth0")]

/-- The one -t is the template of the probe anyway. -/
theorem sameDevices_ls : ∃ c c',
    parseCmdlineV2 (defaults fun _ => 0x20000000) templateLast = some c ∧
    parseCmdlineV2 (defaults fun _ => 0x20000000) templateFirst = some c' ∧
    SameDevices c c' := by
  have h : Reordered templateLast templateFirst := ⟨by decide +kernel, by decide +kernel⟩
  have hc : ∃ c, parseCmdlineV2 (defaults fun _ => 0x20000000) templateLast = some c := ⟨_, rfl⟩
  obtain ⟨c, hc⟩ := hc
  obtain ⟨c', hc', hiff⟩ := sameDevices_iff h hc
  refine ⟨c, c', hc, hc', hiff.mpr ⟨?_, ?_⟩⟩
  · decide +kernel
  · intro n _ hlen
    obtain rfl : n = 0 := Nat.lt_one_iff.mp hlen
    refine Or.inr ?_
    rintro tId ⟨rfl⟩
    decide +kernel

/-- -i i:eth0 -t ls -t min -N 100 -/
def interfaceFirst : List Opt :=
  [.i (str "i:eth0"), .t (str "ls"), .t (str "min"), .N (str "100")]

/-- -N 100 -t ls -t min -i i:eth0 -/
def interfaceLast : List Opt :=
  [.N (str "100"), .t (str "ls"), .t (str "min"), .i (str "i:eth0")]

/-- The same options: a buffer of 80 bytes and the template ls, or one of 100 and
    the template min. -/
theorem order_of_letters_matters : Reordered interfaceFirst interfaceLast ∧ ∃ c c',
    parseCmdlineV2 (defaults fun _ => 0x20000000) interfaceFirst = some c ∧
    parseCmdlineV2 (defaults fun _ => 0x20000000) interfaceLast = some c' ∧
    (c.devices 0).hashBuffer.size = 80 ∧ (c'.devices 0).hashBuffer.size = 100 ∧
    effectiveTemplate c.options (c.devices 0) = tsTtlProtoIpId ∧
    effectiveTemplate c'.options (c'.devices 0) = mintId ∧ ¬ SameDevices c c' := by
  refine ⟨⟨by decide +kernel, by decide +kernel⟩, ?_⟩
  refine ⟨_, _, rfl, rfl, rfl, rfl, rfl, rfl, ?_⟩
  intro hsame
  exact absurd (hsame.size 0 (by decide +kernel)).1 (by decide +kernel)

end Impd4e.OptionOrder
