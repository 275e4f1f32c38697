import Impd4e.OptionFunctions

/-! # Options that change places

    Options that work on different parts of the state may change places on the
    command line, and -N and -t may, though both are about the interfaces.  These
    are all that may: `maySwap_iff`.  Whole command lines are the same where the
    options of any two dependent letters come in the same order.

    A command line is what `getopt` finds in its words, however they spell it. -/

namespace Impd4e.OptionFunctions

open Impd4e.CString Impd4e.CmdLine Impd4e.CommandLine Impd4e.HashFunctions
  Impd4e.ExportHandler Traces

/-! ## The order of the options -/

/-- The part a letter stands for. -/
def partOf (c : UInt8) : Option Part := (optFct c).bind OptFct.part

/-- The snap length and the template of a slot: one part, but not one another's. -/
def SnapAndTemplate (a b : UInt8) : Prop :=
  (a = ch 'N' ∧ b = ch 't') ∨ (a = ch 't' ∧ b = ch 'N')

/-- Letters whose order counts: a letter and itself, a file and everything, and two
    letters that work on one part, but for -N and -t. -/
def Dependent (a b : UInt8) : Prop :=
  a = b ∨ a = ch 'c' ∨ b = ch 'c' ∨
    ((∃ p, partOf a = some p ∧ partOf b = some p) ∧ ¬ SnapAndTemplate a b)

theorem dependence : Dependence Dependent where
  refl := fun a => Or.inl rfl
  symm := by
    rintro a b (rfl | ha | hb | ⟨⟨p, ha, hb⟩, hnot⟩)
    · exact Or.inl rfl
    · exact Or.inr (Or.inr (Or.inl ha))
    · exact Or.inr (Or.inl hb)
    · refine Or.inr (Or.inr (Or.inr ⟨⟨p, hb, ha⟩, ?_⟩))
      rintro (⟨hN, ht⟩ | ⟨ht, hN⟩)
      · exact hnot (Or.inr ⟨ht, hN⟩)
      · exact hnot (Or.inl ⟨hN, ht⟩)

section Order

variable {host : Host} {readC : CStr → GOptions → Option GOptions}

/-- One call of `callAll`. -/
def callOne (host : Host) (readC : CStr → GOptions → Option GOptions) (s : GOptions) (f : Found) :
    Option GOptions :=
  optFunctions host readC f.c f.optarg s

/-- A function without a part ends the program or does nothing. -/
theorem call_idle {fct : OptFct} (hpart : fct.part = none) (hc : fct ≠ .opt_c)
    (optarg : Option CStr) :
    (∀ s, fct.call host readC optarg s = none) ∨
      ∀ s, fct.call host readC optarg s = some s := by
  cases fct with
  | opt_V => exact Or.inl fun _ => rfl
  | opt_h => exact Or.inl fun _ => rfl
  | opt_X => exact Or.inl fun _ => rfl
  | opt_n => exact Or.inr fun _ => rfl
  | opt_y => exact Or.inr fun _ => rfl
  | opt_c => exact absurd rfl hc
  | _ => cases hpart

/-- A letter that has no part and is no file has nothing to say about the others. -/
theorem callOne_idle {f : Found} (hpart : partOf f.c = none) (hc : f.c ≠ ch 'c') :
    (∀ s, callOne host readC s f = none) ∨ ∀ s, callOne host readC s f = some s := by
  cases hfct : optFct f.c with
  | none =>
      refine Or.inl fun s => ?_
      rw [callOne, optFunctions, hfct]
  | some fct =>
      rw [partOf, hfct] at hpart
      have hfile : fct ≠ .opt_c := by
        rintro rfl
        exact hc (optFct_c hfct)
      have hcall : ∀ s, callOne host readC s f = fct.call host readC f.optarg s := by
        intro s
        rw [callOne, optFunctions, hfct]
      rcases @call_idle host readC fct hpart hfile f.optarg with h | h
      · exact Or.inl fun s => (hcall s).trans (h s)
      · exact Or.inr fun s => (hcall s).trans (h s)

theorem callOne_on {f : Found} {p : Part} (hpart : partOf f.c = some p) :
    parts.On p fun s => callOne host readC s f := by
  obtain ⟨fct, hfct, hp⟩ := Option.bind_eq_some_iff.mp hpart
  have hcall : (fun s => callOne host readC s f) =
      fun s => fct.call host readC f.optarg s := by
    funext s
    rw [callOne, optFunctions, hfct]
  rw [hcall]
  exact call_on host readC f.optarg hp

theorem commute_idle {f g : Found}
    (h : (∀ s, callOne host readC s f = none) ∨ ∀ s, callOne host readC s f = some s) :
    Commute (callOne host readC) f g := by
  intro s
  show (callOne host readC s f).bind (fun s => callOne host readC s g) =
    (callOne host readC s g).bind fun s => callOne host readC s f
  rcases h with h | h
  · rw [h s, funext h, Option.bind_none]
    exact (Option.bind_fun_none _).symm
  · rw [h s, funext h, Option.bind_some]
    exact (Option.bind_fun_some _).symm

/-- The snap length and the template of a slot. -/
theorem commute_snap_template {f g : Found} (hf : f.c = ch 'N') (hg : g.c = ch 't') :
    Commute (callOne host readC) f g := by
  intro s
  have hN : optFct (ch 'N') = some .opt_N := by decide +kernel
  have ht : optFct (ch 't') = some .opt_t := by decide +kernel
  show (callOne host readC s f).bind (fun s => callOne host readC s g) =
    (callOne host readC s g).bind fun s => callOne host readC s f
  simp only [callOne, optFunctions, hf, hg, hN, ht, OptFct.call]
  cases f.optarg with
  | none => exact (Option.bind_fun_none _).symm
  | some arg =>
      cases g.optarg with
      | none => rfl
      | some arg' =>
          show some _ = some _
          rw [CmdLine.opt_t, CmdLine.opt_t]
          by_cases h : s.config.tIdx = maxInterfaces
          · rw [dif_pos h, dif_pos (show (CmdLine.opt_N arg s.config).tIdx = _ from h)]
            rfl
          · rw [dif_neg h, dif_neg (show ¬ (CmdLine.opt_N arg s.config).tIdx = _ from h)]
            rfl

theorem commute_independent {f g : Found} (h : ¬ Dependent f.c g.c) :
    Commute (callOne host readC) f g := by
  obtain ⟨hne, hrest⟩ := not_or.mp h
  obtain ⟨hfc, hrest⟩ := not_or.mp hrest
  obtain ⟨hgc, hpart⟩ := not_or.mp hrest
  cases hpf : partOf f.c with
  | none => exact commute_idle (callOne_idle hpf hfc)
  | some p =>
      cases hpg : partOf g.c with
      | none => exact fun s => (commute_idle (callOne_idle hpg hgc) s).symm
      | some q =>
          by_cases hpq : p = q
          · subst hpq
            have hsnap : SnapAndTemplate f.c g.c :=
              not_not.mp fun hnot => hpart ⟨⟨p, hpf, hpg⟩, hnot⟩
            rcases hsnap with ⟨hN, ht⟩ | ⟨ht, hN⟩
            · exact commute_snap_template hN ht
            · exact fun s => (commute_snap_template hN ht s).symm
          · exact fun s => (callOne_on hpf).comm (callOne_on hpg) hpq s

/-- **THE ORDER OF THE OPTIONS** — two command lines that spell the same options, with
    those of any two dependent letters in the same order, set up the same. -/
theorem option_order {words words' : List CStr} {found found' : List Found}
    (h : Spells words found) (h' : Spells words' found')
    (htrace : SameTrace Dependent Found.c found found') (s : GOptions) :
    CommandLine.parseCmdlineV2 (optFunctions host readC) words s =
      CommandLine.parseCmdlineV2 (optFunctions host readC) words' s := by
  obtain ⟨hget, hknown⟩ := getopt_of_spells h
  obtain ⟨hget', hknown'⟩ := getopt_of_spells h'
  rw [CommandLine.parseCmdlineV2, CommandLine.parseCmdlineV2, hget, hget',
    callOptFunctions_known hknown, callOptFunctions_known hknown']
  exact foldlM_sameTrace dependence (fun f g => commute_independent) htrace s

end Order

theorem dependent_e_i : ¬ Dependent (ch 'e') (ch 'i') := by
  have hparts : partOf (ch 'e') = some .flushCount ∧ partOf (ch 'i') = some .interfaces := by
    decide +kernel
  rintro (h | h | h | ⟨⟨p, hp, hp'⟩, -⟩)
  · exact absurd h (by decide)
  · exact absurd h (by decide)
  · exact absurd h (by decide)
  · rw [hparts.1] at hp
    rw [hparts.2] at hp'
    cases hp
    cases hp'

/-- impd4e -e 10 -i i:eth0, and the other way round. -/
theorem option_order_e_i :
    CommandLine.parseCmdlineV2 (optFunctions ⟨⟨.littleEndian, true⟩, true⟩ fun _ _ => none)
        [str "-e", str "10", str "-i", str "i:eth0"] setDefaultsOptions =
      CommandLine.parseCmdlineV2 (optFunctions ⟨⟨.littleEndian, true⟩, true⟩ fun _ _ => none)
        [str "-i", str "i:eth0", str "-e", str "10"] setDefaultsOptions := by
  have hnil : ∀ d ∈ ([] : CStr), Flag d := fun d hd => absurd hd List.not_mem_nil
  have he : lookup par (ch 'e') = some .required := by decide +kernel
  have hi : lookup par (ch 'i') = some .required := by decide +kernel
  exact option_order (.separate hnil he (.separate hnil hi .nil))
    (.separate hnil hi (.separate hnil he .nil))
    (@sameTrace_swap _ _ _ Found.c _ ⟨ch 'e', _⟩ dependence ⟨ch 'i', _⟩ dependent_e_i [] []) _

/-! ### Letters that do not change places -/

/-- Two letters may change places on every command line, with any arguments: two
    command lines in which `getopt` finds the same options, but for two neighbours
    with these letters that stand the other way round, set up the same. -/
def MaySwap (a b : UInt8) : Prop :=
  ∀ (host : Host) (readC : CStr → GOptions → Option GOptions) (words words' : List CStr)
    (before after : List Found) (f g : Found) (s : GOptions), f.c = a → g.c = b →
    getopt none words = before ++ f :: g :: after →
    getopt none words' = before ++ g :: f :: after →
    CommandLine.parseCmdlineV2 (optFunctions host readC) words s =
      CommandLine.parseCmdlineV2 (optFunctions host readC) words' s

/-- Options with arguments that say different things about one part. -/
def conflicts : List (Found × Found) :=
  [(⟨ch '4', none⟩, ⟨ch '6', none⟩),
    (⟨ch 'i', some (str "i:eth0")⟩, ⟨ch 'N', some (str "100")⟩),
    (⟨ch 'i', some (str "i:eth0")⟩, ⟨ch 't', some (str "ls")⟩),
    (⟨ch 'm', some (str "9")⟩, ⟨ch 'M', some (str "5")⟩),
    (⟨ch 'm', some (str "0")⟩, ⟨ch 'r', some (str "1")⟩),
    (⟨ch 'M', some (str "4294967295")⟩, ⟨ch 'r', some (str "1")⟩),
    (⟨ch 's', some (str "IP")⟩, ⟨ch 'S', some (str "RAW")⟩),
    (⟨ch 'l', some (str "1:2")⟩, ⟨ch 'L', some (str "3:4")⟩),
    (⟨ch 'l', some (str "1:2:3")⟩, ⟨ch 'G', some (str "5")⟩),
    (⟨ch 'L', some (str "1:2:3")⟩, ⟨ch 'G', some (str "5")⟩)]

/-- What the conflicts show in. -/
structure Shown where
  aiFamily : AiFamily
  size : Nat
  templateId : Nat
  selRangeMin : UInt32
  selRangeMax : UInt32
  selectionFunction : SelectionFunction
  latitude : CStr
  exportLocationInterval : Binary64.Double
  deriving DecidableEq

theorem zero_lt_maxInterfaces : 0 < maxInterfaces := by decide

def shown (s : GOptions) : Shown where
  aiFamily := s.aiFamily
  size := (s.config.devices ⟨0, zero_lt_maxInterfaces⟩).hashBuffer.size
  templateId := (s.config.devices ⟨0, zero_lt_maxInterfaces⟩).templateId
  selRangeMin := s.config.options.selRangeMin
  selRangeMax := s.config.options.selRangeMax
  selectionFunction := s.config.options.selectionFunction
  latitude := s.latitude
  exportLocationInterval := s.exportLocationInterval

/-- One option behind the other, on the defaults. -/
def both (f g : Found) : Option GOptions :=
  (callOne ⟨⟨.littleEndian, true⟩, true⟩ (fun _ _ => none) setDefaultsOptions f).bind fun s =>
    callOne ⟨⟨.littleEndian, true⟩, true⟩ (fun _ _ => none) s g

theorem conflicts_differ : ∀ c ∈ conflicts,
    (both c.1 c.2).map shown ≠ (both c.2 c.1).map shown := by decide +kernel

theorem conflicts_declared : ∀ c ∈ conflicts, c.1.Declared ∧ c.2.Declared := by decide +kernel

/-- Every pair of letters that are dependent is in conflict somewhere. -/
theorem conflicts_complete : ∀ x ∈ optFctList, ∀ y ∈ optFctList, x.1 ≠ y.1 →
    x.2.part ≠ none → x.2.part = y.2.part → ¬ (x.1 = ch 'N' ∧ y.1 = ch 't') →
    ¬ (x.1 = ch 't' ∧ y.1 = ch 'N') →
      ∃ c ∈ conflicts, (c.1.c = x.1 ∧ c.2.c = y.1) ∨ (c.1.c = y.1 ∧ c.2.c = x.1) := by
  decide +kernel

variable {host : Host} {readC : CStr → GOptions → Option GOptions}

/-- Two options behind others, and those behind them. -/
theorem callOptFunctions_two {f g : Found} (hf : Known f) (hg : Known g) (before after : List Found)
    (s : GOptions) :
    callOptFunctions (optFunctions host readC) (before ++ f :: g :: after) s =
      (callOptFunctions (optFunctions host readC) before s).bind fun s =>
        ((callOne host readC s f).bind fun s => callOne host readC s g).bind fun s =>
          callOptFunctions (optFunctions host readC) after s := by
  rw [callOptFunctions_append]
  congr 1
  funext s'
  rw [callOptFunctions_cons _ hf, Option.bind_assoc]
  congr 1
  funext s''
  exact callOptFunctions_cons _ hg after s''

/-- With an unknown option the program ends, in whatever place. -/
theorem callOptFunctions_not_known {found : List Found} (h : ¬ ∀ f ∈ found, Known f)
    (s : GOptions) : callOptFunctions (optFunctions host readC) found s = none := by
  cases hcall : callOptFunctions (optFunctions host readC) found s with
  | none => rfl
  | some s' => exact absurd (known_of_callOptFunctions hcall) h

theorem callOptFunctions_swap {f g : Found} (h : ¬ Dependent f.c g.c) (before after : List Found)
    (s : GOptions) :
    callOptFunctions (optFunctions host readC) (before ++ f :: g :: after) s =
      callOptFunctions (optFunctions host readC) (before ++ g :: f :: after) s := by
  have hperm : (before ++ f :: g :: after).Perm (before ++ g :: f :: after) :=
    (List.Perm.swap g f after).append_left before
  by_cases hknown : ∀ h ∈ before ++ f :: g :: after, Known h
  · have hf : Known f := hknown f (List.mem_append_right _ List.mem_cons_self)
    have hg : Known g :=
      hknown g (List.mem_append_right _ (List.mem_cons_of_mem _ List.mem_cons_self))
    rw [callOptFunctions_two hf hg, callOptFunctions_two hg hf]
    congr 1
    funext s'
    have hcomm := @commute_independent host readC f g h s'
    exact congrArg (fun o : Option GOptions => o.bind _) hcomm
  · rw [callOptFunctions_not_known hknown, callOptFunctions_not_known]
    exact fun hknown' => hknown fun h hh => hknown' h (hperm.subset hh)

theorem mem_optFctList {c : UInt8} {p : Part} (h : partOf c = some p) :
    ∃ entry ∈ optFctList, entry.1 = c ∧ entry.2.part = some p := by
  obtain ⟨fct, hfct, hp⟩ := Option.bind_eq_some_iff.mp h
  obtain ⟨entry, hfind, rfl⟩ := Option.map_eq_some_iff.mp hfct
  have heq := List.find?_some hfind
  exact ⟨entry, List.mem_of_find?_eq_some hfind, (of_decide_eq_true heq).symm, hp⟩

/-- Two options alone. -/
theorem parseCmdlineV2_both {f g : Found} (hf : f.Declared) (hg : g.Declared) :
    CommandLine.parseCmdlineV2 (optFunctions ⟨⟨.littleEndian, true⟩, true⟩ fun _ _ => none)
      (render f ++ (render g ++ [])) setDefaultsOptions = both f g := by
  rw [CommandLine.parseCmdlineV2, getopt_render hf, getopt_render hg]
  refine (callOptFunctions_two (known_of_declared hf) (known_of_declared hg) [] [] _).trans ?_
  show (both f g).bind (fun s => some s) = both f g
  exact Option.bind_fun_some _

/-- Options in conflict set up different things. -/
theorem not_maySwap {c : Found × Found} (hc : c ∈ conflicts) :
    ¬ MaySwap c.1.c c.2.c ∧ ¬ MaySwap c.2.c c.1.c := by
  obtain ⟨hf, hg⟩ := conflicts_declared c hc
  have hwords : ∀ {f g : Found}, f.Declared → g.Declared →
      getopt none (render f ++ (render g ++ [])) = [] ++ f :: g :: [] := by
    intro f g hf hg
    rw [getopt_render hf, getopt_render hg]
    rfl
  constructor
  · intro hswap
    have h := hswap ⟨⟨.littleEndian, true⟩, true⟩ (fun _ _ => none) _ _ [] [] c.1 c.2
      setDefaultsOptions rfl rfl (hwords hf hg) (hwords hg hf)
    rw [parseCmdlineV2_both hf hg, parseCmdlineV2_both hg hf] at h
    exact conflicts_differ c hc (congrArg _ h)
  · intro hswap
    have h := hswap ⟨⟨.littleEndian, true⟩, true⟩ (fun _ _ => none) _ _ [] [] c.2 c.1
      setDefaultsOptions rfl rfl (hwords hg hf) (hwords hf hg)
    rw [parseCmdlineV2_both hf hg, parseCmdlineV2_both hg hf] at h
    exact conflicts_differ c hc (congrArg _ h.symm)

/-- **WHICH LETTERS MAY CHANGE PLACES** — two different letters other than -c may,
    on every command line and with any arguments, exactly where they are not
    dependent. -/
theorem maySwap_iff (a b : UInt8) (hab : a ≠ b) (ha : a ≠ ch 'c') (hb : b ≠ ch 'c') :
    MaySwap a b ↔ ¬ Dependent a b := by
  constructor
  · rintro hswap (h | h | h | ⟨⟨p, hpa, hpb⟩, hnot⟩)
    · exact hab h
    · exact ha h
    · exact hb h
    · obtain ⟨x, hx, rfl, hxp⟩ := mem_optFctList hpa
      obtain ⟨y, hy, rfl, hyp⟩ := mem_optFctList hpb
      obtain ⟨hNt, htN⟩ := not_or.mp hnot
      obtain ⟨c, hc, ⟨h₁, h₂⟩ | ⟨h₁, h₂⟩⟩ := conflicts_complete x hx y hy hab
        (by rw [hxp]; exact Option.some_ne_none p) (hxp.trans hyp.symm) hNt htN
      · rw [← h₁, ← h₂] at hswap
        exact (not_maySwap hc).1 hswap
      · rw [← h₁, ← h₂] at hswap
        exact (not_maySwap hc).2 hswap
  · rintro h host readC words words' before after f g s rfl rfl hwords hwords'
    rw [CommandLine.parseCmdlineV2, CommandLine.parseCmdlineV2, hwords, hwords']
    exact callOptFunctions_swap h before after s

theorem independent_N_t : ¬ Dependent (ch 'N') (ch 't') := by
  rintro (h | h | h | ⟨-, hnot⟩)
  · exact absurd h (by decide)
  · exact absurd h (by decide)
  · exact absurd h (by decide)
  · exact hnot (Or.inl ⟨rfl, rfl⟩)

/-- impd4e -N 100 -t ls -i i:eth0, and with -N and -t the other way round. -/
theorem maySwap_N_t :
    CommandLine.parseCmdlineV2 (optFunctions ⟨⟨.littleEndian, true⟩, true⟩ fun _ _ => none)
        [str "-N", str "100", str "-t", str "ls", str "-i", str "i:eth0"] setDefaultsOptions =
      CommandLine.parseCmdlineV2 (optFunctions ⟨⟨.littleEndian, true⟩, true⟩ fun _ _ => none)
        [str "-tls", str "-N100", str "-i", str "i:eth0"] setDefaultsOptions := by
  have hswap : MaySwap (ch 'N') (ch 't') :=
    (maySwap_iff (ch 'N') (ch 't') (by decide) (by decide) (by decide)).mpr independent_N_t
  exact hswap _ _ _ _ [] [⟨ch 'i', some (str "i:eth0")⟩] ⟨ch 'N', some (str "100")⟩
    ⟨ch 't', some (str "ls")⟩ _ rfl rfl (by decide +kernel) (by decide +kernel)

end Impd4e.OptionFunctions
