import Impd4e.CNumber
import Impd4e.ConfigHandler
import Impd4e.Lib.Cut
import Impd4e.Netcon

/-! # Messages of the console

    The table of configuration functions and `runtime_configuration_cb` of
    config_handler.c, which takes a message apart: `mid: <id> -<cmd> <value>`.
    The prefix is scanned by `sscanf`, the command is then looked for from the
    start of the message again.

    `Message` is the documented form as data.  `parsesExactly_iff` says on which
    messages the parser takes that form and nothing else. -/

namespace Impd4e.RuntimeMessages

open Impd4e.CString Impd4e.ConfigHandler
open Impd4e.Console (netconCmdMatched netconCmdUnknown)

/-! ## Configuration functions -/

/-- `set_cfg_fct_t`. -/
inductive SetCfgFct where
  | help
  | configuration (cmd : Command)
  | unknownCmdFct
  deriving DecidableEq, Repr

/-- `cfg_fct_t`. -/
structure CfgFct where
  cmd : UInt8
  fct : SetCfgFct
  desc : CStr
  deriving DecidableEq, Repr

/-- `configuration_fct`. -/
def configurationFct : List CfgFct :=
  [⟨ch '?', .help, str "INFO: -? this help\n"⟩,
    ⟨ch 'h', .help, str "INFO: -h this help\n"⟩,
    ⟨ch 'r', .configuration .r, str "INFO: -r capturing ratio in %\n"⟩,
    ⟨ch 'm', .configuration .m, str "INFO: -m capturing selection range min (hex|int)\n"⟩,
    ⟨ch 'M', .configuration .M, str "INFO: -M capturing selection range max (hex|int)\n"⟩,
    ⟨ch 'f', .configuration .f, str "INFO: -f bpf filter expression\n"⟩,
    ⟨ch 't', .configuration .t, str "INFO: -t template (ts|min|lp)\n"⟩,
    ⟨ch 'I', .configuration .I, str "INFO: -I pktid export interval (s)\n"⟩,
    ⟨ch 'J', .configuration .J, str "INFO: -J porbe stats export interval (s)\n"⟩,
    ⟨ch 'K', .configuration .K, str "INFO: -K interface stats export interval (s)\n"⟩]

/-- `get_cfg_fct`; `none` is NULL. -/
def getCfgFct (cmd : UInt8) : Option CfgFct := configurationFct.find? fun f => cmd == f.cmd

/-- `getFunction`. -/
def getFunction (cmd : UInt8) : SetCfgFct := ((getCfgFct cmd).map CfgFct.fct).getD .unknownCmdFct

/-- `configuration_help`: one description, or all of them. -/
def configurationHelp (msg : CStr) : CStr :=
  match getCfgFct (msg.headD 0) with
  | some f => f.desc
  | none => configurationFct.flatMap CfgFct.desc

/-- A configuration function, called. -/
def SetCfgFct.call [Libev] (libpcap : FilterOracle) (msg : CStr) (p : Probe) :
    SetCfgFct → Except Undefined (Probe × CStr)
  | .help => .ok (p, configurationHelp msg)
  | .configuration cmd => cmd.call libpcap msg p
  | .unknownCmdFct => .ok (p, str "unknown command received")

/-- A call of a configuration function: which one, and with what. -/
structure ConfigCall where
  mid : UInt64
  fct : SetCfgFct
  msg : CStr
  deriving DecidableEq, Repr

/-! ## `runtime_configuration_cb` -/

/-- `%lu`, of a 64-bit `unsigned long`: white space, a sign and digits. -/
def scanUlong (s : CStr) : Option UInt64 :=
  let (negative, t) := sign (s.dropWhile isspace)
  if t.takeWhile isdigit = [] then none
  else if 18446744073709551615 < digitsValue t then some 18446744073709551615
  else some (if negative then -UInt64.ofNat (digitsValue t) else UInt64.ofNat (digitsValue t))

/-- `sscanf(conf_msg, "mid: %lu ", &mID)`; `none` where the result is not 1. -/
def sscanfMid (confMsg : CStr) : Option UInt64 :=
  if confMsg.take 4 = str "mid:" then scanUlong (confMsg.drop 4) else none

/-- What follows a hyphen: what is returned, and the calls made.  Two characters
    are passed without a look at them; where the first of them is the NUL, what is
    read next is not part of the message. -/
def command (mid : UInt64) : CStr → Except Undefined (Int × List ConfigCall)
  | [] => .error .other
  | cmd :: value =>
      .ok (netconCmdMatched, [⟨mid, getFunction cmd, value.dropWhile isspace⟩])

/-- The loop over the message. -/
def commandLoop (mid : UInt64) : CStr → Except Undefined (Int × List ConfigCall)
  | [] => .ok (netconCmdUnknown, [])
  | c :: confMsg => if ch '-' = c then command mid confMsg else commandLoop mid confMsg

/-- `runtime_configuration_cb`, up to the reply it exports. -/
def runtimeConfigurationCb (confMsg : CStr) : Except Undefined (Int × List ConfigCall) :=
  match sscanfMid confMsg with
  | some mid => commandLoop mid confMsg
  | none => .ok (netconCmdUnknown, [])

/-! ## The documented form -/

/-- A message of the form `mid: <id> -<cmd> <value>`. -/
structure Message where
  before : CStr
  digits : CStr
  behind : CStr
  cmd : UInt8
  value : CStr
  before_space : ∀ x ∈ before, isspace x = true
  digits_ne_nil : digits ≠ []
  digits_digit : ∀ x ∈ digits, isdigit x = true
  behind_space : ∀ x ∈ behind, isspace x = true

def Message.text (m : Message) : CStr :=
  str "mid:" ++ (m.before ++ (m.digits ++ (m.behind ++ ch '-' :: m.cmd :: m.value)))

def Message.id (m : Message) : Nat := digitsValue m.digits

/-- The message is taken for what it says: its form is recognised and its command
    called, once, and a message of another form does nothing. -/
def ParsesExactly (s : CStr) : Prop :=
  (∀ m : Message, m.text = s → ∃ mid : UInt64, mid.toNat = m.id ∧
    runtimeConfigurationCb s =
      .ok (netconCmdMatched, [⟨mid, getFunction m.cmd, m.value.dropWhile isspace⟩])) ∧
  ((∀ m : Message, m.text ≠ s) → runtimeConfigurationCb s = .ok (netconCmdUnknown, []))

/-- The message starts with `mid:` and a number, with a sign perhaps. -/
def NumberAhead (s : CStr) : Prop :=
  ∃ before signs d rest, s = str "mid:" ++ (before ++ (signs ++ d :: rest)) ∧
    (∀ x ∈ before, isspace x = true) ∧ signs ∈ [[], [ch '-'], [ch '+']] ∧ isdigit d = true

/-! ## Characters -/

theorem isdigit_of_isspace {c : UInt8} (h : isspace c = true) : isdigit c = false := by
  simp [isspace, isdigit, UInt8.le_iff_toNat_le, ← UInt8.toNat_inj] at *
  omega

theorem isspace_of_isdigit {c : UInt8} (h : isdigit c = true) : isspace c = false := by
  cases hspace : isspace c with
  | false => rfl
  | true => rw [isdigit_of_isspace hspace] at h; cases h

theorem not_sign_of_isdigit {c : UInt8} (h : isdigit c = true) : c ≠ ch '-' ∧ c ≠ ch '+' := by
  constructor
  · rintro rfl
    cases h
  · rintro rfl
    cases h

theorem not_hyphen_of_isspace {c : UInt8} (h : isspace c = true) : c ≠ ch '-' := by
  rintro rfl
  cases h

/-! ## The loop -/

theorem commandLoop_absent (mid : UInt64) {s : CStr} (h : ch '-' ∉ s) :
    commandLoop mid s = .ok (netconCmdUnknown, []) := by
  induction s with
  | nil => rfl
  | cons c s ih =>
      obtain ⟨hc, hs⟩ := not_or.mp (mt List.mem_cons.mpr h)
      rw [commandLoop, if_neg hc, ih hs]

/-- The loop stops at the first hyphen. -/
theorem commandLoop_first (mid : UInt64) {a : CStr} (rest : CStr) (h : ch '-' ∉ a) :
    commandLoop mid (a ++ ch '-' :: rest) = command mid rest := by
  induction a with
  | nil => rw [List.nil_append, commandLoop, if_pos rfl]
  | cons c a ih =>
      obtain ⟨hc, ha⟩ := not_or.mp (mt List.mem_cons.mpr h)
      rw [List.cons_append, commandLoop, if_neg hc, ih ha]

/-- With a hyphen in the message the loop never answers that it is unknown. -/
theorem commandLoop_present (mid : UInt64) {s : CStr} (h : ch '-' ∈ s) :
    commandLoop mid s ≠ .ok (netconCmdUnknown, []) := by
  rcases Cut.forall_or_first (· ≠ ch '-') s with hall | ⟨a, x, b, rfl, ha, hx⟩
  · exact absurd rfl (hall _ h)
  · obtain rfl := not_not.mp hx
    rw [commandLoop_first mid b fun hmem => ha _ hmem rfl]
    intro heq
    cases b with
    | nil => cases heq
    | cons cmd value =>
        have hres : netconCmdMatched = netconCmdUnknown := congrArg Prod.fst (Except.ok.inj heq)
        exact absurd hres (by decide)

/-! ## The number -/

/-- A sign is taken in front of a digit, and nothing else is. -/
theorem sign_append {signs : CStr} {d : UInt8} (rest : CStr)
    (hsigns : signs ∈ [[], [ch '-'], [ch '+']]) (hd : isdigit d = true) :
    sign (signs ++ d :: rest) = (signs == [ch '-'], d :: rest) := by
  obtain ⟨hminus, hplus⟩ := not_sign_of_isdigit hd
  simp only [List.mem_cons, List.not_mem_nil, or_false] at hsigns
  rcases hsigns with rfl | rfl | rfl
  · simp [sign, hminus, hplus]
  · rfl
  · rfl

/-- What `sign` leaves out is a sign. -/
theorem sign_splits (s : CStr) :
    ∃ signs ∈ [[], [ch '-'], [ch '+']], s = signs ++ (sign s).2 := by
  cases s with
  | nil => exact ⟨[], List.mem_cons_self, rfl⟩
  | cons c rest =>
      by_cases hminus : c = ch '-'
      · refine ⟨[ch '-'], by simp, ?_⟩
        rw [hminus]
        rfl
      · by_cases hplus : c = ch '+'
        · refine ⟨[ch '+'], by simp, ?_⟩
          rw [hplus]
          rfl
        · exact ⟨[], List.mem_cons_self, by simp [sign, hminus, hplus]⟩

theorem scanUlong_eq_none_iff (s : CStr) :
    scanUlong s = none ↔ (sign (s.dropWhile isspace)).2.takeWhile isdigit = [] := by
  unfold scanUlong
  by_cases hnone : (sign (s.dropWhile isspace)).2.takeWhile isdigit = []
  · simp [hnone]
  · simp only [hnone, if_false, iff_false]
    split
    · exact Option.some_ne_none _
    · exact Option.some_ne_none _

/-- White space in front of a sign and a digit is skipped. -/
theorem skip_space {before signs : CStr} {d : UInt8} (rest : CStr)
    (hbefore : ∀ x ∈ before, isspace x = true) (hsigns : signs ∈ [[], [ch '-'], [ch '+']])
    (hd : isdigit d = true) :
    (before ++ (signs ++ d :: rest)).dropWhile isspace = signs ++ d :: rest := by
  have hdigit : ¬ isspace d = true := by rw [isspace_of_isdigit hd]; exact Bool.false_ne_true
  simp only [List.mem_cons, List.not_mem_nil, or_false] at hsigns
  rcases hsigns with rfl | rfl | rfl
  · exact Cut.dropWhile_first hbefore hdigit
  · exact Cut.dropWhile_first hbefore (by decide)
  · exact Cut.dropWhile_first hbefore (by decide)

theorem take_mid (t : CStr) : (str "mid:" ++ t).take 4 = str "mid:" :=
  List.take_left' rfl

theorem drop_mid (t : CStr) : (str "mid:" ++ t).drop 4 = t :=
  List.drop_left' rfl

/-- `sscanf` matches exactly the messages that start with `mid:` and a number. -/
theorem sscanfMid_ne_none_iff (s : CStr) : sscanfMid s ≠ none ↔ NumberAhead s := by
  constructor
  · intro h
    by_cases hmid : s.take 4 = str "mid:"
    · rw [sscanfMid, if_pos hmid, ne_eq, scanUlong_eq_none_iff] at h
      obtain ⟨signs, hsigns, hsplit⟩ := sign_splits ((s.drop 4).dropWhile isspace)
      cases hnumber : (sign ((s.drop 4).dropWhile isspace)).2 with
      | nil => rw [hnumber] at h; exact absurd rfl h
      | cons d rest =>
          rw [hnumber] at h hsplit
          have hd : isdigit d = true := by
            by_contra hd
            exact h (List.takeWhile_cons_of_neg hd)
          refine ⟨(s.drop 4).takeWhile isspace, signs, d, rest, ?_, ?_, hsigns, hd⟩
          · rw [← hsplit, List.takeWhile_append_dropWhile, ← hmid, List.take_append_drop]
          · exact fun x hx => List.mem_takeWhile_imp hx
    · rw [sscanfMid, if_neg hmid] at h
      exact absurd rfl h
  · rintro ⟨before, signs, d, rest, rfl, hbefore, hsigns, hd⟩
    rw [sscanfMid, if_pos (take_mid _), drop_mid, ne_eq, scanUlong_eq_none_iff,
      skip_space rest hbefore hsigns hd, sign_append rest hsigns hd,
      List.takeWhile_cons_of_pos hd]
    exact List.cons_ne_nil _ _

/-! ## Messages of the documented form -/

/-- The digits end at the white space or the hyphen behind them. -/
theorem Message.takeWhile_digits (m : Message) :
    (m.digits ++ (m.behind ++ ch '-' :: m.cmd :: m.value)).takeWhile isdigit = m.digits := by
  rw [List.takeWhile_append_of_pos m.digits_digit]
  cases hbehind : m.behind with
  | nil => rw [List.nil_append, List.takeWhile_cons_of_neg (by decide), List.append_nil]
  | cons c rest =>
      have hc : isdigit c = false :=
        isdigit_of_isspace (m.behind_space c (by rw [hbehind]; exact List.mem_cons_self))
      rw [List.cons_append, List.takeWhile_cons_of_neg (by rw [hc]; exact Bool.false_ne_true),
        List.append_nil]

/-- What is left behind `mid:` and white space starts with the identifier. -/
theorem Message.skip_text (m : Message) :
    (m.text.drop 4).dropWhile isspace =
      m.digits ++ (m.behind ++ ch '-' :: m.cmd :: m.value) := by
  obtain ⟨d, ds, hdigits⟩ := List.exists_cons_of_ne_nil m.digits_ne_nil
  have hd : isdigit d = true := m.digits_digit d (by rw [hdigits]; exact List.mem_cons_self)
  rw [Message.text, drop_mid, hdigits, List.cons_append]
  exact skip_space _ m.before_space List.mem_cons_self hd

theorem Message.id_text (m : Message) :
    digitsValue ((m.text.drop 4).dropWhile isspace) = m.id := by
  rw [m.skip_text, Message.id, digitsValue, digitsValue, m.takeWhile_digits,
    List.takeWhile_eq_self_iff.mpr m.digits_digit]

/-- The number `sscanf` reads: the identifier, or the greatest one there is. -/
theorem Message.sscanfMid_text (m : Message) :
    sscanfMid m.text =
      some (if 18446744073709551615 < m.id then 18446744073709551615 else UInt64.ofNat m.id) := by
  have hsign : sign ((m.text.drop 4).dropWhile isspace) =
      (false, (m.text.drop 4).dropWhile isspace) := by
    obtain ⟨d, ds, hdigits⟩ := List.exists_cons_of_ne_nil m.digits_ne_nil
    have hd : isdigit d = true := m.digits_digit d (by rw [hdigits]; exact List.mem_cons_self)
    rw [m.skip_text, hdigits]
    exact sign_append _ List.mem_cons_self hd
  have hdigits : ((m.text.drop 4).dropWhile isspace).takeWhile isdigit ≠ [] := by
    rw [m.skip_text, m.takeWhile_digits]
    exact m.digits_ne_nil
  have hmid : m.text.take 4 = str "mid:" := take_mid _
  rw [sscanfMid, if_pos hmid]
  simp only [scanUlong, hsign, m.id_text, if_neg hdigits, Bool.false_eq_true, if_false]
  split
  · rfl
  · rfl

/-- The first hyphen of a message is the one in front of its command. -/
theorem Message.commandLoop_text (m : Message) (mid : UInt64) :
    commandLoop mid m.text =
      .ok (netconCmdMatched, [⟨mid, getFunction m.cmd, m.value.dropWhile isspace⟩]) := by
  have hfree : ch '-' ∉ str "mid:" ++ (m.before ++ (m.digits ++ m.behind)) := by
    simp only [List.mem_append, not_or]
    refine ⟨by decide, fun h => ?_, fun h => ?_, fun h => ?_⟩
    · exact not_hyphen_of_isspace (m.before_space _ h) rfl
    · exact (not_sign_of_isdigit (m.digits_digit _ h)).1 rfl
    · exact not_hyphen_of_isspace (m.behind_space _ h) rfl
  have htext : m.text =
      (str "mid:" ++ (m.before ++ (m.digits ++ m.behind))) ++ ch '-' :: m.cmd :: m.value := by
    simp only [Message.text, List.append_assoc]
  rw [htext, commandLoop_first mid _ hfree, command]

/-- What the parser makes of a message of the documented form. -/
theorem Message.runtimeConfigurationCb_text (m : Message) :
    runtimeConfigurationCb m.text =
      .ok (netconCmdMatched,
        [⟨if 18446744073709551615 < m.id then 18446744073709551615 else UInt64.ofNat m.id,
          getFunction m.cmd, m.value.dropWhile isspace⟩]) := by
  rw [runtimeConfigurationCb, m.sscanfMid_text]
  exact m.commandLoop_text _

/-- What it makes of a message with a number but without a hyphen, and of one
    without a number. -/
theorem runtimeConfigurationCb_unknown_iff (s : CStr) :
    runtimeConfigurationCb s = .ok (netconCmdUnknown, []) ↔ ¬ NumberAhead s ∨ ch '-' ∉ s := by
  have hnumber := sscanfMid_ne_none_iff s
  unfold runtimeConfigurationCb
  cases hmid : sscanfMid s with
  | none =>
      rw [hmid] at hnumber
      simp only [true_iff]
      exact .inl fun h => hnumber.mpr h rfl
  | some mid =>
      have hahead : NumberAhead s := hnumber.mp (by rw [hmid]; exact Option.some_ne_none _)
      simp only [hahead, not_true_eq_false, false_or]
      by_cases hhyphen : ch '-' ∈ s
      · exact iff_of_false (commandLoop_present mid hhyphen) (not_not.mpr hhyphen)
      · exact iff_of_true (commandLoop_absent mid hhyphen) hhyphen

/-- It reads past the NUL exactly when the first hyphen ends the message. -/
theorem runtimeConfigurationCb_error_iff (s : CStr) :
    runtimeConfigurationCb s = .error .other ↔
      NumberAhead s ∧ ∃ a, ch '-' ∉ a ∧ s = a ++ [ch '-'] := by
  have hnumber := sscanfMid_ne_none_iff s
  unfold runtimeConfigurationCb
  cases hmid : sscanfMid s with
  | none =>
      have hahead : ¬ NumberAhead s := fun h => hnumber.mpr h hmid
      exact iff_of_false (fun heq => by cases heq) fun h => hahead h.1
  | some mid =>
      have hahead : NumberAhead s := hnumber.mp (by rw [hmid]; exact Option.some_ne_none _)
      simp only [hahead, true_and]
      constructor
      · intro h
        rcases Cut.forall_or_first (· ≠ ch '-') s with hall | ⟨a, x, b, rfl, ha, hx⟩
        · rw [commandLoop_absent mid fun hmem => hall _ hmem rfl] at h
          cases h
        · obtain rfl := not_not.mp hx
          have hfree : ch '-' ∉ a := fun hmem => ha _ hmem rfl
          rw [commandLoop_first mid b hfree] at h
          cases b with
          | nil => exact ⟨a, hfree, rfl⟩
          | cons cmd value => cases h
      · rintro ⟨a, hfree, rfl⟩
        exact commandLoop_first mid [] hfree

/-- The identifier called with is the one in the message exactly when it fits. -/
theorem Message.id_fits_iff (m : Message) :
    (if 18446744073709551615 < m.id then 18446744073709551615 else UInt64.ofNat m.id).toNat = m.id ↔
      m.id < 18446744073709551616 := by
  by_cases hbig : 18446744073709551615 < m.id
  · rw [if_pos hbig]
    have hlit : (18446744073709551615 : UInt64).toNat = 18446744073709551615 := by decide
    rw [hlit]
    omega
  · rw [if_neg hbig, UInt64.toNat_ofNat']
    omega

/-- **THE PARSER TAKES EXACTLY ITS DOCUMENTED FORM** for messages of that form with
    an identifier of 64 bits, and for messages of another form that do not start
    with `mid:` and a number or have no hyphen: on these, and on no others. -/
theorem parsesExactly_iff (s : CStr) :
    ParsesExactly s ↔
      (∃ m : Message, m.text = s ∧ m.id < 18446744073709551616) ∨
        ((∀ m : Message, m.text ≠ s) ∧ (¬ NumberAhead s ∨ ch '-' ∉ s)) := by
  by_cases hform : ∃ m : Message, m.text = s
  · obtain ⟨m, rfl⟩ := hform
    constructor
    · intro h
      obtain ⟨mid, hmid, hcall⟩ := h.1 m rfl
      rw [m.runtimeConfigurationCb_text] at hcall
      have hmid' := congrArg ConfigCall.mid
        (List.cons.inj (Prod.mk.inj (Except.ok.inj hcall)).2).1
      exact .inl ⟨m, rfl, m.id_fits_iff.mp ((congrArg UInt64.toNat hmid').trans hmid)⟩
    · rintro (⟨m', htext, hfits⟩ | ⟨hnone, -⟩)
      · have hid : m'.id = m.id := by rw [← m'.id_text, ← m.id_text, htext]
        refine ⟨fun m₁ h₁ => ?_, fun hnone => absurd rfl (hnone m)⟩
        -- another reading of the message is of the same identifier
        have hid₁ : m₁.id = m.id := by rw [← m₁.id_text, ← m.id_text, h₁]
        refine ⟨_, m₁.id_fits_iff.mpr (by omega), ?_⟩
        rw [← h₁]
        exact m₁.runtimeConfigurationCb_text
      · exact absurd rfl (hnone m)
  · have hnone : ∀ m : Message, m.text ≠ s := fun m h => hform ⟨m, h⟩
    constructor
    · intro h
      exact .inr ⟨hnone, (runtimeConfigurationCb_unknown_iff s).mp (h.2 hnone)⟩
    · rintro (⟨m, htext, -⟩ | ⟨-, hunknown⟩)
      · exact absurd htext (hnone m)
      · exact ⟨fun m htext => absurd htext (hnone m),
          fun _ => (runtimeConfigurationCb_unknown_iff s).mpr hunknown⟩

/-- Nothing follows the hyphen: the command is read from the NUL, and its value
    from behind it. -/
theorem hyphen_last_reads_on : ¬ ∀ s, ParsesExactly s := by
  intro h
  have hread : runtimeConfigurationCb (str "mid: 5 -") = .error .other := rfl
  obtain ⟨hform, hnone⟩ := h (str "mid: 5 -")
  by_cases hm : ∃ m : Message, m.text = str "mid: 5 -"
  · obtain ⟨m, htext⟩ := hm
    obtain ⟨mid, -, hcall⟩ := hform m htext
    rw [hread] at hcall
    cases hcall
  · have hcall := hnone fun m htext => hm ⟨m, htext⟩
    rw [hread] at hcall
    cases hcall

end Impd4e.RuntimeMessages
