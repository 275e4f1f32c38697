import Impd4e.ConfigFile
import Impd4e.RuntimeMessages
import Impd4e.StreamSegments

/-! # The two entrances of commands

    A command comes in as a line on standard input (`user_input_cb`) or as a
    message of the console (`connection_read`, which hands it to
    `runtime_configuration_cb`); both call the same configuration functions.

    The console trims the newline, standard input keeps it: `r_trim` is commented
    out there.  `entrancesAgree_iff` says what that leaves of their agreement. -/

namespace Impd4e.CommandEntrances

open Impd4e.CString Impd4e.CmdLine Impd4e.ConfigHandler Impd4e.ConfigFile
open Impd4e.RuntimeMessages
open Impd4e.Console (Connection connectionRead netconCmdMatched netconCmdUnknown newline
  terminated trim_terminated strncpy_self executeLoop)

/-! ## Standard input -/

/-- `isalpha`, in the C locale. -/
def isalpha (c : UInt8) : Bool := (65 ≤ c && c ≤ 90) || (97 ≤ c && c ≤ 122)

/-- What `user_input_cb` comes to. -/
inductive UserInput where
  | nothing
  | exit
  | ignored
  | call (call : ConfigCall)
  deriving DecidableEq, Repr

/-- `user_input_cb`, with what standard input holds. -/
def userInputCb (stdin : List UInt8) : UserInput :=
  match (fgets 129 [] stdin).head? with
  | none => .nothing
  | some buffer =>
      if (cstr buffer).take 4 = str "exit" ∨ (cstr buffer).take 4 = str "quit" then .exit
      else
        match (cstr buffer).dropWhile fun c => !isalpha c with
        | [] => .ignored
        | cmd :: b => .call ⟨1, getFunction cmd, b.dropWhile isspace⟩

/-! ## The console -/

/-- What the callbacks make of the bytes of a connection, `runtime_configuration_cb`
    being the one that is registered. -/
def consoleCalls (answer : Nat → Int) (conn : Connection) :
    Option (List (Except Undefined (Int × List ConfigCall))) :=
  (connectionRead [runtimeConfigurationCb] answer conn).map fun r =>
    r.2.offered.map fun cb => cb r.2.msg

/-! ## The same command at both -/

/-- `isprint`, in the C locale. -/
def isprint (c : UInt8) : Bool := 32 ≤ c && c ≤ 126

/-- A command and its argument, as they are entered; the line `-c v` with its
    newline fits the buffer of standard input. -/
structure Entry where
  cmd : UInt8
  value : CStr
  cmd_mem : cmd ∈ configurationFct.map CfgFct.cmd
  cmd_alpha : isalpha cmd = true
  value_print : ∀ x ∈ value, isprint x = true
  first_solid : ∀ x, value.head? = some x → isspace x = false
  last_solid : ∀ x, value.getLast? = some x → isspace x = false
  fits : value.length ≤ 124

/-- `-c v` -/
def Entry.line (e : Entry) : CStr := ch '-' :: e.cmd :: ch ' ' :: e.value

/-- What a call leaves of the probe. -/
def configuration [Libev] (call : ConfigCall) (libpcap : FilterOracle) (p : Probe) :
    Except Undefined Probe :=
  (call.fct.call libpcap call.msg p).map Prod.fst

/-- Typed on standard input and received on the console, the command calls the
    same function with the same argument, and leaves the same configuration. -/
def EntrancesAgree [Libev] (e : Entry) : Prop :=
  ∀ more answer conn, conn.inBuf = terminated (str "mid: 1 " ++ e.line) →
    ∃ typed received, userInputCb (terminated e.line ++ more) = .call typed ∧
      consoleCalls answer conn = some [.ok (netconCmdMatched, [received])] ∧
      typed.fct = received.fct ∧ typed.msg = received.msg ∧
      ∀ libpcap p, configuration typed libpcap p = configuration received libpcap p

/-! ## Characters -/

theorem iscntrl_of_isprint {c : UInt8} (h : isprint c = true) : iscntrl c = false := by
  simp [isprint, iscntrl, UInt8.le_iff_toNat_le, UInt8.lt_iff_toNat_lt, ← UInt8.toNat_inj] at *
  omega

theorem isprint_of_isalpha {c : UInt8} (h : isalpha c = true) : isprint c = true := by
  simp [isprint, isalpha, UInt8.le_iff_toNat_le] at *
  omega

theorem ne_of_isprint {c d : UInt8} (h : isprint c = true) (hd : isprint d = false) : c ≠ d := by
  rintro rfl
  rw [h] at hd
  cases hd

theorem Entry.line_print (e : Entry) : ∀ x ∈ e.line, isprint x = true := by
  have hcmd := isprint_of_isalpha e.cmd_alpha
  intro x hx
  simp only [Entry.line, List.mem_cons] at hx
  rcases hx with rfl | rfl | rfl | hx
  · decide
  · exact hcmd
  · decide
  · exact e.value_print x hx

/-! ## Reading a line -/

/-- A line that fits is read as a whole. -/
theorem fgets_line {size : Nat} {text : CStr} (more : List UInt8) (hfree : newline ∉ text) :
    ∀ line : List UInt8, line.length + text.length + 2 ≤ size →
      fgets size line (terminated text ++ more) =
        (line ++ terminated text) :: fgets size [] more := by
  induction text with
  | nil => 
      intro line _
      show fgets size line (newline :: more) = _
      rw [fgets, if_pos (.inl rfl)]
      rfl
  | cons c text ih =>
      intro line hfits
      obtain ⟨hc, htext⟩ := not_or.mp (mt List.mem_cons.mpr hfree)
      rw [List.length_cons] at hfits
      have hopen : ¬ (c = 10 ∨ line.length + 2 = size) := by
        rintro (rfl | hfull)
        · exact hc rfl
        · omega
      show fgets size line (c :: (terminated text ++ more)) = _
      rw [fgets, if_neg hopen, ih htext (line ++ [c]) (by simp; omega)]
      simp [terminated]

theorem Entry.read (e : Entry) (more : List UInt8) :
    (fgets 129 [] (terminated e.line ++ more)).head? = some (terminated e.line) := by
  have hfree : newline ∉ e.line :=
    fun hmem => ne_of_isprint (e.line_print _ hmem) (by decide) rfl
  have hlen : e.line.length = e.value.length + 3 := rfl
  have hfits := e.fits
  rw [fgets_line more hfree [] (by rw [hlen, List.length_nil]; omega)]
  rfl

/-- The line has no NUL that could end it. -/
theorem Entry.cstr_line (e : Entry) : cstr (terminated e.line) = terminated e.line := by
  refine List.takeWhile_eq_self_iff.mpr fun x hx => decide_eq_true ?_
  rcases List.mem_append.mp hx with hx | hx
  · exact ne_of_isprint (e.line_print x hx) (by decide)
  · rw [List.mem_singleton.mp hx]
    decide

/-! ## What the two entrances make of an entry -/

/-- What standard input calls with: the argument and its newline, unless there is
    nothing but the newline. -/
def Entry.typed (e : Entry) : CStr := if e.value = [] then [] else terminated e.value

/-- No white space is skipped in front of an argument. -/
theorem Entry.skip_solid (e : Entry) (h : e.value ≠ []) (behind : CStr) :
    (e.value ++ behind).dropWhile isspace = e.value ++ behind := by
  obtain ⟨c, rest, hvalue⟩ := List.exists_cons_of_ne_nil h
  have hc := e.first_solid c (by rw [hvalue]; rfl)
  rw [hvalue]
  exact List.dropWhile_cons_of_neg (by rw [hc]; exact Bool.false_ne_true)

/-- The argument behind its blank, with the newline. -/
theorem Entry.skip_typed (e : Entry) :
    (ch ' ' :: terminated e.value).dropWhile isspace = e.typed := by
  rw [List.dropWhile_cons_of_pos (by decide), Entry.typed]
  by_cases hvalue : e.value = []
  · rw [if_pos hvalue, hvalue]
    rfl
  · rw [if_neg hvalue]
    exact e.skip_solid hvalue [newline]

/-- The argument behind its blank, without it. -/
theorem Entry.skip_value (e : Entry) : (ch ' ' :: e.value).dropWhile isspace = e.value := by
  rw [List.dropWhile_cons_of_pos (by decide)]
  by_cases hvalue : e.value = []
  · rw [hvalue]
    rfl
  · have hskip := e.skip_solid hvalue []
    rwa [List.append_nil] at hskip

theorem userInputCb_entry (e : Entry) (more : List UInt8) :
    userInputCb (terminated e.line ++ more) = .call ⟨1, getFunction e.cmd, e.typed⟩ := by
  have hexit : ¬ ((terminated e.line).take 4 = str "exit" ∨
      (terminated e.line).take 4 = str "quit") := by
    have hhead : ((terminated e.line).take 4).head? = some (ch '-') := rfl
    rintro (heq | heq)
    · rw [heq] at hhead
      exact absurd hhead (by decide)
    · rw [heq] at hhead
      exact absurd hhead (by decide)
  have halpha : ¬ (!isalpha e.cmd) = true := by rw [e.cmd_alpha]; decide
  have hletter : ((terminated e.line).dropWhile fun c => !isalpha c) =
      e.cmd :: ch ' ' :: terminated e.value := by
    show (ch '-' :: e.cmd :: ch ' ' :: terminated e.value).dropWhile _ = _
    rw [List.dropWhile_cons_of_pos (by decide),
      List.dropWhile_cons_of_neg (p := fun c => !isalpha c) halpha]
  rw [userInputCb, e.read more]
  simp only [e.cstr_line, if_neg hexit, hletter, e.skip_typed]

/-- The console's message in its documented form. -/
def Entry.message (e : Entry) : Message where
  before := [ch ' ']
  digits := [ch '1']
  behind := [ch ' ']
  cmd := e.cmd
  value := ch ' ' :: e.value
  before_space := List.all_eq_true.mp (by decide)
  digits_ne_nil := List.cons_ne_nil _ _
  digits_digit := List.all_eq_true.mp (by decide)
  behind_space := List.all_eq_true.mp (by decide)

theorem Entry.message_text (e : Entry) : e.message.text = str "mid: 1 " ++ e.line := rfl

theorem Entry.message_plain (e : Entry) :
    ∀ x ∈ str "mid: 1 " ++ e.line, iscntrl x = false := by
  have hmid : (str "mid: 1 ").all isprint = true := by decide
  intro x hx
  rcases List.mem_append.mp hx with hx | hx
  · exact iscntrl_of_isprint (List.all_eq_true.mp hmid x hx)
  · exact iscntrl_of_isprint (e.line_print x hx)

/-- The console gets the message without its newline, and calls with the argument. -/
theorem consoleCalls_entry (e : Entry) (answer : Nat → Int) (conn : Connection)
    (h : conn.inBuf = terminated (str "mid: 1 " ++ e.line)) :
    consoleCalls answer conn =
      some [.ok (netconCmdMatched, [⟨1, getFunction e.cmd, e.value⟩])] := by
  have hplain := e.message_plain
  have hnul : ∀ c ∈ terminated (str "mid: 1 " ++ e.line), c ≠ 0 := by
    intro c hc
    rcases List.mem_append.mp hc with hc | hc
    · rintro rfl
      exact absurd (hplain 0 hc) (by decide)
    · rw [List.mem_singleton.mp hc]
      decide
  have hcall : runtimeConfigurationCb (str "mid: 1 " ++ e.line) =
      .ok (netconCmdMatched, [⟨1, getFunction e.cmd, e.value⟩]) := by
    have hid : e.message.id = 1 := (by decide : digitsValue [ch '1'] = 1)
    have hvalue : e.message.value.dropWhile isspace = e.value := e.skip_value
    rw [← e.message_text, e.message.runtimeConfigurationCb_text, hid, hvalue]
    rfl
  rw [consoleCalls, connectionRead, h, strncpy_self hnul,
    trim_terminated hplain (by simp [Entry.line])]
  simp [executeLoop, hcall, netconCmdMatched, netconCmdUnknown]

/-! ## Agreement -/

theorem Entry.typed_eq_value_iff (e : Entry) : e.typed = e.value ↔ e.value = [] := by
  rw [Entry.typed]
  by_cases hvalue : e.value = []
  · simp [hvalue]
  · simp [hvalue, terminated]

/-- Where the entrances agree, the newline is not part of the argument. -/
theorem EntrancesAgree.typed_eq [Libev] {e : Entry} (h : EntrancesAgree e) : e.typed = e.value := by
  obtain ⟨typed, received, htyped, hreceived, -, hmsg, -⟩ :=
    h [] (fun _ => netconCmdUnknown) ⟨0, none, _⟩ rfl
  rw [userInputCb_entry] at htyped
  rw [consoleCalls_entry e _ _ rfl] at hreceived
  obtain rfl := UserInput.call.inj htyped
  have hcalls := Except.ok.inj (List.cons.inj (Option.some.inj hreceived)).1
  obtain rfl := (List.cons.inj (Prod.mk.inj hcalls).2).1
  exact hmsg

/-- **THE TWO ENTRANCES AGREE** exactly on a command without an argument. -/
theorem entrancesAgree_iff [Libev] (e : Entry) : EntrancesAgree e ↔ e.value = [] := by
  rw [← e.typed_eq_value_iff]
  constructor
  · exact EntrancesAgree.typed_eq
  · intro h more answer conn hconn
    refine ⟨⟨1, getFunction e.cmd, e.typed⟩, ⟨1, getFunction e.cmd, e.value⟩,
      userInputCb_entry e more, consoleCalls_entry e answer conn hconn, rfl, h, ?_⟩
    intro libpcap p
    simp only [configuration, h]

/-- `-t ls` -/
def templateLs : Entry where
  cmd := ch 't'
  value := str "ls"
  cmd_mem := by decide
  cmd_alpha := by decide
  value_print := List.all_eq_true.mp (by decide)
  first_solid := by
    rintro x ⟨⟩
    rfl
  last_solid := by
    rintro x ⟨⟩
    rfl
  fits := by decide

section Documented

open scoped Libev.Repeating

/-- Standard input asks for the template `ls` with a newline behind it. -/
theorem template_entrances_differ : ¬ ∀ e, EntrancesAgree e := by
  intro h
  exact absurd (h templateLs).typed_eq (by decide)

end Documented

/-! ## Templates -/

/-- No template name has a newline in it. -/
theorem parseTemplate_terminated (e : Entry) (h : e.value ≠ []) :
    parseTemplate (terminated e.value) = none := by
  have hskip : (terminated e.value).dropWhile isspace = terminated e.value :=
    e.skip_solid h [newline]
  have hnames : (templateNames.all fun t => !(t.1.map tolower).contains newline) = true := by
    decide
  have hnone : ∀ t ∈ templateNames, ¬ strcasecmpEq (terminated e.value) t.1 = true := by
    intro t ht hsame
    have hlower : (terminated e.value).map tolower = t.1.map tolower := eq_of_beq hsame
    have hmem : newline ∈ t.1.map tolower := by
      rw [← hlower, terminated, List.map_append]
      exact List.mem_append_right _ List.mem_cons_self
    have hfree := List.all_eq_true.mp hnames t ht
    rw [List.contains_iff_mem.mpr hmem] at hfree
    cases hfree
  rw [parseTemplate, hskip, List.find?_eq_none.mpr hnone]
  rfl

/-- Whatever template is asked for on standard input, none is set; the console sets
    the one it is asked for. -/
theorem template_typed (e : Entry) (p : Probe) {tId : Nat} (h : parseTemplate e.value = some tId) :
    (configurationSetTemplate e.typed p).1 = p ∧
      (configurationSetTemplate e.value p).1.options.templateID = tId := by
  have hne : e.value ≠ [] := by
    intro hnil
    have hunknown : parseTemplate [] = none := by decide
    rw [hnil, hunknown] at h
    cases h
  constructor
  · rw [Entry.typed, if_neg hne, configurationSetTemplate, parseTemplate_terminated e hne]
  · rw [configurationSetTemplate, h]

end Impd4e.CommandEntrances
