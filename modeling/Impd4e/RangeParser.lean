import Impd4e.CString
import Impd4e.Constants

/-! # The selection option

    `parseRange` of hash.c, which turns a list of byte ranges into the chain
    `rSel`, and `parseSelFunction` of settings.c, which looks up the keyword in
    front of the list. -/

namespace Impd4e.RangeParser

open Impd4e.CString

abbrev intMax : Nat := 2147483647

/-- The separators `strcspn` looks for: `,` `-` `+` `<` `>` `:` `^`. -/
def rangeSeparators : CStr := [ch ',', ch '-', ch '+', ch '<', ch '>', ch ':', ch '^']

/-- The switch on the last separator; `none` is an overflow of `int`.  The
    truncated subtraction is the check behind the switch, which raises a
    negative length to 0. -/
def applySeparator (separator : UInt8) (range : RangeSelect) (value len : Nat) :
    Option RangeSelect :=
  if separator = ch '-' then
    let length := value + 1 - range.offset
    if length ≤ intMax then some { range with length := length } else none
  else if separator = ch ':' ∨ separator = ch '+' then
    some { range with length := value }
  else if separator = ch '[' ∨ separator = ch '<' then
    some { range with length := value - range.offset }
  else if separator = ch ']' ∨ separator = ch '>' then
    let length := value - range.offset
    if range.offset + 1 ≤ intMax then some ⟨range.offset + 1, length⟩ else none
  else if separator = ch '^' then
    let offset := range.offset + 1
    if offset ≤ intMax then some ⟨offset, value - offset⟩ else none
  else
    -- a new node; the old `*p` does not matter
    some ⟨value, if len = 0 then 0 else 1⟩

/-- The loop of `parseRange`: the nodes before `*p`, the node `*p`, the last
    separator and the rest of the argument. -/
def parseRangeLoop (chain : List RangeSelect) (range : RangeSelect) (separator : UInt8)
    (arg : CStr) : Option (List RangeSelect) :=
  let len := strcspn arg rangeSeparators
  -- a negative number counts as 0
  let value := (atoi arg).toNat
  match applySeparator separator range value len with
  | none => none
  | some range =>
      match _h : arg.drop len with
      | [] => some (chain ++ [range])
      | c :: next =>
          if c = ch ',' then parseRangeLoop (chain ++ [range]) range c next
          else parseRangeLoop chain range c next
termination_by arg.length
decreasing_by
  all_goals
    have hlen := congrArg List.length _h
    rw [List.length_drop, List.length_cons] at hlen
    omega

/-- `parseRange`: the chain it leaves in `rSel`. -/
def parseRange (arg : CStr) : Option (List RangeSelect) :=
  parseRangeLoop [] ⟨0, 0⟩ 0 arg

/-- The table of `parseSelFunction`. -/
def selfunctions : List (CStr × SelectionFunction) :=
  [(str "REC8", .rec8), (str "IP", .onlyNet), (str "IP+TP", .uTcpAndNet),
   (str "PACKET", .packet), (str "RAW", .raw), (str "LAST", .last), (str "LINK", .link),
   (str "NET", .net), (str "TRANS", .trans), (str "PAYLOAD", .payload),
   (str "SELECT", .raw)]

/-- The loop over the table: every keyword that fits installs its function and
    parses what follows it. -/
def selfunctionLoop (argString : CStr) :
    List (CStr × SelectionFunction) → Options → Option Options
  | [], options => some options
  | (hstring, selfunction) :: table, options =>
      if strncasecmpEq argString hstring hstring.length then
        match parseRange (argString.drop hstring.length) with
        | none => none
        | some chain =>
            selfunctionLoop argString table
              { options with selectionFunction := selfunction, rSel := chain }
      else selfunctionLoop argString table options

def parseSelFunction (argString : CStr) (options : Options) : Option Options :=
  selfunctionLoop argString selfunctions options

/-- `RAW` is the only keyword that fits an argument starting with it. -/
theorem parseSelFunction_raw (list : CStr) (options : Options) :
    parseSelFunction (str "RAW" ++ list) options =
      (parseRange list).map fun chain =>
        { options with selectionFunction := .raw, rSel := chain } := by
  show (match parseRange list with | none => none | some chain => _) = _
  cases parseRange list with
  | none => rfl
  | some chain => rfl

end Impd4e.RangeParser
