import Impd4e.CString
import Impd4e.Lib.Binary64

/-! # Numbers in C strings

    `strtol` and `strtoll` with base 0, `strtod` and `atof`, in the C locale:
    white space, a sign, and the longest text that is a number.  `none` where
    there is none; the functions then answer 0. -/

namespace Impd4e.CString

open Binary64

/-- A digit of any base up to 16. -/
def digitValue (c : UInt8) : Nat :=
  if isdigit c then c.toNat - 48
  else if 97 ≤ tolower c && tolower c ≤ 102 then (tolower c).toNat - 87
  else 16

/-- The digits a text begins with. -/
def digits (base : Nat) (s : CStr) : CStr := s.takeWhile fun c => digitValue c < base

def valueOf (base : Nat) (s : CStr) : Nat := s.foldl (fun value c => value * base + digitValue c) 0

/-- A sign, and what follows it. -/
def sign (s : CStr) : Bool × CStr :=
  match s with
  | [] => (false, [])
  | c :: rest =>
      if c = ch '-' then (true, rest) else if c = ch '+' then (false, rest) else (false, s)

/-- Does a hexadecimal digit follow `0x`? -/
def hexAhead (s : CStr) : Bool :=
  match s with
  | zero :: x :: d :: _ => zero == ch '0' && tolower x == ch 'x' && digitValue d < 16
  | _ => false

/-! ## Integers -/

/-- The base a text tells with base 0, and its digits. -/
def radix (s : CStr) : Nat × CStr :=
  if hexAhead s then (16, s.drop 2)
  else if s.head? = some (ch '0') then (8, s)
  else (10, s)

/-- The integer at the start of a string. -/
def integerAt (s : CStr) : Option Int :=
  let (negative, s) := sign (s.dropWhile isspace)
  let (base, s) := radix s
  if digits base s = [] then none
  else
    some (if negative then -(valueOf base (digits base s) : Int)
      else valueOf base (digits base s))

/-- `strtol(s, NULL, 0)` and `strtoll(s, NULL, 0)`: both of 64 bits. -/
def strtol0 (s : CStr) : Int :=
  max (-9223372036854775808) (min 9223372036854775807 ((integerAt s).getD 0))

/-- Conversion to `int`. -/
def toInt (n : Int) : Int := n.bmod 4294967296

/-! ## Floating point -/

/-- The exponent behind a mantissa, if one is written. -/
def exponentAt (marker : UInt8) (s : CStr) : Int :=
  match s with
  | [] => 0
  | c :: rest =>
      let (negative, s) := sign rest
      if tolower c = marker ∧ digits 10 s ≠ [] then
        if negative then -(valueOf 10 (digits 10 s) : Int) else valueOf 10 (digits 10 s)
      else 0

/-- A mantissa of one base with its exponent, of another. -/
def mantissaAt (base : Nat) (expBase : ℚ) (scale : Int) (marker : UInt8) (s : CStr) : Option ℚ :=
  let whole := digits base s
  let rest := s.drop whole.length
  let fraction := if rest.head? = some (ch '.') then digits base rest.tail else []
  let rest := if rest.head? = some (ch '.') then rest.drop (fraction.length + 1) else rest
  if whole = [] ∧ fraction = [] then none
  else some (valueOf base (whole ++ fraction) *
    expBase ^ (exponentAt marker rest - scale * fraction.length))

def negateDouble (negative : Bool) : Double → Double
  | .finite q => .finite (if negative then -q else q)
  | .infinite sign => .infinite (sign != negative)
  | .nan => .nan

/-- The floating-point number at the start of a string. -/
def doubleAt (s : CStr) : Option Double :=
  let (negative, s) := sign (s.dropWhile isspace)
  let found : Option Double :=
    if strncasecmpEq s (str "inf") 3 then some (.infinite false)
    else if strncasecmpEq s (str "nan") 3 then some .nan
    else if hexAhead s || (hexAhead (s.eraseIdx 2) && s[2]? == some (ch '.')) then
      (mantissaAt 16 2 4 (ch 'p') (s.drop 2)).map ofRat
    else (mantissaAt 10 10 1 (ch 'e') s).map ofRat
  found.map (negateDouble negative)

/-- `strtod(s, NULL)` and `atof(s)` -/
def strtod (s : CStr) : Double := (doubleAt s).getD (.finite 0)

end Impd4e.CString
