import Mathlib.Data.Nat.Notation

/-! # C strings

    Byte strings without their terminating NUL, and the functions of the C
    library that the probe's parsers call, in the C locale. -/

namespace Impd4e.CString

/-- The characters of a C string, up to the NUL. -/
abbrev CStr := List UInt8

/-- A character constant. -/
def ch (c : Char) : UInt8 := c.toUInt8

/-- A string constant. -/
def str (s : String) : CStr := s.toList.map ch

def isspace (c : UInt8) : Bool := c == 32 || (9 ≤ c && c ≤ 13)

def isdigit (c : UInt8) : Bool := 48 ≤ c && c ≤ 57

def iscntrl (c : UInt8) : Bool := c < 32 || c == 127

def tolower (c : UInt8) : UInt8 := if 65 ≤ c && c ≤ 90 then c + 32 else c

/-- `strncpy` of `len` bytes: up to the first NUL, then padded with NULs. -/
def strncpy (src : List UInt8) (len : Nat) : List UInt8 :=
  let text := (src.take len).takeWhile (· ≠ 0)
  text ++ List.replicate (len - text.length) 0

/-- Does `strncasecmp` answer 0? -/
def strncasecmpEq (s t : CStr) (n : Nat) : Bool :=
  (s.take n).map tolower == (t.take n).map tolower

/-- Does `strcasecmp` answer 0? -/
def strcasecmpEq (s t : CStr) : Bool := s.map tolower == t.map tolower

def strcspn (s reject : CStr) : Nat :=
  (s.takeWhile fun c => !reject.contains c).length

/-- The number the digits at the start of a string make. -/
def digitsValue (s : CStr) : Nat :=
  (s.takeWhile isdigit).foldl (fun value c => value * 10 + (c.toNat - 48)) 0

/-- `strtol` in base 10, of a 64-bit `long`. -/
def strtol (s : CStr) : Int :=
  match s.dropWhile isspace with
  | [] => 0
  | c :: t =>
      if c = ch '-' then max (-(digitsValue t : Int)) (-9223372036854775808)
      else if c = ch '+' then min (digitsValue t : Int) 9223372036854775807
      else min (digitsValue (c :: t) : Int) 9223372036854775807

/-- `atoi`: the conversion of `strtol` to `int`. -/
def atoi (s : CStr) : Int := (strtol s).bmod 4294967296

end Impd4e.CString
