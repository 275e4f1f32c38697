import Mathlib.Data.List.Basic
import Impd4e.Constants
import Impd4e.CString

/-! # The hash functions

    `bobhash.c`, `hsieh.c`, `twmx.c`, the `calcHashValue_*` functions of `hash.c`
    over them, and `parseFunction`, which picks one for `-F` and for `-p`.

    What the source leaves to the machine is a parameter: the order of the bytes
    in a word, which only an aligned load of the mix function sees, whether the
    hash buffer is aligned, and whether a plain `char` has a sign. -/

namespace Impd4e.HashFunctions

open Impd4e.CString

/-- `ub4` and `uint32_t` -/
abbrev Ub4 := BitVec 32

/-- `const uint32_t initval` -/
def initval : Ub4 := 0x32545

/-- A byte as an unsigned word. -/
def ub4 (k : UInt8) : Ub4 := k.toBitVec.setWidth 32

/-- `k[0] + ((ub4)k[1]<<8) + ((ub4)k[2]<<16) + ((ub4)k[3]<<24)` -/
def word (k0 k1 k2 k3 : UInt8) : Ub4 :=
  ub4 k0 + (ub4 k1 <<< 8) + (ub4 k2 <<< 16) + (ub4 k3 <<< 24)

/-- A byte of the last, incomplete block; a `case` the `switch` does not reach
    adds nothing. -/
def lastByte (k : List UInt8) (i shift : Nat) : Ub4 :=
  match k[i]? with
  | none => 0
  | some b => ub4 b <<< shift

/-! ## bobhash.c -/

/-- The registers `a`, `b`, `c`. -/
@[ext]
structure Registers where
  a : Ub4
  b : Ub4
  c : Ub4
  deriving DecidableEq, Repr

/-- The macro `mix(a,b,c)`. -/
def mix (s : Registers) : Registers :=
  let a := (s.a - s.b - s.c) ^^^ (s.c >>> 13)
  let b := (s.b - s.c - a) ^^^ (a <<< 8)
  let c := (s.c - a - b) ^^^ (b >>> 13)
  let a := (a - b - c) ^^^ (c >>> 12)
  let b := (b - c - a) ^^^ (a <<< 16)
  let c := (c - a - b) ^^^ (b >>> 5)
  let a := (a - b - c) ^^^ (c >>> 3)
  let b := (b - c - a) ^^^ (a <<< 10)
  let c := (c - a - b) ^^^ (b >>> 15)
  ⟨a, b, c⟩

/-- The loop over the blocks of twelve bytes, and the bytes that are left. -/
def handleMost : List UInt8 → Registers → Registers × List UInt8
  | k0 :: k1 :: k2 :: k3 :: k4 :: k5 :: k6 :: k7 :: k8 :: k9 :: k10 :: k11 :: k, s =>
      handleMost k (mix ⟨s.a + word k0 k1 k2 k3, s.b + word k4 k5 k6 k7,
        s.c + word k8 k9 k10 k11⟩)
  | k, s => (s, k)

/-- The last 11 bytes; the first byte of `c` is reserved for the length. -/
def handleLast (length : Nat) (s : Registers) (k : List UInt8) : Registers :=
  let c := s.c + BitVec.ofNat 32 length
  let c := c + lastByte k 10 24 + lastByte k 9 16 + lastByte k 8 8
  let b := s.b + lastByte k 7 24 + lastByte k 6 16 + lastByte k 5 8 + lastByte k 4 0
  let a := s.a + lastByte k 3 24 + lastByte k 2 16 + lastByte k 1 8 + lastByte k 0 0
  mix ⟨a, b, c⟩

/-- `bobhash` of the `length` bytes at `k`. -/
def bobhash (k : List UInt8) (length : Nat) (initval : Ub4) : Ub4 :=
  let (s, rest) := handleMost (k.take length) ⟨0x9e3779b9, 0x9e3779b9, initval⟩
  (handleLast length s rest).c

/-- `BOB_Hash`, whose length is a `uint16_t`. -/
def bobHash (databuffer : List UInt8) (databufferlength : Nat) (tinitval : Ub4) : Ub4 :=
  bobhash databuffer (u16 databufferlength) tinitval

def calcHashValueBOB : HashFunction := fun b =>
  UInt32.ofBitVec (bobHash b b.length initval)

/-! ## hsieh.c -/

/-- `get16bits`, the version for any byte order. -/
def get16bits (d0 d1 : UInt8) : Ub4 := (ub4 d1 <<< 8) + ub4 d0

/-- A plain `char` promoted to `int`, as a word. -/
def charValue (signed : Bool) (d : UInt8) : Ub4 :=
  if signed then d.toBitVec.signExtend 32 else ub4 d

/-- The main loop over four bytes at a time, and the bytes that are left. -/
def hsiehLoop : List UInt8 → Ub4 → Ub4 × List UInt8
  | d0 :: d1 :: d2 :: d3 :: data, hash =>
      let hash := hash + get16bits d0 d1
      let tmp := (get16bits d2 d3 <<< 11) ^^^ hash
      let hash := (hash <<< 16) ^^^ tmp
      let hash := hash + (hash >>> 11)
      hsiehLoop data hash
  | data, hash => (hash, data)

/-- The end cases; they look at `rem`, the length modulo 4. -/
def hsiehEnd (signedChar : Bool) (hash : Ub4) : List UInt8 → Ub4
  | [d0, d1, d2] =>
      let hash := hash + get16bits d0 d1
      let hash := hash ^^^ (hash <<< 16)
      let hash := hash ^^^ (charValue signedChar d2 <<< 18)
      hash + (hash >>> 11)
  | [d0, d1] =>
      let hash := hash + get16bits d0 d1
      let hash := hash ^^^ (hash <<< 11)
      hash + (hash >>> 17)
  | [d0] =>
      let hash := hash + charValue signedChar d0
      let hash := hash ^^^ (hash <<< 10)
      hash + (hash >>> 1)
  | _ => hash

/-- Force "avalanching" of the final 127 bits. -/
def hsiehAvalanche (hash : Ub4) : Ub4 :=
  let hash := hash ^^^ (hash <<< 3)
  let hash := hash + (hash >>> 5)
  let hash := hash ^^^ (hash <<< 4)
  let hash := hash + (hash >>> 17)
  let hash := hash ^^^ (hash <<< 25)
  hash + (hash >>> 6)

/-- `Hsieh_Hash`, whose length is a `uint16_t`. -/
def hsiehHash (signedChar : Bool) (data : List UInt8) (len : Nat) : Ub4 :=
  let len := u16 len
  if len = 0 then 0
  else
    let (hash, rest) := hsiehLoop (data.take len) (BitVec.ofNat 32 len)
    hsiehAvalanche (hsiehEnd signedChar hash rest)

def calcHashValueHsieh (signedChar : Bool) : HashFunction := fun b =>
  UInt32.ofBitVec (hsiehHash signedChar b b.length)

/-! ## twmx.c -/

inductive ByteOrder where
  | littleEndian
  | bigEndian
  deriving DecidableEq, Repr

/-- `*(uint32_t *)(k+0)` -/
def load32 (order : ByteOrder) (k0 k1 k2 k3 : UInt8) : Ub4 :=
  match order with
  | .littleEndian => word k0 k1 k2 k3
  | .bigEndian => word k3 k2 k1 k0

/-- What `TWMXHash` depends on besides the bytes: the byte order, and whether
    the two low bits of the pointer are zero. -/
structure Placement where
  order : ByteOrder
  aligned : Bool
  deriving DecidableEq, Repr

/-- The four bytes as one of the two loops reads them. -/
def Placement.load (p : Placement) (k0 k1 k2 k3 : UInt8) : Ub4 :=
  if p.aligned then load32 p.order k0 k1 k2 k3 else word k0 k1 k2 k3

/-- The macro `mix(key)`. -/
def mixKey (key : Ub4) : Ub4 :=
  let key := key + ~~~(key <<< 15)
  let key := key ^^^ ((key &&& 0x7FFFFFFF) >>> 10)
  let key := key + (key <<< 3)
  let key := key ^^^ ((key &&& 0x7FFFFFFF) >>> 6)
  let key := key + ~~~(key <<< 11)
  key ^^^ ((key &&& 0x7FFFFFFF) >>> 16)

/-- The two loops over four bytes at a time, and the bytes that are left. -/
def twmxLoop (p : Placement) : List UInt8 → Ub4 → Ub4 × List UInt8
  | k0 :: k1 :: k2 :: k3 :: k, key => twmxLoop p k (mixKey (key + p.load k0 k1 k2 k3))
  | k, key => (key, k)

def twmxHash (p : Placement) (data : List UInt8) (initval : Ub4) : Ub4 :=
  let (key, k) := twmxLoop p data initval
  mixKey (key + lastByte k 2 16 + lastByte k 1 8 + lastByte k 0 0)

def calcHashValueTWMXRSHash (p : Placement) : HashFunction := fun b =>
  UInt32.ofBitVec (twmxHash p b initval)

/-! ## hash.c -/

/-- One round of the loop of `calcHashValue_OAAT`. -/
def oaatRound (hash : Ub4) (b : UInt8) : Ub4 :=
  let hash := hash + ub4 b
  let hash := hash + (hash <<< 10)
  hash ^^^ (hash >>> 6)

def oaatEnd (hash : Ub4) : Ub4 :=
  let hash := hash + (hash <<< 3)
  let hash := hash ^^^ (hash >>> 11)
  hash + (hash <<< 15)

def calcHashValueOAAT : HashFunction := fun b =>
  UInt32.ofBitVec (oaatEnd (b.foldl oaatRound 0))

/-! ## `parseFunction` -/

/-- The machine the probe was compiled for and the place of a hash buffer. -/
structure Host where
  placement : Placement
  signedChar : Bool
  deriving DecidableEq, Repr

/-- The table of `parseFunction`. -/
def hashfunctions (host : Host) : List (CStr × HashFunction) :=
  [(str "BOB", calcHashValueBOB), (str "TWMX", calcHashValueTWMXRSHash host.placement),
   (str "HSIEH", calcHashValueHsieh host.signedChar), (str "OAAT", calcHashValueOAAT)]

/-- The loop over the table: the last name that fits is kept. -/
def hashfunctionLoop (argString : CStr) :
    List (CStr × HashFunction) → HashFunction → HashFunction
  | [], function => function
  | (hstring, function') :: table, function =>
      hashfunctionLoop argString table
        (if strncasecmpEq argString hstring hstring.length then function' else function)

/-- `parseFunction`: the first function of the table where no name fits. -/
def parseFunction (host : Host) (argString : CStr) : HashFunction :=
  hashfunctionLoop argString (hashfunctions host) calcHashValueBOB

end Impd4e.HashFunctions
