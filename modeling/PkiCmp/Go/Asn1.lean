/-
Go's `encoding/asn1`, as far as the CMP code uses it: the decoder's elements,
fields of structures, and the values that name attributes may hold.

The decoder differs from `cryptobyte` in what it accepts: high tag numbers,
lengths below `2 ^ 31`, and further elements at the end of a structure.  Its
errors are all one value here, since no caller looks at them.

* `readTLV`: one element;
* `field`, `optField`: a field of a structure, required or optional;
* `AttrValue`, `parseAny`: what an `any` field holds after decoding.
-/
import PkiCmp.Errors
import PkiCmp.Go.Time

namespace PkiCmp

namespace Asn1

open Der

/-- The errors of `encoding/asn1`. -/
def error : GoError := .library (str "asn1: structure error")

/-- One element as the decoder finds it. -/
structure TLV where
  cls : ℕ
  compound : Bool
  tag : ℕ
  full : Bytes
  content : Bytes
  deriving DecidableEq, Repr

/-- `parseBase128Int`. -/
def parseBase128Int (shifted ret : ℕ) : Bytes → Option (ℕ × Bytes)
  | [] => none
  | b :: bs =>
    if shifted = 5 ∨ (shifted = 0 ∧ b = 0x80) then none
    else
      let ret' := ret * 128 + (b &&& 0x7f).toNat
      if b &&& 0x80 == 0 then
        (if ret' ≤ 2 ^ 31 - 1 then some (ret', bs) else none)
      else parseBase128Int (shifted + 1) ret' bs

/-- The octets of a long length, refused when too large or not minimal. -/
def parseLength : ℕ → ℕ → Bytes → Option (ℕ × Bytes)
  | 0, len, bs => if len < 0x80 then none else some (len, bs)
  | _ + 1, _, [] => none
  | n + 1, len, b :: bs =>
    if 2 ^ 23 ≤ len then none
    else
      let len' := len * 256 + b.toNat
      if len' = 0 then none else parseLength n len' bs

/-- `parseTagAndLength`: class, form, tag number, content length and the octets
after the header. -/
def parseTagAndLength : Bytes → Option (ℕ × Bool × ℕ × ℕ × Bytes)
  | [] => none
  | b :: bs => do
      let cls := b.toNat / 64
      let compound := b &&& 0x20 == 0x20
      let low := (b &&& 0x1f).toNat
      let (tag, bs) ←
        if low = 0x1f then
          match parseBase128Int 0 0 bs with
          | some (t, rest) => if t < 0x1f then none else some (t, rest)
          | none => none
        else some (low, bs)
      match bs with
      | [] => none
      | l :: bs =>
        if l &&& 0x80 == 0 then some (cls, compound, tag, (l &&& 0x7f).toNat, bs)
        else
          let n := (l &&& 0x7f).toNat
          if n = 0 then none
          else do
            let (len, bs) ← parseLength n 0 bs
            some (cls, compound, tag, len, bs)

/-- One whole element and what follows it. -/
def readTLV (s : Bytes) : Option (TLV × Bytes) := do
  let (cls, compound, tag, len, rest) ← parseTagAndLength s
  if rest.length < len then none
  else
    some (⟨cls, compound, tag, s.take (s.length - rest.length + len), rest.take len⟩, rest.drop len)

/-- A required field with a universal tag. -/
def field (tag : ℕ) (compound : Bool) (s : Bytes) : Option (Bytes × Bytes) := do
  let (t, rest) ← readTLV s
  if t.cls = 0 ∧ t.tag = tag ∧ t.compound = compound then some (t.content, rest) else none

/-- An optional field with a universal tag: absent at the end of the input and
before an element with another tag. -/
def optField (tag : ℕ) (compound : Bool) (s : Bytes) : Option (Option Bytes × Bytes) :=
  if s = [] then some (none, [])
  else do
    let (cls, comp, t, _, _) ← parseTagAndLength s
    if cls = 0 ∧ t = tag ∧ comp = compound then do
      let (t, rest) ← readTLV s
      some (some t.content, rest)
    else some (none, s)

/-- The elements of a `SEQUENCE OF` or `SET OF` with one universal tag. -/
def elementsOf (tag : ℕ) (compound : Bool) : ℕ → Bytes → Option (List Bytes)
  | _, [] => some []
  | 0, _ :: _ => none
  | fuel + 1, s => do
      let (c, rest) ← field tag compound s
      let cs ← elementsOf tag compound fuel rest
      some (c :: cs)

/-- `parseObjectIdentifier`, the arcs after the first number. -/
def parseArcs : ℕ → Bytes → Option (List ℕ)
  | _, [] => some []
  | 0, _ :: _ => none
  | fuel + 1, s => do
      let (v, rest) ← parseBase128Int 0 0 s
      let vs ← parseArcs fuel rest
      some (v :: vs)

/-- `parseObjectIdentifier`. -/
def parseObjectIdentifier (c : Bytes) : Option (List ℕ) := do
  let (v, rest) ← parseBase128Int 0 0 c
  let arcs ← parseArcs rest.length rest
  some (if v < 80 then v / 40 :: v % 40 :: arcs else 2 :: (v - 80) :: arcs)

/-- `parseInt64`. -/
def parseInt64 (c : Bytes) : Option ℤ :=
  if checkASN1Integer c ∧ c.length ≤ 8 then some (intValue c) else none

/-- `parseBool`. -/
def parseBool : Bytes → Option Bool
  | [0] => some false
  | [0xff] => some true
  | _ => none

/-! ### String types -/

/-- `isPrintable`, with the asterisk and the ampersand the decoder tolerates. -/
def isPrintable (b : UInt8) : Bool :=
  (97 ≤ b && b ≤ 122) || (65 ≤ b && b ≤ 90) || (48 ≤ b && b ≤ 57) || (39 ≤ b && b ≤ 41) ||
    (43 ≤ b && b ≤ 47) || b == 32 || b == 58 || b == 61 || b == 63 || b == 42 || b == 38

/-- `isNumeric`. -/
def isNumeric (b : UInt8) : Bool := (48 ≤ b && b ≤ 57) || b == 32

/-- The UTF-8 encoding of a code point below `0x110000`, `U+FFFD` for a
surrogate. -/
def encodeRune (n : ℕ) : Bytes :=
  if n < 0x80 then [UInt8.ofNat n]
  else if n < 0x800 then [UInt8.ofNat (0xc0 + n / 64), UInt8.ofNat (0x80 + n % 64)]
  else if 0xd800 ≤ n ∧ n < 0xe000 then [0xef, 0xbf, 0xbd]
  else if n < 0x10000 then
    [UInt8.ofNat (0xe0 + n / 4096), UInt8.ofNat (0x80 + n / 64 % 64), UInt8.ofNat (0x80 + n % 64)]
  else
    [UInt8.ofNat (0xf0 + n / 262144), UInt8.ofNat (0x80 + n / 4096 % 64),
      UInt8.ofNat (0x80 + n / 64 % 64), UInt8.ofNat (0x80 + n % 64)]

/-- The 16-bit units of a BMPString. -/
def units : Bytes → Option (List ℕ)
  | [] => some []
  | [_] => none
  | a :: b :: rest => (units rest).map (fun us => (a.toNat * 256 + b.toNat) :: us)

/-- `utf16.Decode` and back to UTF-8. -/
def decodeUnits : List ℕ → Bytes
  | [] => []
  | [u] => encodeRune u
  | u :: v :: rest =>
    if 0xd800 ≤ u ∧ u < 0xdc00 ∧ 0xdc00 ≤ v ∧ v < 0xe000 then
      encodeRune (0x10000 + (u - 0xd800) * 1024 + (v - 0xdc00)) ++ decodeUnits rest
    else encodeRune u ++ decodeUnits (v :: rest)

/-- `parseBMPString`: a trailing NUL is dropped. -/
def parseBMPString (c : Bytes) : Option GoString := do
  let us ← units c
  some (decodeUnits (if us.getLast? = some 0 then us.dropLast else us))

/-- The string of a string type, `none` when its octets are not allowed, and
`some none` for a tag that is no string type. -/
def parseString (tag : ℕ) (c : Bytes) : Option (Option GoString) :=
  match tag with
  | 12 => if utf8Valid c then some (some c) else none
  | 18 => if c.all isNumeric then some (some c) else none
  | 19 => if c.all isPrintable then some (some c) else none
  | 20 => some (some (c.flatMap fun b => encodeRune b.toNat))
  | 22 => if c.all (· < 0x80) then some (some c) else none
  | 30 => (parseBMPString c).map some
  | _ => some none

/-! ### Values of `any` fields -/

/-- What an `any` field holds. -/
inductive AttrValue where
  | string (s : GoString)
  | int (v : ℤ)
  | bitString (bytes : Bytes) (bitLength : ℕ)
  | oid (arcs : List ℕ)
  | octets (b : Bytes)
  | time (t : Time)
  | null
  deriving DecidableEq, Repr

/-- `parseBitString`. -/
def parseBitString : Bytes → Option AttrValue
  | [] => none
  | pad :: bs =>
    if 7 < pad ∨ (bs = [] ∧ 0 < pad) ∨
        ((bs.getLast?.getD 0).toNat % 2 ^ pad.toNat ≠ 0) then none
    else some (.bitString bs (bs.length * 8 - pad.toNat))

/-- `parseUTCTime`: the layouts without and with seconds; the years from 50 on are those
of the last century. -/
def parseUTCTime (c : Bytes) : Option Time :=
  let century := if 53 ≤ c.headD 0 then [49, 57] else [50, 48]
  match Time.parse (century ++ c.take 10 ++ [48, 48] ++ c.drop 10) with
  | some t => some t
  | none => Time.parse (century ++ c)

/-- The nanoseconds of the layout `.999999999`, which ends in no zero. -/
def parseFraction (ds : Bytes) : Option ℤ :=
  if 9 < ds.length ∨ ds.getLast? ∈ [none, some 48] then none
  else (Time.number ds).map fun n => n * 10 ^ (9 - ds.length)

/-- `parseGeneralizedTime`, in the layout `20060102150405.999999999Z0700`. -/
def parseGeneralizedTime (c : Bytes) : Option Time :=
  match c.drop 14 with
  | 46 :: rest => do
      let isDigit (b : UInt8) : Bool := 48 ≤ b && b ≤ 57
      let t ← Time.parse (c.take 14 ++ rest.dropWhile isDigit)
      let nanos ← parseFraction (rest.takeWhile isDigit)
      some (t + nanos)
  | _ => Time.parse c

/-- `asn1.UnmarshalWithParams` into a `time.Time`: either kind of time. -/
def unmarshalTime (s : Bytes) : Option (Time × Bytes) := do
  let (t, rest) ← readTLV s
  if t.cls ≠ 0 ∨ t.compound then none
  else if t.tag = 23 then (parseUTCTime t.content).map fun v => (v, rest)
  else if t.tag = 24 then (parseGeneralizedTime t.content).map fun v => (v, rest)
  else none

/-- The value of an `any` field. -/
def parseAny (t : TLV) : Option AttrValue :=
  if t.compound ∨ t.cls ≠ 0 then some .null
  else match t.tag with
    | 2 => (parseInt64 t.content).map .int
    | 3 => parseBitString t.content
    | 4 => some (.octets t.content)
    | 6 => (parseObjectIdentifier t.content).map .oid
    | 23 => (parseUTCTime t.content).map .time
    | 24 => (parseGeneralizedTime t.content).map .time
    | n => (parseString n t.content).map fun s => match s with
        | some s => .string s
        | none => .null

/-- `asn1.Marshal` of a time, in UTC and in whole seconds: a UTCTime in its range of years. -/
def marshalTime (t : Time) : Option Bytes :=
  if 1950 ≤ t.year ∧ t.year < 2050 then some (element tagUTCTime (t.format.drop 2))
  else if 0 ≤ t.year ∧ t.year ≤ 9999 then some (element tagGeneralizedTime t.format)
  else none

/-- `asn1.Marshal` of a value; a string is a PrintableString when it can be and
a UTF8String when it is valid UTF-8. -/
def marshal : AttrValue → Option Bytes
  | .string s =>
    -- the encoder does not write the two characters the decoder tolerates
    if s.all (fun b => isPrintable b && b != 42 && b != 38) then some (element 0x13 s)
    else if utf8Valid s then some (element tagUTF8String s)
    else none
  | .int v => some (element tagInteger (intOctets v))
  | .bitString b n =>
    some (element tagBitString (UInt8.ofNat ((8 - n % 8) % 8) :: b))
  | .oid arcs => if validOID arcs then some (element tagObjectIdentifier (oidOctets arcs)) else none
  | .octets b => some (element tagOctetString b)
  | .time t => marshalTime t
  | .null => none

/-- `fmt.Sprint` of a value. -/
def sprint : AttrValue → GoString
  | .string s => s
  | .int v => decimal v
  | .bitString b n =>
    str "\x7b[" ++ joinStrings (str " ") (b.map fun c => decimal c.toNat) ++ str "] " ++ decimal n
      ++ str "\x7d"
  | .oid arcs => oidString arcs
  | .octets b => str "[" ++ joinStrings (str " ") (b.map fun c => decimal c.toNat) ++ str "]"
  | .time t => t.string
  | .null => str "<nil>"

example :
    readTLV [0x13, 2, 65, 66, 9] = some (⟨0, false, 19, [0x13, 2, 65, 66], [65, 66]⟩, [9]) := by
  decide

end Asn1

end PkiCmp
