/-
Go strings: octet strings, with the rendering and UTF-8 functions of the
standard library that the CMP code relies on.

* `str`: a string constant of the source;
* `decimal`, `hexString`, `oidString`: `strconv`, `encoding/hex` and
  `asn1.ObjectIdentifier.String`;
* `runeWidth`, `utf8Valid`: `utf8.DecodeRune` and `utf8.Valid`.
-/
import PkiCmp.Lib.Der

namespace PkiCmp

open Der

/-- A Go string. -/
abbrev GoString := Bytes

/-- A string constant. -/
def str (s : String) : GoString := s.toUTF8.data.toList

/-- `strings.Join`. -/
def joinStrings (sep : GoString) : List GoString → GoString
  | [] => []
  | [s] => s
  | s :: ss => s ++ sep ++ joinStrings sep ss

/-- Decimal digits of a number, with a bound on their number. -/
def decimalAux : ℕ → ℕ → GoString
  | 0, n => [UInt8.ofNat (48 + n % 10)]
  | k + 1, n =>
    if n < 10 then [UInt8.ofNat (48 + n)]
    else decimalAux k (n / 10) ++ [UInt8.ofNat (48 + n % 10)]

/-- `%d`. -/
def decimal (v : ℤ) : GoString :=
  if v < 0 then 45 :: decimalAux v.natAbs v.natAbs else decimalAux v.natAbs v.natAbs

/-- One lower case hexadecimal digit. -/
def hexDigit (n : ℕ) : UInt8 := UInt8.ofNat (if n < 10 then 48 + n else 87 + n)

/-- `hex.EncodeToString`. -/
def hexString (b : Bytes) : GoString :=
  b.flatMap fun c => [hexDigit (c.toNat / 16), hexDigit (c.toNat % 16)]

/-- `asn1.ObjectIdentifier.String`: dotted decimal. -/
def oidString (oid : List ℕ) : GoString :=
  joinStrings [46] (oid.map fun n => decimal n)

/-! ### UTF-8 -/

/-- A continuation octet. -/
def isContinuation (b : UInt8) : Bool := 0x80 ≤ b && b ≤ 0xbf

/-- The number of octets of the rune at the front of a nonempty string, or
`none` where Go decodes one octet as `U+FFFD`. -/
def runeWidth : Bytes → Option ℕ
  | [] => none
  | b0 :: rest =>
    if b0 < 0x80 then some 1
    else match rest with
      | b1 :: rest1 =>
        if 0xc2 ≤ b0 && b0 ≤ 0xdf && isContinuation b1 then some 2
        else match rest1 with
          | b2 :: rest2 =>
            if ((b0 == 0xe0 && 0xa0 ≤ b1 && b1 ≤ 0xbf) ||
                (b0 == 0xed && 0x80 ≤ b1 && b1 ≤ 0x9f) ||
                (0xe1 ≤ b0 && b0 ≤ 0xef && b0 != 0xed && isContinuation b1)) &&
                isContinuation b2 then some 3
            else match rest2 with
              | b3 :: _ =>
                if ((b0 == 0xf0 && 0x90 ≤ b1 && b1 ≤ 0xbf) ||
                    (b0 == 0xf4 && 0x80 ≤ b1 && b1 ≤ 0x8f) ||
                    (0xf1 ≤ b0 && b0 ≤ 0xf3 && isContinuation b1)) &&
                    isContinuation b2 && isContinuation b3 then some 4
                else none
              | [] => none
          | [] => none
      | [] => none

/-- A rune has an octet. -/
lemma runeWidth_pos {s : Bytes} {n : ℕ} (h : runeWidth s = some n) : 0 < n := by
  revert h
  fun_cases runeWidth s <;> simp <;> omega

/-- The runes of a string, each re-encoded, with its offset; an invalid octet
becomes `U+FFFD`. -/
def runesAux : ℕ → ℕ → Bytes → List (ℕ × Bytes)
  | 0, _, _ => []
  | _, _, [] => []
  | fuel + 1, k, s =>
    match runeWidth s with
    | some n => (k, s.take n) :: runesAux fuel (k + n) (s.drop n)
    | none => (k, [0xef, 0xbf, 0xbd]) :: runesAux fuel (k + 1) (s.drop 1)

/-- `for k, c := range s`. -/
def runes (s : GoString) : List (ℕ × Bytes) := runesAux s.length 0 s

/-- The recursion of `utf8Valid`. -/
def utf8ValidAux : ℕ → Bytes → Bool
  | _, [] => true
  | 0, _ :: _ => false
  | fuel + 1, s =>
    match runeWidth s with
    | some n => utf8ValidAux fuel (s.drop n)
    | none => false

/-- `utf8.Valid`. -/
def utf8Valid (s : Bytes) : Bool := utf8ValidAux s.length s

example : oidString [2, 5, 4, 3] = [50, 46, 53, 46, 52, 46, 51] := by decide

example : runes [0x41, 0xff, 0xc3, 0xa9] =
    [(0, [0x41]), (1, [0xef, 0xbf, 0xbd]), (2, [0xc3, 0xa9])] := by
  decide

example : str "no" = [110, 111] := by decide

end PkiCmp
