/-
Go's `time` package, as far as the CMP code uses it: instants and durations in
nanoseconds, the civil calendar, and GeneralizedTime as `cryptobyte` writes and
reads it.

An instant is counted from 0001-01-01 00:00:00 UTC, Go's zero time; locations
are left out, since the code compares instants and encodes them in UTC.
-/
import PkiCmp.Go.Text

namespace PkiCmp

open Der

/-- `time.Time`: nanoseconds since the zero time. -/
abbrev Time := ℤ

/-- `time.Duration`: nanoseconds. -/
abbrev Duration := ℤ

namespace Time

/-- `time.Second`. -/
def second : Duration := 1000000000

/-- `Time.IsZero`. -/
def isZero (t : Time) : Bool := t == 0

/-- `Time.Before`. -/
def before (t u : Time) : Bool := t < u

/-- Days between 0000-03-01, where a leap day ends the year, and the zero time. -/
def epochShift : ℤ := 306

/-- Year, month and day of the day `z` after 0000-03-01. -/
def civil (z : ℤ) : ℤ × ℤ × ℤ :=
  let era := z / 146097
  let doe := z % 146097
  let yoe := (doe - doe / 1460 + doe / 36524 - doe / 146096) / 365
  let doy := doe - (365 * yoe + yoe / 4 - yoe / 100)
  let mp := (5 * doy + 2) / 153
  let d := doy - (153 * mp + 2) / 5 + 1
  let m := if mp < 10 then mp + 3 else mp - 9
  (yoe + era * 400 + (if m ≤ 2 then 1 else 0), m, d)

/-- Days from 0000-03-01 to the given date. -/
def daysOf (y m d : ℤ) : ℤ :=
  let y' := if m ≤ 2 then y - 1 else y
  let era := y' / 400
  let yoe := y' % 400
  let doy := (153 * (if 2 < m then m - 3 else m + 9) + 2) / 5 + d - 1
  era * 146097 + yoe * 365 + yoe / 4 - yoe / 100 + doy

/-- Whole seconds since the zero time. -/
def seconds (t : Time) : ℤ := t / second

/-- `Time.Year`, in UTC. -/
def year (t : Time) : ℤ := (civil (t.seconds / 86400 + epochShift)).1

/-- The last `k` decimal digits of a number. -/
def digits : ℕ → ℤ → Bytes
  | 0, _ => []
  | k + 1, n => digits k (n / 10) ++ [UInt8.ofNat (48 + (n % 10).toNat)]

/-- The layout `20060102150405Z0700` of an instant in UTC. -/
def format (t : Time) : Bytes :=
  let s := t.seconds
  let (y, m, d) := civil (s / 86400 + epochShift)
  let tod := s % 86400
  digits 4 y ++ digits 2 m ++ digits 2 d ++ digits 2 (tod / 3600) ++ digits 2 (tod / 60 % 60) ++
    digits 2 (tod % 60) ++ [90]

/-- The number written by decimal digits. -/
def number (bs : Bytes) : Option ℤ :=
  if bs.all fun b => 48 ≤ b && b ≤ 57 then
    some (bs.foldl (fun acc b => acc * 10 + (b.toNat - 48)) 0)
  else none

/-- Days of a month. -/
def daysIn (y m : ℤ) : ℤ :=
  if m = 2 then (if y % 4 = 0 ∧ (y % 100 ≠ 0 ∨ y % 400 = 0) then 29 else 28)
  else if m = 4 ∨ m = 6 ∨ m = 9 ∨ m = 11 then 30 else 31

/-- A zone offset in seconds: `Z`, or a sign, hours and minutes that are not
all zero (the reader writes the time again and compares). -/
def zone (bs : Bytes) : Option ℤ :=
  if bs = [90] then some 0
  else match bs with
    | sign :: h1 :: h2 :: m1 :: m2 :: [] => do
        let h ← number [h1, h2]
        let m ← number [m1, m2]
        if 24 < h ∨ 60 ≤ m ∨ (h = 0 ∧ m = 0) then none
        else if sign = 43 then some (h * 3600 + m * 60)
        else if sign = 45 then some (-(h * 3600 + m * 60))
        else none
    | _ => none

/-- The instant written in the layout `20060102150405Z0700`. -/
def parse (bs : Bytes) : Option Time := do
  let y ← number (bs.take 4)
  let m ← number ((bs.drop 4).take 2)
  let d ← number ((bs.drop 6).take 2)
  let hh ← number ((bs.drop 8).take 2)
  let mm ← number ((bs.drop 10).take 2)
  let ss ← number ((bs.drop 12).take 2)
  let off ← zone (bs.drop 14)
  if m < 1 ∨ 12 < m ∨ d < 1 ∨ daysIn y m < d ∨ 24 ≤ hh ∨ 60 ≤ mm ∨ 60 ≤ ss then none
  else
    some (((daysOf y m d - epochShift) * 86400 + hh * 3600 + mm * 60 + ss - off) * second)

/-- `fmtFrac`: the fraction of `u / 10 ^ prec`, without trailing zeros. -/
def fraction (prec u : ℕ) : GoString :=
  match ((digits prec u).reverse.dropWhile (· == 48)).reverse with
  | [] => []
  | ds => 46 :: ds

/-- `Time.String`, in UTC. -/
def string (t : Time) : GoString :=
  let s := t.seconds
  let (y, m, d) := civil (s / 86400 + epochShift)
  let tod := s % 86400
  digits 4 y ++ str "-" ++ digits 2 m ++ str "-" ++ digits 2 d ++ str " " ++
    digits 2 (tod / 3600) ++
    str ":" ++ digits 2 (tod / 60 % 60) ++ str ":" ++ digits 2 (tod % 60) ++
    fraction 9 (t % second).toNat ++ str " +0000 UTC"

/-- The units of a duration, from hours to nanoseconds. -/
def durationUnits (u : ℕ) : GoString :=
  if u = 0 then str "0s"
  else if u < 1000 then decimal u ++ str "ns"
  else if u < 1000000 then decimal ↑(u / 1000) ++ fraction 3 u ++ str "µs"
  else if u < 1000000000 then decimal ↑(u / 1000000) ++ fraction 6 u ++ str "ms"
  else
    let s := u / 1000000000
    (if s < 3600 then [] else decimal ↑(s / 3600) ++ str "h") ++
      (if s < 60 then [] else decimal ↑(s / 60 % 60) ++ str "m") ++
      decimal ↑(s % 60) ++ fraction 9 u ++ str "s"

/-- `Duration.String`. -/
def durationString (d : Duration) : GoString :=
  if d < 0 then 45 :: durationUnits d.natAbs else durationUnits d.natAbs

end Time

/-- `cryptobyte.Builder.AddASN1GeneralizedTime`. -/
def addASN1GeneralizedTime {ε : Type} [BuildFailure ε] (t : Time) : Except ε Bytes :=
  if t.year < 0 ∨ 9999 < t.year then .error (BuildFailure.ofBuild .invalidTime)
  else addASN1 tagGeneralizedTime (.ok t.format)

/-- `cryptobyte.String.ReadASN1GeneralizedTime`. -/
def readASN1GeneralizedTime (s : Bytes) : Option (Time × Bytes) := do
  let (e, rest) ← readASN1 tagGeneralizedTime s
  let t ← Time.parse e.content
  pure (t, rest)

-- 2024-02-29 12:34:56 UTC, both ways
example : Time.parse [50, 48, 50, 52, 48, 50, 50, 57, 49, 50, 51, 52, 53, 54, 90] =
    some 63844806896000000000 := by decide

example : Time.format 63844806896000000000 =
    [50, 48, 50, 52, 48, 50, 50, 57, 49, 50, 51, 52, 53, 54, 90] := by decide

end PkiCmp
